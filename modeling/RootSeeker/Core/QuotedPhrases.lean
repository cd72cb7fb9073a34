import Mathlib.Data.List.Basic
import Mathlib.Order.Basic
import Mathlib.Data.List.Count

/-!
# Quoted phrases

A text of words and phrases. A phrase stands between quotes, and a quote after the escape
character belongs to it.
-/

namespace RootSeeker.QuotedPhrases

variable {α : Type*} [DecidableEq α]

structure Quoting (α : Type*) where
  quote : α
  escape : α
  blank : α → Bool
  ne : quote ≠ escape

inductive Token (α : Type*) where
  | word (text : List α)
  | phrase (text : List α)
  deriving DecidableEq

variable (q : Quoting α)

/-- A phrase and what follows its closing quote; `escaped` says that the escape character was
read just before. -/
def readPhrase : Bool → List α → Option (List α × List α)
  | _, [] => none
  | escaped, c :: rest =>
    if c = q.quote ∧ escaped = false then some ([], rest)
    else (readPhrase (decide (c = q.escape)) rest).map fun read => (c :: read.1, read.2)

/-- What a phrase stands for: an escaped quote loses its escape character. -/
def unescape : List α → List α
  | [] => []
  | [c] => [c]
  | c :: next :: rest =>
    if c = q.escape ∧ next = q.quote then q.quote :: unescape rest
    else c :: unescape (next :: rest)

def wordToken (letters : List α) : List (Token α) :=
  if letters = [] then [] else [.word letters]

/-- The tokens of a text; `none` stands for a phrase that is not closed. The first argument
counts down with the text. -/
def readTokens : ℕ → List α → List α → Option (List (Token α))
  | _, letters, [] => some (wordToken letters)
  | 0, _, _ :: _ => none
  | fuel + 1, letters, c :: rest =>
    if c = q.quote then
      (readPhrase q false rest).bind fun read =>
        (readTokens fuel [] read.2).map fun tokens =>
          wordToken letters ++ .phrase (unescape q read.1) :: tokens
    else if q.blank c then (readTokens fuel [] rest).map (wordToken letters ++ ·)
    else readTokens fuel (letters ++ [c]) rest

def tokens (text : List α) : Option (List (Token α)) :=
  readTokens q text.length [] text

/-- A text that may stand between quotes as it is. -/
structure Clean (text : List α) : Prop where
  noQuote : q.quote ∉ text
  noEscape : text.getLast? ≠ some q.escape

instance (text : List α) : Decidable (Clean q text) :=
  decidable_of_iff (q.quote ∉ text ∧ text.getLast? ≠ some q.escape)
    ⟨fun h => ⟨h.1, h.2⟩, fun h => ⟨h.1, h.2⟩⟩

variable {q}

/-! ## Phrases -/

variable {escaped : Bool} {text rest body : List α}

theorem eq_append_of_readPhrase (hread : readPhrase q escaped text = some (body, rest)) :
    text = body ++ q.quote :: rest := by
  induction text generalizing escaped body with
  | nil => cases hread
  | cons c text ih =>
    rw [readPhrase] at hread
    by_cases hclose : c = q.quote ∧ escaped = false
    · rw [if_pos hclose] at hread
      cases hread
      rw [hclose.1, List.nil_append]
    · rw [if_neg hclose, Option.map_eq_some_iff] at hread
      obtain ⟨read, hread, hsame⟩ := hread
      cases hsame
      rw [ih hread, List.cons_append]

theorem length_lt_of_readPhrase (hread : readPhrase q escaped text = some (body, rest)) :
    rest.length < text.length := by
  rw [eq_append_of_readPhrase hread, List.length_append, List.length_cons]
  omega

/-- A body ends without an escape character. -/
theorem getLast?_of_readPhrase (hread : readPhrase q escaped text = some (body, rest)) :
    body.getLast? ≠ some q.escape := by
  induction text generalizing escaped body with
  | nil => cases hread
  | cons c text ih =>
    rw [readPhrase] at hread
    by_cases hclose : c = q.quote ∧ escaped = false
    · rw [if_pos hclose] at hread
      cases hread
      rw [List.getLast?_nil]
      exact nofun
    · rw [if_neg hclose, Option.map_eq_some_iff] at hread
      obtain ⟨⟨body', rest'⟩, hread, hsame⟩ := hread
      cases hsame
      cases body' with
      | cons d body' =>
        rw [List.getLast?_cons_cons]
        exact ih hread
      | nil =>
        -- the quote comes right after `c`
        intro hlast
        rw [List.getLast?_singleton, Option.some_inj] at hlast
        rw [eq_append_of_readPhrase hread, hlast, List.nil_append, readPhrase,
          decide_eq_true rfl, if_neg (by simp), Option.map_eq_some_iff] at hread
        obtain ⟨read, _, hsame⟩ := hread
        cases hsame

/-- A clean text is read up to the quote that follows it. -/
theorem readPhrase_append (hclean : Clean q text) (rest : List α) :
    readPhrase q false (text ++ q.quote :: rest) = some (text, rest) := by
  have hall : ∀ escaped, (text = [] → escaped = false) →
      readPhrase q escaped (text ++ q.quote :: rest) = some (text, rest) := by
    induction text with
    | nil =>
      intro escaped hescaped
      rw [List.nil_append, readPhrase, if_pos ⟨rfl, hescaped rfl⟩]
    | cons c text ih =>
      intro escaped _
      have hne : c ≠ q.quote := fun heq => hclean.noQuote (heq ▸ List.mem_cons_self)
      rw [List.cons_append, readPhrase, if_neg (fun h => hne h.1), ih]
      · rfl
      · refine ⟨fun hmem => hclean.noQuote (List.mem_cons_of_mem c hmem), fun hlast => ?_⟩
        cases text with
        | nil => cases hlast
        | cons d text => exact hclean.noEscape (by rw [List.getLast?_cons_cons]; exact hlast)
      · intro hnil
        apply decide_eq_false
        intro hescape
        rw [hnil, hescape] at hclean
        exact hclean.noEscape rfl
  exact hall false fun _ => rfl

theorem unescape_of_noQuote (hquote : q.quote ∉ text) : unescape q text = text := by
  induction text with
  | nil => rfl
  | cons c rest ih =>
    have hrest : q.quote ∉ rest := fun hmem => hquote (List.mem_cons_of_mem c hmem)
    cases rest with
    | nil => rfl
    | cons d rest =>
      have hne : d ≠ q.quote := fun heq => hrest (heq ▸ List.mem_cons_self)
      rw [unescape, if_neg fun h => hne h.2, ih hrest]

/-- The quotes stay. -/
theorem count_unescape (text : List α) : (unescape q text).count q.quote = text.count q.quote := by
  induction text using unescape.induct q with
  | case1 => rfl
  | case2 c => rfl
  | case3 c next rest hboth ih =>
    rw [unescape, if_pos hboth, hboth.1, hboth.2, List.count_cons_self,
      List.count_cons_of_ne q.ne.symm, List.count_cons_self, ih]
  | case4 c next rest hother ih =>
    rw [unescape, if_neg hother, List.count_cons, List.count_cons, ih]

theorem length_unescape_le (text : List α) : (unescape q text).length ≤ text.length := by
  induction text using unescape.induct q with
  | case1 => exact Nat.le_refl 0
  | case2 c => exact Nat.le_refl 1
  | case3 c next rest hboth ih =>
    rw [unescape, if_pos hboth]
    simp only [List.length_cons]
    omega
  | case4 c next rest hother ih =>
    rw [unescape, if_neg hother]
    simpa using ih

/-- A character other than a quote is read in the same way after the escape character. -/
theorem readPhrase_of_ne {c : α} (hne : c ≠ q.quote) (escaped : Bool) (rest : List α) :
    readPhrase q escaped (c :: rest) = readPhrase q false (c :: rest) := by
  rw [readPhrase, readPhrase, if_neg fun h => hne h.1, if_neg fun h => hne h.1]

/-- A body with a quote in it stands for a shorter text. -/
theorem noQuote_of_unescape_eq
    (hread : readPhrase q false (body ++ q.quote :: rest) = some (body, rest))
    (hsame : unescape q body = body) : q.quote ∉ body := by
  induction body using unescape.induct q with
  | case1 => exact List.not_mem_nil
  | case2 c =>
    intro hmem
    rw [← List.mem_singleton.mp hmem, List.cons_append, readPhrase, if_pos ⟨rfl, rfl⟩] at hread
    cases hread
  | case3 c next body hboth _ =>
    have hlength := congrArg List.length hsame
    have hle := @length_unescape_le _ _ q body
    rw [unescape, if_pos hboth] at hlength
    simp only [List.length_cons] at hlength
    omega
  | case4 c next body hother ih =>
    rw [unescape, if_neg hother, List.cons_inj_right] at hsame
    rw [List.cons_append, readPhrase] at hread
    by_cases hquote : c = q.quote
    · rw [if_pos ⟨hquote, rfl⟩] at hread
      cases hread
    · rw [if_neg fun h => hquote h.1, Option.map_eq_some_iff] at hread
      obtain ⟨⟨body', rest'⟩, hread, heq⟩ := hread
      simp only [Prod.mk.injEq, List.cons_inj_right] at heq
      rw [heq.1, heq.2] at hread
      have htail : q.quote ∉ next :: body := by
        by_cases hescape : c = q.escape
        · have hnext : next ≠ q.quote := fun heq => hother ⟨hescape, heq⟩
          rw [List.cons_append, readPhrase_of_ne hnext] at hread
          exact ih hread hsame
        · rw [decide_eq_false hescape] at hread
          exact ih hread hsame
      intro hmem
      exact (List.mem_cons.mp hmem).elim (fun hhead => hquote hhead.symm) htail

/-- A text between quotes is read as itself exactly when it is clean. -/
theorem readPhrase_reads_iff {tail : List α} :
    (∃ read, readPhrase q false (text ++ q.quote :: tail) = some read ∧
      unescape q read.1 = text) ↔ Clean q text := by
  apply Iff.intro
  · rintro ⟨⟨body, rest⟩, hread, hsame⟩
    have hcount := @count_unescape _ _ q body
    rw [hsame] at hcount
    have hsplit := eq_append_of_readPhrase hread
    have hbody : body = text := by
      rcases List.append_eq_append_iff.mp hsplit with
        ⟨between, hbody, htail⟩ | ⟨between, htext, htail⟩
      · cases between with
        | nil => rw [hbody, List.append_nil]
        | cons c between =>
          rw [List.cons_append, List.cons.injEq] at htail
          rw [hbody, List.count_append, ← htail.1, List.count_cons_self] at hcount
          omega
      · cases between with
        | nil => rw [htext, List.append_nil]
        | cons c between =>
          rw [List.cons_append, List.cons.injEq] at htail
          rw [htext, List.count_append, ← htail.1, List.count_cons_self] at hcount
          omega
    subst hbody
    have hrest : rest = tail := by simpa using hsplit.symm
    rw [hrest] at hread
    exact ⟨noQuote_of_unescape_eq hread hsame, getLast?_of_readPhrase hread⟩
  · intro hclean
    exact ⟨(text, tail), readPhrase_append hclean tail, unescape_of_noQuote hclean.noQuote⟩

/-! ## Tokens -/

/-- The fuel does not matter. -/
theorem readTokens_eq {fuel : ℕ} {letters : List α} (hfuel : text.length ≤ fuel) :
    readTokens q fuel letters text = readTokens q text.length letters text := by
  induction fuel using Nat.strongRecOn generalizing letters text with
  | ind fuel ih =>
    cases text with
    | nil => cases fuel <;> rfl
    | cons c text =>
      cases fuel with
      | zero => cases hfuel
      | succ fuel =>
        have hle : text.length ≤ fuel := Nat.le_of_succ_le_succ hfuel
        rw [List.length_cons, readTokens, readTokens]
        by_cases hquote : c = q.quote
        · rw [if_pos hquote, if_pos hquote]
          cases hread : readPhrase q false text with
          | none => rfl
          | some read =>
            have hshort := length_lt_of_readPhrase hread
            rw [Option.bind_some, Option.bind_some,
              ih fuel (Nat.lt_succ_self _) (by omega : read.2.length ≤ fuel),
              ih text.length (by omega) (by omega : read.2.length ≤ text.length)]
        · rw [if_neg hquote, if_neg hquote,
            ih fuel (Nat.lt_succ_self _) hle, ih fuel (Nat.lt_succ_self _) hle]

/-- What is read after some letters of a word. -/
def tokensAfter (q : Quoting α) (letters text : List α) : Option (List (Token α)) :=
  readTokens q text.length letters text

@[simp]
theorem tokensAfter_nil (letters : List α) : tokensAfter q letters [] = some (wordToken letters) :=
  rfl

theorem tokensAfter_quote (letters rest : List α) :
    tokensAfter q letters (q.quote :: rest) =
      (readPhrase q false rest).bind fun read =>
        (tokensAfter q [] read.2).map fun tokens =>
          wordToken letters ++ .phrase (unescape q read.1) :: tokens := by
  rw [tokensAfter, List.length_cons, readTokens, if_pos rfl]
  cases hread : readPhrase q false rest with
  | none => rfl
  | some read =>
    have hfuel := Nat.le_of_lt (length_lt_of_readPhrase hread)
    rw [Option.bind_some, Option.bind_some, readTokens_eq hfuel]
    rfl

theorem tokensAfter_blank {c : α} (hne : c ≠ q.quote) (hblank : q.blank c = true)
    (letters rest : List α) :
    tokensAfter q letters (c :: rest) = (tokensAfter q [] rest).map (wordToken letters ++ ·) := by
  rw [tokensAfter, List.length_cons, readTokens, if_neg hne, if_pos hblank]
  rfl

theorem tokensAfter_letter {c : α} (hne : c ≠ q.quote) (hblank : q.blank c = false)
    (letters rest : List α) :
    tokensAfter q letters (c :: rest) = tokensAfter q (letters ++ [c]) rest := by
  rw [tokensAfter, List.length_cons, readTokens, if_neg hne, if_neg (by rw [hblank]; simp)]
  rfl

/-- The letters of a word. -/
def IsWord (q : Quoting α) (word : List α) : Prop :=
  word ≠ [] ∧ ∀ c ∈ word, c ≠ q.quote ∧ q.blank c = false

theorem tokensAfter_append {word : List α} (hword : ∀ c ∈ word, c ≠ q.quote ∧ q.blank c = false)
    (letters rest : List α) :
    tokensAfter q letters (word ++ rest) = tokensAfter q (letters ++ word) rest := by
  induction word generalizing letters with
  | nil => rw [List.append_nil]; rfl
  | cons c word ih =>
    obtain ⟨hc, hword⟩ := List.forall_mem_cons.mp hword
    rw [List.cons_append, tokensAfter_letter hc.1 hc.2, ih hword, List.append_assoc]
    rfl

/-- A word before a blank. -/
theorem tokensAfter_word {word : List α} (hword : IsWord q word) {c : α} (hne : c ≠ q.quote)
    (hblank : q.blank c = true) (rest : List α) :
    tokensAfter q [] (word ++ c :: rest) = (tokensAfter q [] rest).map (.word word :: ·) := by
  rw [tokensAfter_append hword.2, List.nil_append, tokensAfter_blank hne hblank, wordToken,
    if_neg hword.1]
  rfl

/-- A phrase is read as the text that was put between the quotes exactly when that is clean and
the tokens after it are read as expected. -/
theorem tokensAfter_phrase_iff {tail : List α} {expected : List (Token α)} :
    tokensAfter q [] (q.quote :: (text ++ q.quote :: tail)) =
        some (.phrase text :: expected) ↔
      Clean q text ∧ tokensAfter q [] tail = some expected := by
  rw [tokensAfter_quote]
  apply Iff.intro
  · intro htokens
    rw [Option.bind_eq_some_iff] at htokens
    obtain ⟨read, hread, htokens⟩ := htokens
    rw [Option.map_eq_some_iff] at htokens
    obtain ⟨tokens, htail, hsame⟩ := htokens
    rw [wordToken, if_pos rfl, List.nil_append, List.cons.injEq, Token.phrase.injEq] at hsame
    have hclean : Clean q text := readPhrase_reads_iff.mp ⟨read, hread, hsame.1⟩
    rw [readPhrase_append hclean] at hread
    cases hread
    exact ⟨hclean, by rw [htail, hsame.2]⟩
  · intro hboth
    rw [readPhrase_append hboth.1, Option.bind_some, hboth.2, Option.map_some,
      unescape_of_noQuote hboth.1.noQuote]
    rfl

end RootSeeker.QuotedPhrases
