import RootSeeker.Contracts.Common
import RootSeeker.Core.DictUpdate
import RootSeeker.Python.TextFiles

/-!
# Merging an env file

The lines of the file become markers of keys and other lines in one list of texts, the keys get
their values, and the list is written back.
-/

namespace RootSeeker.Setup

open Python Contracts

def hashSign : CodePoint := CodePoint.ofChar '#'

def equalsSign : CodePoint := CodePoint.ofChar '='

/-- A letter without its case, as `re.I` compares it: four letters outside ASCII go with S, K
and I. -/
def foldLetter (c : CodePoint) : CodePoint :=
  if h : 0x61 ≤ c.val ∧ c.val ≤ 0x7A then ⟨c.val - 0x20, CodePoint.capital_lt h⟩
  else if c.val = 0x17F then CodePoint.ofChar 'S'
  else if c.val = 0x212A then CodePoint.ofChar 'K'
  else if c.val = 0x130 ∨ c.val = 0x131 then CodePoint.ofChar 'I'
  else c

def isSecretKey (key : PyStr) : Bool :=
  [py "API_KEY", py "PASSWORD", py "SECRET", py "TOKEN", py "ROOT_PASSWORD"].any fun name =>
    name <:+: key.map foldLetter

/-! ## Reading -/

/-- Key and value of a line; none for a blank line, a comment and a line without `=`. -/
def envLine (line : PyStr) : Option (PyStr × PyStr) :=
  let stripped := strip line
  if stripped = [] ∨ stripped.head? = some hashSign then none
  else if equalsSign ∉ stripped then none
  else some (strip (stripped.takeWhile (· ≠ equalsSign)),
    (stripped.dropWhile (· ≠ equalsSign)).tail)

def keyPrefix : PyStr := py "__KEY__:"

def keyMarker (key : PyStr) : PyStr := keyPrefix ++ key

/-- The order of the items with the values of the keys. -/
abbrev EnvTable := List PyStr × Dict PyStr PyStr

def parseLine (table : EnvTable) (line : PyStr) : EnvTable :=
  match envLine line with
  | none => (table.1 ++ [line], table.2)
  | some (key, value) => (table.1 ++ [keyMarker key], table.2.set key value)

def parseEnvLines (text : PyStr) : EnvTable :=
  (splitLines text).foldl parseLine ([], [])

/-! ## Updating -/

/-- A secret that has a value keeps it. -/
def isProtected (overwrite : Bool) (values : Dict PyStr PyStr) (key : PyStr) : Bool :=
  !overwrite && isSecretKey key &&
    ((values.get? key).map fun value => decide (value ≠ [])).getD false

def applyUpdate (overwrite : Bool) (table : EnvTable) (update : PyStr × PyStr) : EnvTable :=
  if isProtected overwrite table.2 update.1 then table
  else
    (if update.1 ∈ table.2.keys then table.1 else table.1 ++ [keyMarker update.1],
      table.2.set update.1 update.2)

/-! ## Writing -/

def envText (key value : PyStr) : PyStr :=
  key ++ [equalsSign] ++ value

/-- The lines of the items, each key once, and of the keys that are in no item. -/
def renderItems (values : Dict PyStr PyStr) : List PyStr → List PyStr →
    Except PyError (List PyStr)
  | [], seen => .ok ((values.filter fun entry => entry.1 ∉ seen).map fun entry =>
    envText entry.1 entry.2)
  | item :: rest, seen =>
    if keyPrefix <+: item then
      let key := item.drop keyPrefix.length
      if key ∈ seen then renderItems values rest seen
      else
        match values.get? key with
        | none => .error (.keyError key)
        | some value => (renderItems values rest (key :: seen)).map (envText key value :: ·)
    else (renderItems values rest seen).map (item :: ·)

/-- `merge_env_file`: the text that is written. -/
def mergeEnvFile (existing : PyStr) (updates : Dict PyStr PyStr) (overwrite : Bool) :
    Except PyError PyStr :=
  let table := updates.foldl (applyUpdate overwrite) (parseEnvLines existing)
  (renderItems table.2 table.1 []).bind fun lines =>
    let payload := textOfLines lines
    if Encodable payload then .ok payload else .error .unicodeEncodeError

example : mergeEnvFile (py "LLM_API_KEY=keep-me\nFOO=1\n")
    [(py "FOO", py "2"), (py "LLM_API_KEY", py "new")] false =
      .ok (py "LLM_API_KEY=keep-me\nFOO=2\n") := by
  decide +kernel

/-! ## What a line holds -/

/-- A key that is read from a line. -/
structure IsEnvKey (key : PyStr) : Prop where
  noEquals : equalsSign ∉ key
  stripped : strip key = key
  noComment : key.head? ≠ some hashSign

/-- A value that is read from a line, or written to one. -/
def EndsPlain (value : PyStr) : Prop :=
  ∀ c ∈ value.getLast?, isSpace c = false

section EnvLine

variable {line key value : PyStr}

theorem envLine_parts (hline : envLine line = some (key, value)) :
    (strip line).head? ≠ some hashSign ∧
      key = strip ((strip line).takeWhile (· ≠ equalsSign)) ∧
      (strip line).dropWhile (· ≠ equalsSign) = equalsSign :: value := by
  rw [envLine] at hline
  by_cases hempty : strip line = [] ∨ (strip line).head? = some hashSign
  · rw [if_pos hempty] at hline
    cases hline
  · rw [if_neg hempty] at hline
    by_cases hnone : equalsSign ∉ strip line
    · rw [if_pos hnone] at hline
      cases hline
    · rw [if_neg hnone, Option.some_inj, Prod.mk.injEq] at hline
      refine ⟨fun h => hempty (Or.inr h), hline.1.symm, ?_⟩
      have hmem := @mem_dropWhile_of_mem _ (fun c => decide (c ≠ equalsSign)) _
        (not_not.mp hnone) (by simp)
      cases hdrop : (strip line).dropWhile (· ≠ equalsSign) with
      | nil => rw [hdrop] at hmem; cases hmem
      | cons c rest =>
        have hhead := List.head_dropWhile_not (fun c => decide (c ≠ equalsSign))
          (l := strip line) (by rw [hdrop]; exact List.cons_ne_nil c rest)
        rw [hdrop] at hline
        simp only [hdrop, List.head_cons, decide_eq_false_iff_not, not_not] at hhead
        rw [hhead, ← hline.2, List.tail_cons]

theorem isEnvKey_of_envLine (hline : envLine line = some (key, value)) : IsEnvKey key := by
  obtain ⟨hcomment, hkey, _⟩ := envLine_parts hline
  refine ⟨fun hmem => ?_, ?_, fun hhead => hcomment ?_⟩
  · rw [hkey] at hmem
    have hinside := (stripBy_sublist isSpace _).subset hmem
    exact absurd (List.mem_takeWhile_imp hinside) (by simp)
  · rw [hkey]
    exact stripBy_idem isSpace _
  · -- nothing is stripped in front of the key
    have hfront : key <+: (strip line).takeWhile (· ≠ equalsSign) := by
      have hkept : ((strip line).takeWhile (· ≠ equalsSign)).dropWhile isSpace =
          (strip line).takeWhile (· ≠ equalsSign) := by
        cases htake : (strip line).takeWhile (· ≠ equalsSign) with
        | nil => rfl
        | cons c rest =>
          have hc : (strip line).head? = some c := by
            have hprefix := List.takeWhile_prefix (fun c => decide (c ≠ equalsSign))
              (l := strip line)
            rw [htake] at hprefix
            obtain ⟨tail, htail⟩ := hprefix
            rw [← htail]
            rfl
          have hplain := head_of_stripBy_eq_self (stripBy_idem isSpace line) c hc
          exact List.dropWhile_cons_of_neg (by rw [hplain]; simp)
      rw [hkey, strip, stripBy, hkept]
      exact List.rdropWhile_prefix isSpace _
    obtain ⟨tail, htail⟩ := hfront.trans (List.takeWhile_prefix _)
    rw [← htail]
    cases key with
    | nil => cases hhead
    | cons c rest => exact hhead

theorem endsPlain_of_envLine (hline : envLine line = some (key, value)) : EndsPlain value := by
  obtain ⟨_, _, hdrop⟩ := envLine_parts hline
  intro c hc
  have hends : (strip line).getLast? = some c := by
    rw [← List.takeWhile_append_dropWhile (p := fun c => decide (c ≠ equalsSign))
      (l := strip line), hdrop]
    cases value with
    | nil => cases hc
    | cons d rest =>
      rw [List.getLast?_append_of_ne_nil _ (List.cons_ne_nil _ _), List.getLast?_cons_cons]
      exact hc
  exact last_of_stripBy_eq_self (stripBy_idem isSpace line) c hends

theorem mem_line_of_mem_key (hline : envLine line = some (key, value)) {c : CodePoint}
    (hc : c ∈ key) : c ∈ line := by
  rw [(envLine_parts hline).2.1] at hc
  exact (stripBy_sublist isSpace line).subset
    ((List.takeWhile_sublist _).subset ((stripBy_sublist isSpace _).subset hc))

theorem mem_line_of_mem_value (hline : envLine line = some (key, value)) {c : CodePoint}
    (hc : c ∈ value) : c ∈ line := by
  have hdrop := (envLine_parts hline).2.2
  have hmem : c ∈ (strip line).dropWhile (· ≠ equalsSign) := by
    rw [hdrop]
    exact List.mem_cons_of_mem _ hc
  exact (stripBy_sublist isSpace line).subset ((List.dropWhile_sublist _).subset hmem)

theorem strip_envText (hkey : IsEnvKey key) (hvalue : EndsPlain value) :
    strip (envText key value) = envText key value := by
  apply stripBy_eq_self
  · intro c hc
    cases key with
    | nil =>
      rw [← Option.some.inj hc]
      decide
    | cons d rest => exact head_of_stripBy_eq_self hkey.stripped c hc
  · intro c hc
    rw [envText, List.getLast?_append] at hc
    cases hlast : value.getLast? with
    | some d =>
      rw [hlast, Option.some_or] at hc
      exact hvalue c (hlast.trans hc)
    | none =>
      rw [hlast, Option.none_or, List.getLast?_concat] at hc
      rw [← Option.some.inj hc]
      decide

/-- A key and a value are read back from the line that is written for them. -/
theorem envLine_envText (hkey : IsEnvKey key) (hvalue : EndsPlain value) :
    envLine (envText key value) = some (key, value) := by
  have hne : envText key value ≠ [] := by simp [envText]
  have hhead : (envText key value).head? ≠ some hashSign := by
    cases key with
    | nil => exact fun h => absurd (Option.some.inj h) (by decide)
    | cons c rest => exact hkey.noComment
  have hequals : equalsSign ∈ envText key value := by simp [envText]
  have hall : ∀ c ∈ key, decide (c ≠ equalsSign) = true := fun c hc =>
    decide_eq_true fun heq => hkey.noEquals (heq ▸ hc)
  rw [envLine, strip_envText hkey hvalue]
  rw [if_neg (not_or.mpr ⟨hne, hhead⟩), if_neg (not_not.mpr hequals), envText, List.append_assoc,
    List.takeWhile_append_of_pos hall, List.dropWhile_append_of_pos hall]
  simp [hkey.stripped]

end EnvLine

/-! ## The items of a file -/

/-- The item that stands for a line. -/
def markerOf (line : PyStr) : PyStr :=
  match envLine line with
  | none => line
  | some (key, _) => keyMarker key

/-- What the lines say about the keys; a later line wins. -/
def lineValues (lines : List PyStr) : Dict PyStr PyStr :=
  Dict.update [] (lines.filterMap envLine)

def envValues (text : PyStr) : Dict PyStr PyStr :=
  lineValues (splitLines text)

theorem parseEnvLines_eq (text : PyStr) :
    parseEnvLines text = ((splitLines text).map markerOf, envValues text) := by
  have hall : ∀ (lines : List PyStr) (table : EnvTable), lines.foldl parseLine table =
      (table.1 ++ lines.map markerOf, Dict.update table.2 (lines.filterMap envLine)) := by
    intro lines
    induction lines with
    | nil => intro table; simp [Dict.update]
    | cons line lines ih =>
      intro table
      rw [List.foldl_cons, ih, List.map_cons, List.append_cons table.1]
      cases hline : envLine line with
      | none => simp only [parseLine, markerOf, hline, List.filterMap_cons]
      | some entry =>
        simp only [parseLine, markerOf, hline, List.filterMap_cons]
        rfl
  rw [parseEnvLines, hall]
  rfl

theorem nodup_keys_lineValues (lines : List PyStr) : (lineValues lines).keys.Nodup :=
  @Dict.nodup_keys_update _ _ _ [] List.nodup_nil _

theorem mem_keys_lineValues {lines : List PyStr} {key : PyStr} :
    key ∈ (lineValues lines).keys ↔ ∃ line ∈ lines, ∃ value, envLine line = some (key, value) := by
  rw [lineValues, Dict.mem_keys_update]
  apply Iff.intro
  · intro hmem
    rcases hmem with hold | hnew
    · cases hold
    · obtain ⟨entry, hentry, rfl⟩ := List.mem_map.mp hnew
      obtain ⟨line, hline, hread⟩ := List.mem_filterMap.mp hentry
      exact ⟨line, hline, entry.2, hread⟩
  · rintro ⟨line, hline, value, hread⟩
    exact Or.inr (List.mem_map.mpr ⟨(key, value), List.mem_filterMap.mpr ⟨line, hline, hread⟩, rfl⟩)

theorem exists_line_of_get? {lines : List PyStr} {key value : PyStr}
    (hget : (lineValues lines).get? key = some value) :
    ∃ line ∈ lines, envLine line = some (key, value) := by
  rw [lineValues, Dict.get?_update, Dict.get?_nil, Option.or_none] at hget
  have hentry := Dict.mem_of_get? hget
  rw [List.mem_reverse, List.mem_filterMap] at hentry
  exact hentry

end RootSeeker.Setup
