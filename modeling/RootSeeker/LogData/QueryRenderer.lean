import RootSeeker.SkillSystem.EnvResolver

/-!
# Placeholders

A template and a playbook name their values by placeholders. The names are replaced one after
another, each in the text that the names before it left.
-/

namespace RootSeeker.LogData

open Python Replacement SkillSystem

def queryPlaceholder (name : PyStr) : PyStr :=
  py "\x7b\x7b" ++ name ++ py "\x7d\x7d"

def renderQueryTemplate (templateBody : PyStr) (parameters : Dict PyStr PyStr) : PyStr :=
  parameters.foldl (fun rendered entry => replaceAll (queryPlaceholder entry.1) entry.2 rendered)
    templateBody

/-- A map: no name comes twice. -/
abbrev NameValues := {entries : Dict PyStr PyStr // entries.keys.Nodup}

/-! ## The text as characters and placeholders -/

inductive Piece where
  | char (c : CodePoint)
  | slot (name : PyStr)
  deriving DecidableEq

section Pieces

variable (placeholder : PyStr → PyStr)

/-- The pieces of a text from left to right, after some characters to be passed. -/
def piecesFrom (names : List PyStr) : ℕ → PyStr → List Piece
  | _, [] => []
  | skip + 1, _ :: rest => piecesFrom names skip rest
  | 0, c :: rest =>
    match names.find? fun name => placeholder name <+: c :: rest with
    | some name => .slot name :: piecesFrom names ((placeholder name).length - 1) rest
    | none => .char c :: piecesFrom names 0 rest

/-- Values for some of the names; the other placeholders stay. -/
def fill (entries : Dict PyStr PyStr) : Piece → PyStr
  | .char c => [c]
  | .slot name => (entries.get? name).getD (placeholder name)

/-- The text with the placeholders of these names replaced and nothing else. -/
def filled (names : List PyStr) (entries : Dict PyStr PyStr) (text : PyStr) : PyStr :=
  (piecesFrom placeholder names 0 text).flatMap (fill placeholder entries)

/-- The same text with marks in the places of one name. -/
def markPiece (entries : Dict PyStr PyStr) (name : PyStr) (piece : Piece) :
    List (Option CodePoint) :=
  if piece = .slot name then [none] else (fill placeholder entries piece).map some

def slotMarks (names : List PyStr) (entries : Dict PyStr PyStr) (name text : PyStr) :
    List (Option CodePoint) :=
  (piecesFrom placeholder names 0 text).flatMap (markPiece placeholder entries name)

/-- After every name the text is the given one with the placeholders of the names so far
replaced and nothing else. -/
def Simultaneous (run : PyStr → Dict PyStr PyStr → PyStr) (entries : Dict PyStr PyStr)
    (text : PyStr) : Prop :=
  ∀ before after, entries = before ++ after →
    run text before = filled placeholder entries.keys before text

/-- In the text with the earlier names replaced, the placeholder of each name is found in its
own places only, or its value is the placeholder. -/
def FoundInPlace (entries : Dict PyStr PyStr) (text : PyStr) : Prop :=
  ∀ before name value after, entries = before ++ (name, value) :: after →
    value = placeholder name ∨
      mark (placeholder name) (filled placeholder entries.keys before text) =
        slotMarks placeholder entries.keys before name text

variable {placeholder}

theorem piecesFrom_eq_drop (names : List PyStr) (skip : ℕ) (text : PyStr) :
    piecesFrom placeholder names skip text = piecesFrom placeholder names 0 (text.drop skip) := by
  induction text generalizing skip with
  | nil => rw [List.drop_nil]; cases skip <;> rfl
  | cons c rest ih =>
    cases skip with
    | zero => rfl
    | succ skip => rw [piecesFrom, ih, List.drop_succ_cons]

/-- Without values the text is as it was. -/
theorem filled_nil (hne : ∀ name, placeholder name ≠ []) (names : List PyStr) (text : PyStr) :
    filled placeholder names [] text = text := by
  induction hlength : text.length using Nat.strongRecOn generalizing text with
  | ind size ih =>
    cases text with
    | nil => rfl
    | cons c rest =>
      rw [filled, piecesFrom]
      cases hfound : names.find? fun name => placeholder name <+: c :: rest with
      | none =>
        simp only []
        rw [List.flatMap_cons]
        change c :: filled placeholder names [] rest = _
        rw [ih rest.length (by simp [← hlength]) rest rfl]
      | some name =>
        have hbegins : placeholder name <+: c :: rest := by
          simpa using List.find?_some hfound
        obtain ⟨tail, htail⟩ := hbegins
        have hsizes := congrArg List.length htail
        have hpos := List.length_pos_iff.mpr (hne name)
        rw [List.length_append] at hsizes
        have hdrop : rest.drop ((placeholder name).length - 1) = tail := by
          have hcut := congrArg (List.drop (placeholder name).length) htail
          rw [List.drop_left, ← Nat.sub_add_cancel hpos, List.drop_succ_cons] at hcut
          exact hcut.symm
        simp only []
        rw [List.flatMap_cons, piecesFrom_eq_drop, hdrop]
        change placeholder name ++ filled placeholder names [] tail = _
        rw [ih tail.length (by omega) tail rfl, htail]

section Marks

variable {entries : Dict PyStr PyStr} {name : PyStr} (hnew : entries.get? name = none)

include hnew

theorem expand_slotMarks (names : List PyStr) (text : PyStr) :
    expand (placeholder name) (slotMarks placeholder names entries name text) =
      filled placeholder names entries text := by
  rw [filled, slotMarks]
  induction piecesFrom placeholder names 0 text with
  | nil => rfl
  | cons piece pieces ih =>
    rw [List.flatMap_cons, List.flatMap_cons, expand_append, ih, markPiece]
    by_cases hslot : piece = .slot name
    · rw [if_pos hslot, hslot, fill, hnew]
      simp
    · rw [if_neg hslot, expand_map_some]

theorem expand_slotMarks_value (value : PyStr) (names : List PyStr) (text : PyStr) :
    expand value (slotMarks placeholder names entries name text) =
      filled placeholder names (entries ++ [(name, value)]) text := by
  rw [filled, slotMarks]
  induction piecesFrom placeholder names 0 text with
  | nil => rfl
  | cons piece pieces ih =>
    rw [List.flatMap_cons, List.flatMap_cons, expand_append, ih, markPiece]
    by_cases hslot : piece = .slot name
    · rw [if_pos hslot, hslot, fill, Dict.get?_append, hnew, Option.none_or]
      simp [Dict.get?]
    · rw [if_neg hslot, expand_map_some]
      cases piece with
      | char c => rfl
      | slot other =>
        have hother : name ≠ other := fun heq => hslot (by rw [heq])
        rw [fill, fill, Dict.get?_append, Dict.get?, if_neg hother, Dict.get?_nil, Option.or_none]

end Marks

/-! ## One name after another -/

variable {run : PyStr → Dict PyStr PyStr → PyStr} {text : PyStr} {entries : Dict PyStr PyStr}

/-- A run that replaces the placeholders one name after another. -/
structure ReplacesInTurn (placeholder : PyStr → PyStr)
    (run : PyStr → Dict PyStr PyStr → PyStr) : Prop where
  nil : ∀ text, run text [] = text
  append : ∀ text before name value, run text (before ++ [(name, value)]) =
    replaceAll (placeholder name) value (run text before)

theorem get?_before (hnodup : entries.keys.Nodup) {before after : Dict PyStr PyStr}
    {name value : PyStr} (hsplit : entries = before ++ (name, value) :: after) :
    before.get? name = none := by
  rw [hsplit, Dict.keys, List.map_append, List.map_cons] at hnodup
  rw [← Option.not_isSome_iff_eq_none, ← Dict.mem_keys_iff]
  intro hmem
  exact (List.nodup_append.mp hnodup).2.2 _ hmem _ List.mem_cons_self rfl

theorem simultaneous_of_foundInPlace (hturn : ReplacesInTurn placeholder run)
    (hne : ∀ name, placeholder name ≠ []) (hnodup : entries.keys.Nodup)
    (hplace : FoundInPlace placeholder entries text) :
    Simultaneous placeholder run entries text := by
  intro before
  induction before using List.reverseRecOn with
  | nil =>
    intro after _
    rw [hturn.nil, filled_nil hne]
  | append_singleton before entry ih =>
    intro after hsplit
    rw [List.append_assoc, List.singleton_append] at hsplit
    have hnew := get?_before hnodup hsplit
    rw [hturn.append, ih _ hsplit, ← expand_slotMarks_value hnew]
    rcases hplace before entry.1 entry.2 after hsplit with hsame | hmark
    · rw [hsame, replaceAll_self (hne entry.1), expand_slotMarks hnew]
    · rw [replaceAll, hmark]

theorem foundInPlace_of_simultaneous (hturn : ReplacesInTurn placeholder run)
    (hne : ∀ name, placeholder name ≠ []) (hnodup : entries.keys.Nodup)
    (hunbordered : ∀ name ∈ entries.keys, Unbordered (placeholder name))
    (hsimultaneous : Simultaneous placeholder run entries text) :
    FoundInPlace placeholder entries text := by
  intro before name value after hsplit
  have hnew := get?_before hnodup hsplit
  have hbefore := hsimultaneous before _ hsplit
  have hafter := hsimultaneous (before ++ [(name, value)]) after (by rw [hsplit]; simp)
  rw [hturn.append, hbefore, ← expand_slotMarks_value hnew, ← expand_slotMarks hnew] at hafter
  have hname : name ∈ entries.keys := by
    rw [hsplit, Dict.keys, List.map_append, List.map_cons]
    exact List.mem_append_right _ List.mem_cons_self
  rw [← expand_slotMarks hnew]
  exact (replaceAll_expand_iff (hunbordered name hname) (hne name)).mp hafter

end Pieces

/-! ## The two functions -/

theorem renderQueryTemplate_inTurn : ReplacesInTurn queryPlaceholder renderQueryTemplate where
  nil _ := rfl
  append text before name value := by
    rw [renderQueryTemplate, List.foldl_append]
    rfl

theorem substituteNonSecret_inTurn : ReplacesInTurn envPlaceholder substituteNonSecret where
  nil _ := rfl
  append text before name value := by
    rw [substituteNonSecret, List.foldl_append]
    rfl

theorem queryPlaceholder_ne_nil (name : PyStr) : queryPlaceholder name ≠ [] := by
  simp [queryPlaceholder, py]

theorem envPlaceholder_ne_nil (name : PyStr) : envPlaceholder name ≠ [] := by
  simp [envPlaceholder, py]

def openBrace : CodePoint := CodePoint.ofChar '\x7b'

def dollarSign : CodePoint := CodePoint.ofChar '$'

theorem queryPlaceholder_unbordered {name : PyStr} (hname : openBrace ∉ name) :
    Unbordered (queryPlaceholder name) := by
  have hshape : queryPlaceholder name = openBrace :: openBrace :: (name ++ py "\x7d\x7d") := by
    have hopen : py "\x7b\x7b" = [openBrace, openBrace] := by decide
    rw [queryPlaceholder, hopen]
    rfl
  rw [hshape]
  apply unbordered_of_pair
  · intro hmem
    exact (List.mem_append.mp hmem).elim hname (by decide)
  · simp [py]

theorem envPlaceholder_unbordered {name : PyStr} (hname : dollarSign ∉ name) :
    Unbordered (envPlaceholder name) := by
  have hshape : envPlaceholder name = dollarSign :: (openBrace :: name ++ py "\x7d") := by
    have hopen : py "$\x7b" = [dollarSign, openBrace] := by decide
    rw [envPlaceholder, hopen]
    rfl
  rw [hshape]
  apply unbordered_of_head
  intro hmem
  cases List.mem_append.mp hmem with
  | inl hbegins =>
    cases List.mem_cons.mp hbegins with
    | inl hbrace => exact absurd hbrace (by decide)
    | inr hinside => exact hname hinside
  | inr hends => exact absurd hends (by decide)

/-- Names one after another do the same as all at once when each placeholder is found in its own
places only; for names without the character that opens a placeholder, only then. -/
theorem substitution_simultaneous_iff (text : PyStr) (parameters : NameValues) :
    ((FoundInPlace queryPlaceholder parameters.val text →
        Simultaneous queryPlaceholder renderQueryTemplate parameters.val text) ∧
      ((∀ name ∈ parameters.val.keys, openBrace ∉ name) →
        (Simultaneous queryPlaceholder renderQueryTemplate parameters.val text ↔
          FoundInPlace queryPlaceholder parameters.val text))) ∧
    ((FoundInPlace envPlaceholder parameters.val text →
        Simultaneous envPlaceholder substituteNonSecret parameters.val text) ∧
      ((∀ name ∈ parameters.val.keys, dollarSign ∉ name) →
        (Simultaneous envPlaceholder substituteNonSecret parameters.val text ↔
          FoundInPlace envPlaceholder parameters.val text))) := by
  have hquery := @simultaneous_of_foundInPlace _ _ text _ renderQueryTemplate_inTurn
    queryPlaceholder_ne_nil parameters.property
  have henv := @simultaneous_of_foundInPlace _ _ text _ substituteNonSecret_inTurn
    envPlaceholder_ne_nil parameters.property
  refine ⟨⟨hquery, fun hnames => ⟨fun hsame => ?_, hquery⟩⟩, ⟨henv, fun hnames => ⟨fun hsame => ?_,
    henv⟩⟩⟩
  · exact foundInPlace_of_simultaneous renderQueryTemplate_inTurn queryPlaceholder_ne_nil
      parameters.property (fun name hname => queryPlaceholder_unbordered (hnames name hname)) hsame
  · exact foundInPlace_of_simultaneous substituteNonSecret_inTurn envPlaceholder_ne_nil
      parameters.property (fun name hname => envPlaceholder_unbordered (hnames name hname)) hsame

/-- The value of the first name is replaced again, so the order of the names matters. -/
theorem value_is_replaced_again :
    renderQueryTemplate (py "\x7b\x7ba\x7d\x7d")
        [(py "a", py "\x7b\x7bb\x7d\x7d"), (py "b", py "x")] = py "x" ∧
      renderQueryTemplate (py "\x7b\x7ba\x7d\x7d")
        [(py "b", py "x"), (py "a", py "\x7b\x7bb\x7d\x7d")] = py "\x7b\x7bb\x7d\x7d" ∧
      filled queryPlaceholder [py "a", py "b"]
        [(py "a", py "\x7b\x7bb\x7d\x7d"), (py "b", py "x")] (py "\x7b\x7ba\x7d\x7d") =
          py "\x7b\x7bb\x7d\x7d" := by
  decide

end RootSeeker.LogData
