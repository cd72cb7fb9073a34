import RootSeeker.Python.Json

/-!
# What the log keeps of a payload

The values under sensitive keys, the blocks of keys and certificates inside texts
and the longer texts that speak of tokens or secrets are replaced before a payload
is recorded.
-/

namespace RootSeeker.Observability

open Python

/-! ## Blocks -/

/-- The class `[A-Z ]`. -/
def isLabel (c : CodePoint) : Bool :=
  0x41 ≤ c.val ∧ c.val ≤ 0x5A ∨ c.val = 0x20

def dashes : PyStr := py "-----"

/-- What follows a line such as `-----BEGIN [A-Z ]+-----` at the start of the text. -/
def afterMarker (opening text : PyStr) : Option PyStr :=
  if opening <+: text then
    let label := (text.drop opening.length).takeWhile isLabel
    let rest := (text.drop opening.length).dropWhile isLabel
    if label ≠ [] ∧ dashes <+: rest then some (rest.drop dashes.length) else none
  else none

def beginning : PyStr := py "-----BEGIN "

def ending : PyStr := py "-----END "

/-- What follows the first end of a block. -/
def afterEnd : PyStr → Option PyStr
  | [] => none
  | c :: rest => (afterMarker ending (c :: rest)).or (afterEnd rest)

/-- What follows a match of `_PEM_RE` at the start of the text. -/
def afterPem (text : PyStr) : Option PyStr :=
  (afterMarker beginning text).bind afterEnd

def pemMask : PyStr := py "[REDACTED_PEM]"

/-- `_PEM_RE.sub`.  The count is that of the characters of a match still to be passed. -/
def redactPemFrom : ℕ → PyStr → PyStr
  | _, [] => []
  | skip + 1, _ :: rest => redactPemFrom skip rest
  | 0, c :: rest =>
    match afterPem (c :: rest) with
    | some after => pemMask ++ redactPemFrom (rest.length - after.length) rest
    | none => c :: redactPemFrom 0 rest

def redactPem (text : PyStr) : PyStr :=
  redactPemFrom 0 text

/-- `-----BEGIN `, a label and dashes, and the same with `-----END `. -/
def marker (opening label : PyStr) : PyStr :=
  opening ++ label ++ dashes

/-- A text that may stand between the two parts of a marker. -/
def IsLabel (label : PyStr) : Prop :=
  label ≠ [] ∧ ∀ c ∈ label, isLabel c = true

variable {opening text after label : PyStr} {c : CodePoint}

theorem afterMarker_eq_some_iff :
    afterMarker opening text = some after ↔
      ∃ label, IsLabel label ∧ text = marker opening label ++ after := by
  constructor
  · intro hafter
    rw [afterMarker] at hafter
    split at hafter
    · next hopening =>
      dsimp only at hafter
      split at hafter
      · next hlabel =>
        obtain ⟨body, rfl⟩ := hopening
        rw [List.drop_left] at hafter hlabel
        refine ⟨body.takeWhile isLabel, ⟨hlabel.1, fun c hc => List.mem_takeWhile_imp hc⟩, ?_⟩
        obtain ⟨rest, hrest⟩ := hlabel.2
        rw [← hrest, List.drop_left] at hafter
        rw [← Option.some.inj hafter, marker, List.append_assoc, List.append_assoc, hrest,
          List.takeWhile_append_dropWhile]
      · cases hafter
    · cases hafter
  · rintro ⟨label, hlabel, rfl⟩
    have htake : (label ++ (dashes ++ after)).takeWhile isLabel = label := by
      rw [List.takeWhile_append_of_pos hlabel.2]
      exact List.append_nil label
    have hdrop : (label ++ (dashes ++ after)).dropWhile isLabel = dashes ++ after := by
      rw [List.dropWhile_append_of_pos hlabel.2]
      rfl
    rw [marker, List.append_assoc, List.append_assoc, afterMarker,
      if_pos (List.prefix_append _ _), List.drop_left]
    dsimp only
    rw [htake, hdrop, if_pos ⟨hlabel.1, List.prefix_append _ _⟩, List.drop_left]

theorem afterPem_cons_of_ne (hc : c ≠ 0x2D) (rest : PyStr) : afterPem (c :: rest) = none := by
  cases hafter : afterMarker beginning (c :: rest) with
  | none => rw [afterPem, hafter, Option.bind_none]
  | some after =>
    obtain ⟨label, _, htext⟩ := afterMarker_eq_some_iff.mp hafter
    exact absurd (Option.some.inj (congrArg List.head? htext)) hc

theorem afterEnd_of_suffix {rest : PyStr} (hnone : afterEnd text = none) (hrest : rest <:+ text) :
    afterEnd rest = none := by
  induction text with
  | nil => rwa [List.suffix_nil.mp hrest]
  | cons c tail ih =>
    rcases List.suffix_cons_iff.mp hrest with rfl | htail
    · exact hnone
    · rw [afterEnd, Option.or_eq_none_iff] at hnone
      exact ih hnone.2 htail

/-- A block: its two markers and what stands between them. -/
def HasPem (text : PyStr) : Prop :=
  ∃ opened body closed, IsLabel opened ∧ IsLabel closed ∧
    marker beginning opened ++ (body ++ marker ending closed) <:+: text

/-- No block starts in the text. -/
def Clean (text : PyStr) : Prop :=
  ∀ rest, rest <:+ text → afterPem rest = none

theorem Clean.not_hasPem (hclean : Clean text) : ¬HasPem text := by
  rintro ⟨opened, body, closed, hopened, hclosed, before, rest, htext⟩
  have hpem := hclean (marker beginning opened ++ (body ++ marker ending closed ++ rest))
    ⟨before, by rw [← htext]; simp only [List.append_assoc]⟩
  rw [afterPem, afterMarker_eq_some_iff.mpr ⟨opened, hopened, rfl⟩, Option.bind_some] at hpem
  rw [List.append_assoc] at hpem
  have hend := afterEnd_of_suffix hpem (List.suffix_append body _)
  have hmarker : afterMarker ending (marker ending closed ++ rest) = some rest :=
    afterMarker_eq_some_iff.mpr ⟨closed, hclosed, rfl⟩
  rw [afterEnd.eq_def] at hend
  split at hend
  · next hnil => exact absurd (congrArg List.head? hnil) (Option.some_ne_none 0x2D)
  · next htail => simp [← htail, hmarker] at hend

theorem clean_cons_iff {rest : PyStr} :
    Clean (c :: rest) ↔ afterPem (c :: rest) = none ∧ Clean rest := by
  simp only [Clean, List.suffix_cons_iff, forall_eq_or_imp]

theorem clean_append {mask rest : PyStr} (hdash : 0x2D ∉ mask) (hrest : Clean rest) :
    Clean (mask ++ rest) := by
  induction mask with
  | nil => exact hrest
  | cons c tail ih =>
    rw [List.mem_cons, not_or] at hdash
    exact clean_cons_iff.mpr ⟨afterPem_cons_of_ne (Ne.symm hdash.1) _, ih hdash.2⟩

theorem redactPem_cons {rest : PyStr} (hnone : afterPem (c :: rest) = none) :
    redactPem (c :: rest) = c :: redactPem rest := by
  rw [redactPem, redactPemFrom, hnone, redactPem]

theorem Clean.redactPem_eq (hclean : Clean text) : redactPem text = text := by
  induction text with
  | nil => rfl
  | cons c rest ih =>
    obtain ⟨hnone, hrest⟩ := clean_cons_iff.mp hclean
    rw [redactPem_cons hnone, ih hrest]

/-- Without the end of a block there is no block. -/
theorem clean_of_afterEnd (hnone : afterEnd text = none) : Clean text := by
  intro rest hrest
  cases hafter : afterMarker beginning rest with
  | none => rw [afterPem, hafter, Option.bind_none]
  | some after =>
    obtain ⟨label, _, rfl⟩ := afterMarker_eq_some_iff.mp hafter
    rw [afterPem, hafter, Option.bind_some]
    exact afterEnd_of_suffix hnone ((List.suffix_append _ _).trans hrest)

/-- What stands before the first mask was there before. -/
theorem exists_of_redactPem_eq {kept rest : PyStr} (hkept : 0x5B ∉ kept)
    (hredact : redactPem text = kept ++ rest) :
    ∃ tail, text = kept ++ tail ∧ rest = redactPem tail := by
  induction kept generalizing text with
  | nil => exact ⟨text, rfl, hredact.symm⟩
  | cons d kept ih =>
    cases text with
    | nil => cases hredact
    | cons c tail =>
      rw [List.mem_cons, not_or] at hkept
      cases hafter : afterPem (c :: tail) with
      | some after =>
        rw [redactPem, redactPemFrom, hafter] at hredact
        exact absurd (Option.some.inj (congrArg List.head? hredact)) hkept.1
      | none =>
        rw [redactPem_cons hafter, List.cons_append, List.cons.injEq] at hredact
        obtain ⟨rest', htail, hrest⟩ := ih hkept.2 hredact.2
        exact ⟨rest', by rw [hredact.1, htail, List.cons_append], hrest⟩

theorem bracket_not_mem_marker (hlabel : IsLabel label) : 0x5B ∉ marker beginning label := by
  simp only [marker, List.mem_append, not_or]
  refine ⟨⟨by decide, ?_⟩, by decide⟩
  exact fun hmem => absurd (hlabel.2 _ hmem) (by decide)

/-- A marker before which nothing was replaced stood in the text, so an end behind it would have
made a block. -/
theorem clean_redactPemFrom (skip : ℕ) (text : PyStr) : Clean (redactPemFrom skip text) := by
  fun_induction redactPemFrom skip text with
  | case1 skip =>
    intro rest hrest
    rw [List.suffix_nil.mp hrest]
    rfl
  | case2 skip c rest ih => exact ih
  | case3 c rest after hafter ih => exact clean_append (by decide) ih
  | case4 c rest hnone ih =>
    refine clean_cons_iff.mpr ⟨?_, ih⟩
    cases hafter : afterMarker beginning (c :: redactPemFrom 0 rest) with
    | none => rw [afterPem, hafter, Option.bind_none]
    | some after =>
      obtain ⟨label, hlabel, htext⟩ := afterMarker_eq_some_iff.mp hafter
      rw [← redactPem, ← redactPem_cons hnone] at htext
      obtain ⟨tail, hsource, hredact⟩ :=
        exists_of_redactPem_eq (bracket_not_mem_marker hlabel) htext
      rw [hsource, afterPem, afterMarker_eq_some_iff.mpr ⟨label, hlabel, rfl⟩,
        Option.bind_some] at hnone
      rw [(clean_of_afterEnd hnone).redactPem_eq] at hredact
      rw [afterPem, hafter, Option.bind_some, hredact, hnone]

/-! ## Payloads -/

def sensitiveKeys : List PyStr :=
  [py "token", py "secret", py "password", py "api_key", py "authorization"]

def mask : PyStr := py "[REDACTED]"

section Payloads

variable (std : Stdlib)

def speaksOfSecrets (text : PyStr) : Bool :=
  py "token" <:+: lower std text ∨ py "secret" <:+: lower std text

/-- `redact_value` of a text. -/
def redactText (text : PyStr) : PyStr :=
  if 8 < (redactPem text).length ∧ speaksOfSecrets std (redactPem text) then mask
  else redactPem text

mutual

def redactValue : Json → Json
  | .str text => .str (redactText std text)
  | .obj fields => .obj (redactPayload fields)
  | .arr items => .arr (redactItems items)
  | value => value

def redactItems : List Json → List Json
  | [] => []
  | value :: rest => redactValue value :: redactItems rest

def redactPayload : List (PyStr × Json) → List (PyStr × Json)
  | [] => []
  | (key, value) :: rest =>
    (key, if lower std key ∈ sensitiveKeys then .str mask else redactValue value) ::
      redactPayload rest

end

structure LogRecord where
  level : PyStr
  event : PyStr
  payload : Fields

inductive LogCall where
  | info (event : PyStr) (payload : Fields)
  | error (event : PyStr) (payload : Fields)

/-- `StructuredLogger`: the records after a call. -/
def StructuredLogger.call (records : List LogRecord) : LogCall → List LogRecord
  | .info event payload => records ++ [⟨py "info", event, redactPayload std payload⟩]
  | .error event payload => records ++ [⟨py "error", event, redactPayload std payload⟩]

/-- A value at any depth of another one. -/
inductive Within : Json → Json → Prop
  | self (value : Json) : Within value value
  | item {inner value : Json} {items : List Json} (hitem : value ∈ items)
      (hinner : Within inner value) : Within inner (.arr items)
  | field {inner : Json} {entry : PyStr × Json} {fields : List (PyStr × Json)}
      (hentry : entry ∈ fields) (hinner : Within inner entry.2) : Within inner (.obj fields)

/-- A text has no block and speaks of no secret unless it is short, and what is under a
sensitive key is masked. -/
def Hides : Json → Prop
  | .str text => ¬HasPem text ∧ (8 < text.length → speaksOfSecrets std text = false)
  | .obj fields => ∀ entry ∈ fields, lower std entry.1 ∈ sensitiveKeys → entry.2 = .str mask
  | _ => True

variable {std}

theorem redactItems_eq (items : List Json) :
    redactItems std items = items.map (redactValue std) := by
  induction items with
  | nil => rw [redactItems, List.map_nil]
  | cons value rest ih => rw [redactItems, ih, List.map_cons]

/-- What is kept of an entry. -/
def redactEntry (std : Stdlib) (entry : PyStr × Json) : PyStr × Json :=
  (entry.1, if lower std entry.1 ∈ sensitiveKeys then .str mask else redactValue std entry.2)

theorem redactPayload_eq (fields : Fields) :
    redactPayload std fields = fields.map (redactEntry std) := by
  induction fields with
  | nil => rw [redactPayload, List.map_nil]
  | cons entry rest ih => rw [redactPayload, ih, List.map_cons, redactEntry]

theorem speaksOfSecrets_mask : speaksOfSecrets std mask = false := by
  have hlower : lower std mask = py "[redacted]" := rfl
  rw [speaksOfSecrets, hlower]
  decide

theorem hides_mask : Hides std (.str mask) :=
  ⟨Clean.not_hasPem (clean_of_afterEnd (by decide)), fun _ => speaksOfSecrets_mask⟩

theorem hides_redactText (text : PyStr) : Hides std (.str (redactText std text)) := by
  rw [redactText]
  split
  · exact hides_mask
  · next hkept =>
    refine ⟨(clean_redactPemFrom 0 text).not_hasPem, fun hlong => ?_⟩
    exact Bool.eq_false_of_not_eq_true fun hspeaks => hkept ⟨hlong, hspeaks⟩

theorem hides_of_within {value inner : Json} (hinner : Within inner (redactValue std value)) :
    Hides std inner := by
  induction value using Json.induction generalizing inner with
  | str text =>
    rw [redactValue] at hinner
    cases hinner
    exact hides_redactText text
  | arr items ih =>
    rw [redactValue, redactItems_eq] at hinner
    cases hinner with
    | self => trivial
    | item hitem hinner =>
      obtain ⟨value, hvalue, rfl⟩ := List.mem_map.mp hitem
      exact ih value hvalue hinner
  | obj fields ih =>
    rw [redactValue, redactPayload_eq] at hinner
    cases hinner with
    | self =>
      intro entry hentry hkey
      obtain ⟨old, _, rfl⟩ := List.mem_map.mp hentry
      exact if_pos hkey
    | field hentry hinner =>
      obtain ⟨old, hold, rfl⟩ := List.mem_map.mp hentry
      rw [redactEntry] at hinner
      dsimp only at hinner
      split at hinner
      · cases hinner
        exact hides_mask
      · exact ih old hold hinner
  | _ =>
    cases hinner
    trivial

/-- At any depth of what the log records, no text has a block of a key and no longer text
speaks of a secret, and sensitive keys have masked values. -/
def HidesSecrets (std : Stdlib) (records : List LogRecord) : Prop :=
  ∀ record ∈ records, ∀ inner, Within inner (.obj record.payload) → Hides std inner

theorem redactText_redactText (text : PyStr) :
    redactText std (redactText std text) = redactText std text := by
  have hmask : redactPem mask = mask := (clean_of_afterEnd (by decide)).redactPem_eq
  have hkept : redactPem (redactPem text) = redactPem text :=
    (clean_redactPemFrom 0 text).redactPem_eq
  by_cases hmasked : 8 < (redactPem text).length ∧ speaksOfSecrets std (redactPem text) = true
  · rw [redactText, redactText, if_pos hmasked, hmask, speaksOfSecrets_mask, if_neg (by simp)]
  · rw [redactText, redactText, if_neg hmasked, hkept, if_neg hmasked]

/-- Redacting again changes nothing. -/
theorem redactValue_redactValue (std : Stdlib) (value : Json) :
    redactValue std (redactValue std value) = redactValue std value := by
  induction value using Json.induction with
  | str text => rw [redactValue, redactValue, redactText_redactText]
  | arr items ih =>
    rw [redactValue, redactValue, redactItems_eq, redactItems_eq, List.map_map]
    exact congrArg Json.arr (List.map_congr_left ih)
  | obj fields ih =>
    rw [redactValue, redactValue, redactPayload_eq, redactPayload_eq, List.map_map]
    refine congrArg Json.obj (List.map_congr_left fun entry hentry => ?_)
    by_cases hkey : lower std entry.1 ∈ sensitiveKeys
    · simp only [Function.comp_apply, redactEntry, if_pos hkey]
    · simp only [Function.comp_apply, redactEntry, if_neg hkey, ih entry hentry]
  | _ => rfl

end Payloads

end RootSeeker.Observability
