import RootSeeker.Python.Json

/-!
# Validated model fields

The contracts of the repository are validated models.  A required text field
rejects the empty string, every text field rejects unpaired surrogates, and a
field of type `dict[str, Any]` checks its keys the same way and leaves its
values alone.
-/

namespace RootSeeker.Contracts

open Python

/-- The exceptions that the modelled code can raise; `except Exception` does not catch
`SystemExit`. -/
inductive PyError where
  | stateTransitionError (message : PyStr)
  | validationError
  | keyError (key : PyStr)
  | valueError (message : PyStr)
  | typeError
  | attributeError
  | overflowError
  | runtimeError (message : PyStr)
  | unicodeEncodeError
  | jsonDecodeError
  | sqliteError (message : PyStr)
  | systemExit
  deriving DecidableEq

/-- The exceptions that `except ValueError` catches. -/
def PyError.isValueError : PyError → Bool
  | stateTransitionError _ => true
  | validationError => true
  | valueError _ => true
  | unicodeEncodeError => true
  | jsonDecodeError => true
  | _ => false

/-- Both succeed with the same value, both raise a `ValueError`, or both raise the same
other exception. -/
def SameOutcome {α : Type*} : Except PyError α → Except PyError α → Prop
  | .ok left, .ok right => left = right
  | .error left, .error right =>
    left = right ∨ (left.isValueError = true ∧ right.isValueError = true)
  | _, _ => False

/-! ## Texts of the examples -/

namespace Fixture

theorem caseOne : py "case-1" ≠ [] := by decide

theorem evOne : py "ev-1" ≠ [] := by decide

theorem evTwo : py "ev-2" ≠ [] := by decide

theorem title : py "t" ≠ [] := by decide

theorem decryptFailed : py "AES decrypt failed" ≠ [] := by decide

theorem trainingApi : py "training-manage-api" ≠ [] := by decide

theorem unitAgent : py "unit-agent" ≠ [] := by decide

theorem releaseDeploy : py "release.deploy" ≠ [] := by decide

theorem webhook : py "webhook" ≠ [] := by decide

theorem notifySend : py "notify.send" ≠ [] := by decide

theorem internal : py "internal" ≠ [] := by decide

theorem checkout : py "checkout" ≠ [] := by decide

theorem stepOne : py "step-1" ≠ [] := by decide

theorem logs : py "logs" ≠ [] := by decide

theorem queryByTrace : py "log.query_by_trace_id" ≠ [] := by decide

theorem checkoutFails : py "checkout fails" ≠ [] := by decide

theorem skill : py "skill" ≠ [] := by decide

theorem logQuery : py "log.query" ≠ [] := by decide

end Fixture

/-- What `Field(min_length=1)` on a `str` field accepts. -/
abbrev RequiredStr := {text : PyStr // text ≠ [] ∧ Encodable text}

instance : LawfulBEq RequiredStr := inferInstance

variable {text : PyStr} {fields : Fields}

namespace RequiredStr

def validate (text : PyStr) : Except PyError RequiredStr :=
  if htext : text ≠ [] ∧ Encodable text then .ok ⟨text, htext⟩
  else .error .validationError

/-- A non-empty literal as a field value. -/
def ofLiteral (literal : String) (hne : py literal ≠ []) : RequiredStr :=
  ⟨py literal, hne, encodable_py literal⟩

@[simp]
theorem validate_val (text : RequiredStr) : validate text.val = .ok text := by
  simp [validate, text.property]

theorem validate_eq_ok_iff {field : RequiredStr} :
    validate text = .ok field ↔ field.val = text := by
  constructor
  · intro hvalidate
    rw [validate] at hvalidate
    split at hvalidate
    · rw [← Except.ok.inj hvalidate]
    · exact absurd hvalidate (by simp)
  · rintro rfl
    exact validate_val field

theorem validate_of_valid (htext : text ≠ [] ∧ Encodable text) :
    validate text = .ok ⟨text, htext⟩ :=
  dif_pos htext

theorem validate_of_not_valid (htext : ¬(text ≠ [] ∧ Encodable text)) :
    validate text = .error .validationError :=
  dif_neg htext

end RequiredStr

/-- What a field of type `dict[str, Any]` checks: every key is a text without
unpaired surrogates. -/
def KeysEncodable (fields : Fields) : Prop :=
  ∀ key ∈ fields.keys, Encodable key

instance (fields : Fields) : Decidable (KeysEncodable fields) :=
  inferInstanceAs (Decidable (∀ key ∈ fields.keys, Encodable key))

/-- A validated value of a field of type `dict[str, Any]`. -/
abbrev Mapping := {fields : Fields // KeysEncodable fields}

namespace Mapping

def validate (fields : Fields) : Except PyError Mapping :=
  if hkeys : KeysEncodable fields then .ok ⟨fields, hkeys⟩
  else .error .validationError

theorem validate_of_encodable (hkeys : KeysEncodable fields) :
    validate fields = .ok ⟨fields, hkeys⟩ :=
  dif_pos hkeys

theorem validate_of_not_encodable (hkeys : ¬KeysEncodable fields) :
    validate fields = .error .validationError :=
  dif_neg hkeys

def empty : Mapping := ⟨[], by simp [KeysEncodable, Dict.keys]⟩

end Mapping

/-! ## Stripping models -/

/-- The white space that a model with `str_strip_whitespace` strips. -/
def isWhiteSpace (c : CodePoint) : Bool :=
  isSpace c && !(0x1C ≤ c.val && c.val ≤ 0x1F)

/-- What `str_strip_whitespace` makes of a text. -/
def trim (text : PyStr) : PyStr :=
  stripBy isWhiteSpace text

/-- What `str_strip_whitespace` makes of the keys of a dictionary. -/
def trimKeys (fields : Fields) : Fields :=
  Dict.update [] (fields.map fun entry => (trim entry.1, entry.2))

/-- Text fields, checked and stripped. -/
def validateText (text : PyStr) : Except PyError PyStr :=
  if Encodable text then .ok (trim text) else .error .validationError

theorem trim_trim (text : PyStr) : trim (trim text) = trim text :=
  stripBy_idem isWhiteSpace text

theorem encodable_trim_iff : Encodable (trim text) ↔ Encodable text := by
  constructor
  · intro htrimmed c hc
    by_contra hsurrogate
    rw [Bool.not_eq_false] at hsurrogate
    have hspace : isWhiteSpace c = false := by
      simp [isWhiteSpace, isSpace_of_isSurrogate hsurrogate]
    rw [htrimmed c (mem_stripBy_of_mem hc hspace)] at hsurrogate
    exact absurd hsurrogate (by simp)
  · exact encodable_stripBy

theorem trim_strip (text : PyStr) : trim (strip text) = strip text := by
  have hstripped : stripBy isSpace (strip text) = strip text := stripBy_idem isSpace text
  apply stripBy_eq_self
  · intro c hc
    simp [isWhiteSpace, head_of_stripBy_eq_self hstripped c hc]
  · intro c hc
    simp [isWhiteSpace, last_of_stripBy_eq_self hstripped c hc]

theorem trim_eq_self_of_plain (hplain : ∀ c ∈ text, isAscii c = true ∧ isSpace c = false) :
    trim text = text := by
  apply stripBy_eq_self_of_forall
  intro c hc
  simp [isWhiteSpace, (hplain c hc).2]

theorem encodable_of_plain (hplain : ∀ c ∈ text, isAscii c = true ∧ isSpace c = false) :
    Encodable text := by
  intro c hc
  have hascii := (hplain c hc).1
  simp only [isAscii, decide_eq_true_eq] at hascii
  simp only [isSurrogate, Bool.and_eq_false_iff, decide_eq_false_iff_not]
  omega

theorem keys_map_value {ν ν' : Type*} (key : PyStr → PyStr) (value : ν → ν')
    (entries : Dict PyStr ν) :
    Dict.keys (entries.map fun entry => (key entry.1, value entry.2)) = entries.keys.map key := by
  simp [Dict.keys, Function.comp_def]

/-- A dictionary whose keys are stripped already is left alone. -/
theorem trimKeys_eq_self (hnodup : fields.keys.Nodup)
    (htrimmed : ∀ key ∈ fields.keys, trim key = key) : trimKeys fields = fields := by
  have hsame : (fields.map fun entry => (trim entry.1, entry.2)) = fields := by
    conv_rhs => rw [← List.map_id fields]
    apply List.map_congr_left
    intro entry hentry
    rw [htrimmed entry.1 (List.mem_map_of_mem hentry)]
    rfl
  rw [trimKeys, hsame]
  exact Dict.update_nil_of_nodup hnodup

theorem mem_keys_trimKeys (fields : Fields) (key : PyStr) :
    key ∈ (trimKeys fields).keys ↔ key ∈ fields.keys.map trim := by
  have hkeys := keys_map_value trim id fields
  simp only [id] at hkeys
  rw [trimKeys, Dict.mem_keys_update, hkeys]
  simp [Dict.keys]

theorem nodup_keys_trimKeys (fields : Fields) : (trimKeys fields).keys.Nodup :=
  Dict.nodup_keys_update (by simp [Dict.keys]) _

theorem keysEncodable_trimKeys_iff (fields : Fields) :
    KeysEncodable (trimKeys fields) ↔ KeysEncodable fields := by
  unfold KeysEncodable
  simp only [mem_keys_trimKeys, List.forall_mem_map, encodable_trim_iff]

theorem validateText_eq_ok {result : PyStr} (hok : validateText text = .ok result) :
    result = trim text ∧ Encodable text := by
  unfold validateText at hok
  split at hok
  · rename_i hencodable
    exact ⟨(Except.ok.inj hok).symm, hencodable⟩
  · exact absurd hok (by simp)

theorem trimmedField_eq_ok {field : RequiredStr}
    (hok : RequiredStr.validate (trim text) = .ok field) :
    field.val = trim text ∧ trim text ≠ [] ∧ Encodable text := by
  have hval := RequiredStr.validate_eq_ok_iff.mp hok
  have hproperty := field.property
  rw [hval] at hproperty
  exact ⟨hval, hproperty.imp_right encodable_trim_iff.mp⟩

theorem mapping_eq_ok {mapping : Mapping} (hok : Mapping.validate (trimKeys fields) = .ok mapping) :
    mapping.val = trimKeys fields ∧ KeysEncodable fields := by
  by_cases hkeys : KeysEncodable (trimKeys fields)
  · rw [Mapping.validate_of_encodable hkeys] at hok
    obtain rfl := Except.ok.inj hok
    exact ⟨rfl, (keysEncodable_trimKeys_iff fields).mp hkeys⟩
  · rw [Mapping.validate_of_not_encodable hkeys] at hok
    exact absurd hok (by simp)

/-- What `str(uuid.uuid4())` and `isoformat()` print: ASCII characters, none of them blank. -/
abbrev PlainText :=
  {text : PyStr // text ≠ [] ∧ text.all (fun c => isAscii c && !isSpace c) = true}

theorem PlainText.forall_mem (text : PlainText) :
    ∀ c ∈ text.val, isAscii c = true ∧ isSpace c = false := by
  simpa using text.property.2

theorem PlainText.encodable (text : PlainText) : Encodable text.val :=
  encodable_of_plain text.forall_mem

/-- The random parts of the identifiers that `new_id` draws, in the order in
which they are drawn.  They are taken never to collide. -/
structure IdSupply where
  uuid : ℕ → PyStr
  injective : Function.Injective uuid

/-- The `n`-th identifier with the given prefix. -/
def newId (ids : IdSupply) (idPrefix : PyStr) (n : ℕ) : PyStr :=
  idPrefix ++ ids.uuid n

theorem newId_injective (ids : IdSupply) (idPrefix : PyStr) :
    Function.Injective (newId ids idPrefix) := by
  intro left right heq
  apply ids.injective
  exact List.append_cancel_left heq

/-- Identifiers for runs on fixed inputs. -/
def unaryIds : IdSupply where
  uuid n := List.replicate n (CodePoint.ofChar '0')
  injective := by
    intro left right heq
    simpa using congrArg List.length heq

end RootSeeker.Contracts
