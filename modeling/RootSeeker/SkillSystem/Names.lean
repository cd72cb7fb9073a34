import RootSeeker.Python.Text

/-!
# Names of skills

A name is normalised before it is looked up: the surrounding blanks, then the
surrounding slashes, then everything up to the last slash go.  Blanks next to a
slash inside the text stay, so normalising once more may change the name again.
-/

namespace RootSeeker.SkillSystem

open Python

def slash : CodePoint := CodePoint.ofChar '/'

def normalizeSkillName (value : PyStr) : PyStr :=
  (stripBy (fun c => c = slash) (strip value)).rtakeWhile fun c => c ≠ slash

/-- `[a-z0-9]`. -/
def isNameChar (c : CodePoint) : Bool :=
  isDigit c || (0x61 ≤ c.val && c.val ≤ 0x7A)

/-- Whether the text completes a match of `[a-z0-9]+(?:-[a-z0-9]+)*`, at the start of a
group or inside one. -/
def matchesName (atStart : Bool) : PyStr → Bool
  | [] => !atStart
  | c :: rest =>
    if isNameChar c then matchesName false rest
    else c = CodePoint.ofChar '-' && !atStart && matchesName true rest

/-- What `validate_skill_name` accepts. -/
def ValidName (name : PyStr) : Prop :=
  name.length ≤ 64 ∧ matchesName true name

instance (name : PyStr) : Decidable (ValidName name) :=
  inferInstanceAs (Decidable (_ ∧ _))

variable {name : PyStr}

theorem isNameChar_or_hyphen {atStart : Bool} (hname : matchesName atStart name) :
    ∀ c ∈ name, isNameChar c ∨ c = CodePoint.ofChar '-' := by
  induction name generalizing atStart with
  | nil => simp
  | cons c rest ih =>
    rw [List.forall_mem_cons]
    by_cases hchar : isNameChar c = true
    · rw [matchesName, if_pos hchar] at hname
      exact ⟨Or.inl hchar, ih hname⟩
    · rw [matchesName, if_neg hchar, Bool.and_eq_true, Bool.and_eq_true, decide_eq_true_eq] at hname
      exact ⟨Or.inr hname.1.1, ih hname.2⟩

theorem ValidName.ne_nil (hname : ValidName name) : name ≠ [] := by
  rintro rfl
  exact absurd hname.2 (by decide)

theorem not_isSpace_of_isNameChar {c : CodePoint}
    (hchar : isNameChar c = true ∨ c = CodePoint.ofChar '-') : isSpace c = false := by
  cases hchar with
  | inl hchar =>
    simp only [isNameChar, isDigit, Bool.or_eq_true, Bool.and_eq_true, decide_eq_true_eq] at hchar
    simp only [isSpace, Bool.or_eq_false_iff, Bool.and_eq_false_iff, decide_eq_false_iff_not]
    omega
  | inr hhyphen => rw [hhyphen]; decide

theorem ne_slash_of_isNameChar {c : CodePoint}
    (hchar : isNameChar c = true ∨ c = CodePoint.ofChar '-') : c ≠ slash := by
  cases hchar with
  | inl hchar =>
    rintro rfl
    exact absurd hchar (by decide)
  | inr hhyphen => rw [hhyphen]; decide

/-- A valid name is its own normal form. -/
theorem normalizeSkillName_of_valid (hname : ValidName name) : normalizeSkillName name = name := by
  have hchars := isNameChar_or_hyphen hname.2
  have hstrip : strip name = name :=
    stripBy_eq_self_of_forall fun c hc => not_isSpace_of_isNameChar (hchars c hc)
  have hslashes : stripBy (fun c => c = slash) name = name := by
    apply stripBy_eq_self_of_forall
    intro c hc
    exact decide_eq_false (ne_slash_of_isNameChar (hchars c hc))
  rw [normalizeSkillName, hstrip, hslashes, List.rtakeWhile_eq_self_iff]
  intro c hc
  exact decide_eq_true (ne_slash_of_isNameChar (hchars c hc))

end RootSeeker.SkillSystem
