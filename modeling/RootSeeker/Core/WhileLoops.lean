import Mathlib

/-!
# Loops that may not end

A `while` loop over a state is run with a bound on its turns.  It ends in a
state when some bound is enough, and the rules below say when that is.
-/

namespace RootSeeker.WhileLoops

variable {σ : Type*}

/-- The state in which the loop ends, unless it takes more turns than allowed. -/
def whileFor (continues : σ → Bool) (body : σ → σ) : ℕ → σ → Option σ
  | 0, state => if continues state then none else some state
  | turns + 1, state =>
    if continues state then whileFor continues body turns (body state) else some state

/-- The loop ends, and in this state. -/
def Ends (continues : σ → Bool) (body : σ → σ) (start final : σ) : Prop :=
  ∃ turns, whileFor continues body turns start = some final

variable {continues : σ → Bool} {body : σ → σ} {start final : σ}

theorem whileFor_of_stop (hstop : continues start = false) (turns : ℕ) :
    whileFor continues body turns start = some start := by
  cases turns with
  | zero => exact if_neg (by simp [hstop])
  | succ turns => exact if_neg (by simp [hstop])

theorem ends_of_stop (hstop : continues start = false) : Ends continues body start start :=
  ⟨0, whileFor_of_stop hstop 0⟩

theorem ends_step_iff (hcontinues : continues start = true) :
    Ends continues body start final ↔ Ends continues body (body start) final := by
  constructor
  · rintro ⟨turns, hturns⟩
    cases turns with
    | zero =>
      rw [whileFor, if_pos hcontinues] at hturns
      exact absurd hturns (by simp)
    | succ turns =>
      rw [whileFor, if_pos hcontinues] at hturns
      exact ⟨turns, hturns⟩
  · rintro ⟨turns, hturns⟩
    exact ⟨turns + 1, by rw [whileFor, if_pos hcontinues, hturns]⟩

/-- The rule of the loop: what its turns keep holds at the end. -/
theorem Ends.invariant {inv : σ → Prop} (hends : Ends continues body start final)
    (hstart : inv start) (hkeep : ∀ state, inv state → continues state = true → inv (body state)) :
    inv final ∧ continues final = false := by
  obtain ⟨turns, hturns⟩ := hends
  induction turns generalizing start with
  | zero =>
    rw [whileFor] at hturns
    split at hturns
    · exact absurd hturns (by simp)
    · next hstop =>
      obtain rfl := Option.some.inj hturns
      exact ⟨hstart, Bool.eq_false_of_not_eq_true hstop⟩
  | succ turns ih =>
    rw [whileFor] at hturns
    split at hturns
    · next hcontinues => exact ih (hkeep start hstart hcontinues) hturns
    · next hstop =>
      obtain rfl := Option.some.inj hturns
      exact ⟨hstart, Bool.eq_false_of_not_eq_true hstop⟩

theorem Ends.stops (hends : Ends continues body start final) : continues final = false :=
  (@Ends.invariant σ continues body start final (fun _ => True) hends trivial
    fun _ _ _ => trivial).2

/-- A loop whose turns keep its condition does not end. -/
theorem not_ends_of_invariant (inv : σ → Prop) (hstart : inv start)
    (hkeep : ∀ state, inv state → continues state = true ∧ inv (body state)) (final : σ) :
    ¬Ends continues body start final := by
  intro hends
  obtain ⟨hinv, hstop⟩ := hends.invariant hstart fun state hinv _ => (hkeep state hinv).2
  rw [(hkeep final hinv).1] at hstop
  exact absurd hstop (by simp)

/-- A loop whose turns make something smaller ends. -/
theorem exists_ends_of_measure (inv : σ → Prop) (measure : σ → ℕ) (hstart : inv start)
    (hkeep : ∀ state, inv state → continues state = true →
      inv (body state) ∧ measure (body state) < measure state) :
    ∃ final, Ends continues body start final := by
  induction hsize : measure start using Nat.strong_induction_on generalizing start with
  | _ size ih =>
    cases hcontinues : continues start with
    | false => exact ⟨start, ends_of_stop hcontinues⟩
    | true =>
      obtain ⟨hnext, hsmaller⟩ := hkeep start hstart hcontinues
      obtain ⟨final, hfinal⟩ := ih _ (hsize ▸ hsmaller) hnext rfl
      exact ⟨final, (ends_step_iff hcontinues).mpr hfinal⟩

end RootSeeker.WhileLoops
