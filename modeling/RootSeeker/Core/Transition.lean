import Mathlib

/-!
# Runs of labelled steps

A trace lists the steps of a run, each with the state it leads to, so that one
can speak about the states that a run passes and about the states in which its
steps are taken.
-/

namespace RootSeeker.Transition

variable {σ α : Type*}

/-- The labels of a run, each with the state after the step. -/
abbrev Trace (σ α : Type*) := List (α × σ)

/-- Every step of the trace is a step of the relation. -/
def Follows (step : σ → α → σ → Prop) : σ → Trace σ α → Prop
  | _, [] => True
  | state, (label, next) :: rest => step state label next ∧ Follows step next rest

instance decidableFollows {step : σ → α → σ → Prop}
    [∀ state label next, Decidable (step state label next)] :
    ∀ (start : σ) (trace : Trace σ α), Decidable (Follows step start trace)
  | _, [] => .isTrue trivial
  | start, (label, next) :: rest =>
    have : Decidable (Follows step next rest) := decidableFollows next rest
    inferInstanceAs (Decidable (step start label next ∧ Follows step next rest))

/-- Every step of the trace is taken in a state that allows its label. -/
def Guarded (guard : σ → α → Prop) : σ → Trace σ α → Prop :=
  Follows fun state label _ => guard state label

instance {guard : σ → α → Prop} [∀ state label, Decidable (guard state label)]
    (start : σ) (trace : Trace σ α) : Decidable (Guarded guard start trace) :=
  decidableFollows start trace

/-- The state after the trace. -/
def last : σ → Trace σ α → σ
  | state, [] => state
  | _, (_, next) :: rest => last next rest

/-- The trace of a sequence of labels under a partial step function. -/
def record (step : σ → α → Option σ) : σ → List α → Option (Trace σ α)
  | _, [] => some []
  | state, label :: labels =>
    (step state label).bind fun next =>
      (record step next labels).map ((label, next) :: ·)

/-- The trace of a sequence of labels under a step function. -/
def history (step : σ → α → σ) : σ → List α → Trace σ α
  | _, [] => []
  | state, label :: labels => (label, step state label) :: history step (step state label) labels

section Rules

variable {step : σ → α → σ → Prop} {guard : σ → α → Prop} {inv : σ → Prop} {start : σ}
  {trace : Trace σ α}

@[simp]
theorem follows_nil (step : σ → α → σ → Prop) (start : σ) : Follows step start [] :=
  trivial

@[simp]
theorem follows_cons {label : α} {next : σ} {rest : Trace σ α} :
    Follows step start ((label, next) :: rest) ↔
      step start label next ∧ Follows step next rest := Iff.rfl

@[simp]
theorem guarded_cons {label : α} {next : σ} {rest : Trace σ α} :
    Guarded guard start ((label, next) :: rest) ↔
      guard start label ∧ Guarded guard next rest := Iff.rfl

@[simp]
theorem last_nil (start : σ) : last start ([] : Trace σ α) = start := rfl

@[simp]
theorem last_cons (start : σ) (label : α) (next : σ) (rest : Trace σ α) :
    last start ((label, next) :: rest) = last next rest := rfl

theorem last_append (start : σ) (first second : Trace σ α) :
    last start (first ++ second) = last (last start first) second := by
  induction first generalizing start with
  | nil => rfl
  | cons entry rest ih => exact ih entry.2

theorem follows_append {first second : Trace σ α} :
    Follows step start (first ++ second) ↔
      Follows step start first ∧ Follows step (last start first) second := by
  induction first generalizing start with
  | nil => simp
  | cons entry rest ih =>
    obtain ⟨label, next⟩ := entry
    rw [List.cons_append, follows_cons, follows_cons, last_cons, ih, and_assoc]

/-- What holds at the start and is kept by the allowed steps holds in every state
of a run whose steps are all allowed. -/
theorem invariant_of_guarded (hrun : Follows step start trace)
    (hguarded : Guarded guard start trace) (hstart : inv start)
    (hstep : ∀ state label next, inv state → guard state label →
      step state label next → inv next) :
    (∀ entry ∈ trace, inv entry.2) ∧ inv (last start trace) := by
  induction trace generalizing start with
  | nil => exact ⟨by simp, hstart⟩
  | cons entry rest ih =>
    obtain ⟨label, next⟩ := entry
    have hnext := hstep _ _ _ hstart hguarded.1 hrun.1
    obtain ⟨hrest, hlast⟩ := ih hrun.2 hguarded.2 hnext
    exact ⟨List.forall_mem_cons.mpr ⟨hnext, hrest⟩, hlast⟩

/-- The same without a condition on the steps. -/
theorem invariant_of_follows (hrun : Follows step start trace) (hstart : inv start)
    (hstep : ∀ state label next, inv state → step state label next → inv next) :
    (∀ entry ∈ trace, inv entry.2) ∧ inv (last start trace) := by
  induction trace generalizing start with
  | nil => exact ⟨by simp, hstart⟩
  | cons entry rest ih =>
    obtain ⟨label, next⟩ := entry
    have hnext := hstep _ _ _ hstart hrun.1
    obtain ⟨hrest, hlast⟩ := ih hrun.2 hnext
    exact ⟨List.forall_mem_cons.mpr ⟨hnext, hrest⟩, hlast⟩

/-- Where allowed steps are good and keep the invariant, every step of a run whose steps are
all allowed is good. -/
theorem follows_of_guarded {good : σ → α → σ → Prop} (inv : σ → Prop)
    (hrun : Follows step start trace) (hguarded : Guarded guard start trace) (hstart : inv start)
    (hstep : ∀ state label next, inv state → guard state label → step state label next →
      good state label next ∧ inv next) : Follows good start trace := by
  induction trace generalizing start with
  | nil => exact follows_nil _ start
  | cons entry rest ih =>
    obtain ⟨label, next⟩ := entry
    obtain ⟨hgood, hnext⟩ := hstep _ _ _ hstart hguarded.1 hrun.1
    exact ⟨hgood, ih hrun.2 hguarded.2 hnext⟩

theorem follows_and {other : σ → α → σ → Prop} (hstep : Follows step start trace)
    (hother : Follows other start trace) :
    Follows (fun state label next => step state label next ∧ other state label next) start
      trace := by
  induction trace generalizing start with
  | nil => exact follows_nil _ start
  | cons entry rest ih => exact ⟨⟨hstep.1, hother.1⟩, ih hstep.2 hother.2⟩

theorem guarded_of_forall (hguard : ∀ state label, guard state label) (start : σ)
    (trace : Trace σ α) : Guarded guard start trace := by
  induction trace generalizing start with
  | nil => exact follows_nil _ start
  | cons entry rest ih => exact ⟨hguard start entry.1, ih entry.2⟩

theorem forall_iff_follows (inv : σ → Prop) (start : σ) (trace : Trace σ α) :
    (∀ entry ∈ trace, inv entry.2) ↔ Follows (fun _ _ next => inv next) start trace := by
  induction trace generalizing start with
  | nil => exact iff_of_true (by simp) (follows_nil _ start)
  | cons entry rest ih =>
    obtain ⟨label, next⟩ := entry
    rw [List.forall_mem_cons, follows_cons, ih next]

/-- Where the allowed steps are exactly the good ones, and good steps keep the invariant,
all steps of a run are good exactly when all are allowed. -/
theorem follows_iff_guarded_of_inv {good : σ → α → σ → Prop} (inv : σ → Prop)
    (hrun : Follows step start trace) (hstart : inv start)
    (hstep : ∀ state label next, inv state → step state label next →
      (good state label next ↔ guard state label) ∧
        (good state label next → inv next)) :
    Follows good start trace ↔ Guarded guard start trace := by
  induction trace generalizing start with
  | nil => exact iff_of_true (follows_nil _ start) (follows_nil _ start)
  | cons entry rest ih =>
    obtain ⟨label, next⟩ := entry
    obtain ⟨hiff, hnext⟩ := hstep _ _ _ hstart hrun.1
    rw [follows_cons, guarded_cons, hiff]
    apply and_congr_right
    intro hguard
    exact ih hrun.2 (hnext (hiff.mpr hguard))

/-- Where the allowed steps are exactly those that keep a property, and the property
carries an auxiliary one along, a run has the property throughout exactly when all its
steps are allowed. -/
theorem forall_iff_guarded_of_aux (inv aux : σ → Prop)
    (hrun : Follows step start trace) (hstart : inv start) (haux : aux start)
    (hstep : ∀ state label next, inv state → aux state → step state label next →
      (inv next ↔ guard state label) ∧ (inv next → aux next)) :
    (∀ entry ∈ trace, inv entry.2) ↔ Guarded guard start trace := by
  rw [forall_iff_follows inv start]
  apply follows_iff_guarded_of_inv (fun state => inv state ∧ aux state) hrun ⟨hstart, haux⟩
  intro state label next hboth htaken
  obtain ⟨hiff, hnext⟩ := hstep state label next hboth.1 hboth.2 htaken
  exact ⟨hiff, fun hgood => ⟨hgood, hnext hgood⟩⟩

/-- Where the allowed steps are exactly those that keep the invariant, a run has it
throughout exactly when all its steps are allowed. -/
theorem forall_inv_iff_guarded (inv : σ → Prop) (hrun : Follows step start trace)
    (hstart : inv start) (hstep : ∀ state label next, inv state → step state label next →
      (inv next ↔ guard state label)) :
    (∀ entry ∈ trace, inv entry.2) ↔ Guarded guard start trace := by
  apply forall_iff_guarded_of_aux inv (fun _ => True) hrun hstart trivial
  intro state label next hinv _ htaken
  exact ⟨hstep state label next hinv htaken, fun _ => trivial⟩

end Rules

/-! ## Step functions -/

theorem follows_history (step : σ → α → σ) (start : σ) (labels : List α) :
    Follows (fun state label next => next = step state label) start
      (history step start labels) := by
  induction labels generalizing start with
  | nil => exact follows_nil _ start
  | cons label labels ih => exact ⟨rfl, ih _⟩

theorem follows_of_record {step : σ → α → Option σ} {start : σ} {labels : List α}
    {trace : Trace σ α} (hrecord : record step start labels = some trace) :
    Follows (fun state label next => step state label = some next) start trace := by
  induction labels generalizing start trace with
  | nil =>
    obtain rfl := Option.some.inj hrecord
    exact follows_nil _ start
  | cons label labels ih =>
    rw [record, Option.bind_eq_some_iff] at hrecord
    obtain ⟨next, hnext, hrecord⟩ := hrecord
    rw [Option.map_eq_some_iff] at hrecord
    obtain ⟨rest, hrest, rfl⟩ := hrecord
    exact ⟨hnext, ih hrest⟩

end RootSeeker.Transition
