import Mathlib

/-!
# Computations with a state that may raise

Rules for what a computation gives if it returns, and for computations that are
known to return from a set of states.
-/

namespace RootSeeker.Effects

variable {σ ε α β : Type}

/-- Read a computation without a state. -/
def stateless (first : Except ε α) : StateT σ (Except ε) α :=
  fun state => first.map fun value => (value, state)

@[simp]
theorem stateless_ok (value : α) :
    (stateless (.ok value) : StateT σ (Except ε) α) = pure value := rfl

/-! ## What is returned -/

/-- Whatever the computation returns is as claimed. -/
structure Gives (first : StateT σ (Except ε) α) (good : α → Prop) : Prop where
  returned : ∀ start value after, first start = .ok (value, after) → good value

theorem gives_pure {good : α → Prop} {value : α} (hvalue : good value) :
    Gives (pure value : StateT σ (Except ε) α) good := by
  constructor
  intro start other after hreturned
  obtain ⟨rfl, _⟩ := Prod.mk.inj (Except.ok.inj hreturned)
  exact hvalue

theorem gives_stateless {first : Except ε α} {good : α → Prop}
    (hfirst : ∀ value, first = .ok value → good value) :
    Gives (stateless first : StateT σ (Except ε) α) good := by
  constructor
  intro start value after hreturned
  cases first with
  | error raised => exact absurd hreturned (by simp [stateless, Except.map])
  | ok other =>
    obtain ⟨rfl, _⟩ := Prod.mk.inj (Except.ok.inj hreturned)
    exact hfirst other rfl

variable {first : StateT σ (Except ε) α} {result : α → σ → Prop}

theorem gives_bind {next : α → StateT σ (Except ε) β} {result : β → Prop} (good : α → Prop)
    (hfirst : Gives first good) (hnext : ∀ value, good value → Gives (next value) result) :
    Gives (first >>= next) result := by
  constructor
  intro start value after hreturned
  change (first start).bind (fun pair => next pair.1 pair.2) = .ok (value, after) at hreturned
  cases hmiddle : first start with
  | error raised =>
    rw [hmiddle] at hreturned
    exact absurd hreturned (by simp [Except.bind])
  | ok pair =>
    rw [hmiddle] at hreturned
    have hpair := hfirst.returned start pair.1 pair.2 hmiddle
    exact (hnext pair.1 hpair).returned pair.2 value after hreturned

theorem gives_true (first : StateT σ (Except ε) α) : Gives first fun _ => True :=
  ⟨fun _ _ _ _ => trivial⟩

/-! ## Returning -/

/-- From the states of `ready` the computation returns, and then it is as claimed. -/
structure Runs (ready : σ → Prop) (first : StateT σ (Except ε) α) (result : α → σ → Prop) :
    Prop where
  returns : ∀ start, ready start →
    ∃ value after, first start = .ok (value, after) ∧ result value after

variable {ready : σ → Prop}

theorem runs_pure {value : α} (hvalue : ∀ state, ready state → result value state) :
    Runs ready (pure value : StateT σ (Except ε) α) result :=
  ⟨fun start hstart => ⟨value, start, rfl, hvalue start hstart⟩⟩

theorem Runs.of_imp {stronger : σ → Prop} (hfirst : Runs ready first result)
    (himp : ∀ state, stronger state → ready state) : Runs stronger first result :=
  ⟨fun start hstart => hfirst.returns start (himp start hstart)⟩

/-- A fact about the start that does not depend on the state is a hypothesis. -/
theorem runs_of_fact {fact : Prop} (hfirst : fact → Runs ready first result) :
    Runs (fun state => fact ∧ ready state) first result :=
  ⟨fun start hstart => (hfirst hstart.1).returns start hstart.2⟩

theorem runs_stateless {first : Except ε α} {value : α} (hfirst : first = .ok value)
    (hvalue : ∀ state, ready state → result value state) : Runs ready (stateless first) result := by
  constructor
  intro start hstart
  refine ⟨value, start, ?_, hvalue start hstart⟩
  rw [stateless, hfirst]
  rfl

theorem runs_bind {next : α → StateT σ (Except ε) β} {result : β → σ → Prop} (middle : α → σ → Prop)
    (hfirst : Runs ready first middle) (hnext : ∀ value, Runs (middle value) (next value) result) :
    Runs ready (first >>= next) result := by
  constructor
  intro start hstart
  obtain ⟨value, between, hmiddle, hbetween⟩ := hfirst.returns start hstart
  obtain ⟨final, after, hfinal, hafter⟩ := (hnext value).returns between hbetween
  refine ⟨final, after, ?_, hafter⟩
  change (first start).bind (fun pair => next pair.1 pair.2) = .ok (final, after)
  rw [hmiddle]
  exact hfinal

end RootSeeker.Effects
