import Mathlib

/-!
# Balanced brackets outside quotes

A scanner reads a text one character at a time and counts the brackets that are
open, except between quotes, where an escape character hides the next one.  A
balanced text can be put anywhere outside quotes without changing the count.
What is left of a bracketed text from a later bracket on is never balanced: the
bracket is either nested, and then one closing bracket is too many, or quoted,
and then the quotes are taken the other way round.
-/

namespace RootSeeker.Brackets

/-- What a character is to the scanner. -/
inductive Mark where
  | opening
  | closing
  | quote
  | escape
  | plain
  deriving DecidableEq

inductive State where
  | outside (depth : ℕ)
  | inside (depth : ℕ)
  | escaped (depth : ℕ)

/-- The state with more brackets open around it. -/
def State.lift (more : ℕ) : State → State
  | .outside depth => .outside (depth + more)
  | .inside depth => .inside (depth + more)
  | .escaped depth => .escaped (depth + more)

/-- One state is outside quotes and the other is between quotes. -/
def State.Opposite : State → State → Prop
  | .outside _, .inside _ => True
  | .inside _, .outside _ => True
  | _, _ => False

variable {α : Type*} (mark : α → Mark)

/-- A closing bracket too many and an escape outside quotes stop the scanner. -/
def step : State → α → Option State
  | .outside depth, c =>
    match mark c, depth with
    | .opening, depth => some (.outside (depth + 1))
    | .closing, depth + 1 => some (.outside depth)
    | .closing, 0 => none
    | .quote, depth => some (.inside depth)
    | .escape, _ => none
    | .plain, depth => some (.outside depth)
  | .inside depth, c =>
    match mark c with
    | .quote => some (.outside depth)
    | .escape => some (.escaped depth)
    | _ => some (.inside depth)
  | .escaped depth, _ => some (.inside depth)

def run (state : State) (text : List α) : Option State :=
  text.foldlM (step mark) state

def Balanced (text : List α) : Prop :=
  run mark (.outside 0) text = some (.outside 0)

/-- What stands between two quotes. -/
def Quoted (text : List α) : Prop :=
  run mark (.inside 0) text = some (.inside 0)

variable {mark}

@[simp]
theorem run_nil (state : State) : run mark state [] = some state := rfl

theorem run_cons (state : State) (c : α) (text : List α) :
    run mark state (c :: text) = (step mark state c).bind (run mark · text) := rfl

theorem run_append (state : State) (left right : List α) :
    run mark state (left ++ right) = (run mark state left).bind (run mark · right) := by
  rw [run, List.foldlM_append]
  rfl

section Steps

variable {c : α} (depth : ℕ)

theorem step_opening (hmark : mark c = .opening) :
    step mark (.outside depth) c = some (.outside (depth + 1)) := by
  simp only [step, hmark]

theorem step_closing (hmark : mark c = .closing) :
    step mark (.outside (depth + 1)) c = some (.outside depth) := by
  simp only [step, hmark]

theorem step_quote (hmark : mark c = .quote) :
    step mark (.outside depth) c = some (.inside depth) := by
  simp only [step, hmark]

theorem step_plain (hmark : mark c = .plain) :
    step mark (.outside depth) c = some (.outside depth) := by
  simp only [step, hmark]

theorem step_inside_quote (hmark : mark c = .quote) :
    step mark (.inside depth) c = some (.outside depth) := by
  simp only [step, hmark]

theorem step_inside_escape (hmark : mark c = .escape) :
    step mark (.inside depth) c = some (.escaped depth) := by
  simp only [step, hmark]

theorem step_inside (hquote : mark c ≠ .quote) (hescape : mark c ≠ .escape) :
    step mark (.inside depth) c = some (.inside depth) := by
  cases hmark : mark c with
  | quote => exact absurd hmark hquote
  | escape => exact absurd hmark hescape
  | opening | closing | plain => simp only [step, hmark]

end Steps

theorem step_lift {state next : State} {c : α} (more : ℕ) (hstep : step mark state c = some next) :
    step mark (state.lift more) c = some (next.lift more) := by
  cases state with
  | outside depth =>
    cases hmark : mark c with
    | closing =>
      cases depth with
      | zero => simp [step, hmark] at hstep
      | succ depth =>
        rw [step_closing depth hmark] at hstep
        rw [← Option.some.inj hstep, State.lift, Nat.add_right_comm]
        exact step_closing (depth + more) hmark
    | opening =>
      rw [step_opening depth hmark] at hstep
      rw [← Option.some.inj hstep, State.lift, State.lift, Nat.add_right_comm]
      exact step_opening (depth + more) hmark
    | quote =>
      rw [step_quote depth hmark] at hstep
      exact Option.some.inj hstep ▸ step_quote (depth + more) hmark
    | escape => simp [step, hmark] at hstep
    | plain =>
      rw [step_plain depth hmark] at hstep
      exact Option.some.inj hstep ▸ step_plain (depth + more) hmark
  | inside depth =>
    by_cases hquote : mark c = .quote
    · rw [step_inside_quote depth hquote] at hstep
      exact Option.some.inj hstep ▸ step_inside_quote (depth + more) hquote
    · by_cases hescape : mark c = .escape
      · rw [step_inside_escape depth hescape] at hstep
        exact Option.some.inj hstep ▸ step_inside_escape (depth + more) hescape
      · rw [step_inside depth hquote hescape] at hstep
        exact Option.some.inj hstep ▸ step_inside (depth + more) hquote hescape
  | escaped depth => exact Option.some.inj hstep ▸ rfl

variable {text : List α}

theorem run_lift {state next : State} (more : ℕ) (hrun : run mark state text = some next) :
    run mark (state.lift more) text = some (next.lift more) := by
  induction text generalizing state with
  | nil => rw [← Option.some.inj hrun, run_nil]
  | cons c text ih =>
    rw [run_cons] at hrun ⊢
    obtain ⟨middle, hstep, hrest⟩ := Option.bind_eq_some_iff.mp hrun
    rw [step_lift more hstep]
    exact ih hrest

/-! ## Balanced texts -/

namespace Balanced

theorem run_outside (htext : Balanced mark text) (depth : ℕ) :
    run mark (.outside depth) text = some (.outside depth) := by
  have hlift := run_lift depth htext
  simpa only [State.lift, Nat.zero_add] using hlift

@[simp]
theorem nil : Balanced mark [] := rfl

theorem append {left right : List α} (hleft : Balanced mark left)
    (hright : Balanced mark right) : Balanced mark (left ++ right) := by
  rw [Balanced, run_append, hleft]
  exact hright

theorem of_plain (hplain : ∀ c ∈ text, mark c = .plain) : Balanced mark text := by
  induction text with
  | nil => rfl
  | cons c text ih =>
    rw [Balanced, run_cons, step_plain 0 (hplain c List.mem_cons_self)]
    exact ih fun d hd => hplain d (List.mem_cons_of_mem c hd)

theorem bracketed {opening closing : α} (hopening : mark opening = .opening)
    (hclosing : mark closing = .closing) (htext : Balanced mark text) :
    Balanced mark (opening :: (text ++ [closing])) := by
  rw [Balanced, run_cons, step_opening 0 hopening, Option.bind_some, run_append,
    htext.run_outside, Option.bind_some, run_cons, step_closing 0 hclosing]
  rfl

theorem quoted {quote : α} (hquote : mark quote = .quote) (htext : Quoted mark text) :
    Balanced mark (quote :: (text ++ [quote])) := by
  rw [Quoted] at htext
  rw [Balanced, run_cons, step_quote 0 hquote, Option.bind_some, run_append, htext,
    Option.bind_some, run_cons, step_inside_quote 0 hquote]
  rfl

end Balanced

namespace Quoted

@[simp]
theorem nil : Quoted mark [] := rfl

theorem cons {c : α} (hquote : mark c ≠ .quote) (hescape : mark c ≠ .escape)
    (htext : Quoted mark text) : Quoted mark (c :: text) := by
  rw [Quoted, run_cons, step_inside 0 hquote hescape]
  exact htext

theorem of_plain (hplain : ∀ c ∈ text, mark c = .plain) : Quoted mark text := by
  induction text with
  | nil => rfl
  | cons c text ih =>
    have hc := hplain c List.mem_cons_self
    exact cons (by simp [hc]) (by simp [hc]) (ih fun d hd => hplain d (List.mem_cons_of_mem c hd))

theorem escape {c hidden : α} (hescape : mark c = .escape) (htext : Quoted mark text) :
    Quoted mark (c :: hidden :: text) := by
  rw [Quoted, run_cons, step_inside_escape 0 hescape]
  exact htext

theorem append {left right : List α} (hleft : Quoted mark left) (hright : Quoted mark right) :
    Quoted mark (left ++ right) := by
  rw [Quoted, run_append, hleft]
  exact hright

end Quoted

/-! ## The rest of a bracketed text -/

theorem step_opposite {left right leftNext rightNext : State} {c : α}
    (hopposite : left.Opposite right) (hleft : step mark left c = some leftNext)
    (hright : step mark right c = some rightNext) : leftNext.Opposite rightNext := by
  have hturn : ∀ {depth other : ℕ} {outer inner : State},
      step mark (.outside depth) c = some outer → step mark (.inside other) c = some inner →
        outer.Opposite inner ∧ inner.Opposite outer := by
    intro depth other outer inner houter hinner
    cases hmark : mark c with
    | escape => simp [step, hmark] at houter
    | closing =>
      cases depth with
      | zero => simp [step, hmark] at houter
      | succ depth =>
        simp only [step, hmark, Option.some.injEq] at houter hinner
        simp [← houter, ← hinner, State.Opposite]
    | opening | quote | plain =>
      simp only [step, hmark, Option.some.injEq] at houter hinner
      simp [← houter, ← hinner, State.Opposite]
  cases left with
  | outside depth =>
    cases right with
    | inside other => exact (hturn hleft hright).1
    | outside other => exact hopposite.elim
    | escaped other => exact hopposite.elim
  | inside depth =>
    cases right with
    | outside other => exact (hturn hright hleft).2
    | inside other => exact hopposite.elim
    | escaped other => exact hopposite.elim
  | escaped depth => exact hopposite.elim

/-- Two scans that disagree about the quotes go on disagreeing. -/
theorem run_opposite {left right leftEnd rightEnd : State} (hopposite : left.Opposite right)
    (hleft : run mark left text = some leftEnd) (hright : run mark right text = some rightEnd) :
    leftEnd.Opposite rightEnd := by
  induction text generalizing left right with
  | nil => rwa [← Option.some.inj hleft, ← Option.some.inj hright]
  | cons c text ih =>
    rw [run_cons] at hleft hright
    obtain ⟨leftNext, hleftStep, hleftRest⟩ := Option.bind_eq_some_iff.mp hleft
    obtain ⟨rightNext, hrightStep, hrightRest⟩ := Option.bind_eq_some_iff.mp hright
    exact ih (step_opposite hopposite hleftStep hrightStep) hleftRest hrightRest

/-- Where a bracketed text is cut before a bracket, the rest is not balanced. -/
theorem not_balanced_of_suffix {before after : List α} {opening closing : α}
    (hbody : Balanced mark (before ++ opening :: after)) (hopening : mark opening = .opening)
    (hclosing : mark closing = .closing) : ¬Balanced mark (opening :: after ++ [closing]) := by
  intro hrest
  rw [Balanced, run_append] at hbody
  obtain ⟨middle, _, hafter⟩ := Option.bind_eq_some_iff.mp hbody
  -- One bracket is open around the body, and the last character closes it.
  have hwhole : run mark (middle.lift 1) (opening :: after ++ [closing]) = some (.outside 0) := by
    rw [run_append, run_lift 1 hafter, Option.bind_some, State.lift, run_cons,
      step_closing 0 hclosing]
    rfl
  cases middle with
  | outside depth =>
    have hsame := (hrest.run_outside (depth + 1)).symm.trans hwhole
    simp at hsame
  | inside depth =>
    have hopposite : (State.inside (depth + 1)).Opposite (.outside 0) := trivial
    exact run_opposite hopposite hwhole hrest
  | escaped depth =>
    have hopposite : (State.inside (depth + 1)).Opposite (.outside 1) := trivial
    rw [List.cons_append, run_cons] at hwhole
    rw [Balanced, List.cons_append, run_cons, step_opening 0 hopening] at hrest
    exact run_opposite hopposite hwhole hrest

/-- Where a bracketed text is cut before its last bracket, what comes before is not
balanced. -/
theorem not_balanced_of_prefix {before after : List α} {opening : α}
    (hbody : Balanced mark (before ++ after)) (hopening : mark opening = .opening) :
    ¬Balanced mark (opening :: before) := by
  intro hstart
  rw [Balanced, run_append] at hbody
  obtain ⟨middle, hbefore, _⟩ := Option.bind_eq_some_iff.mp hbody
  rw [Balanced, run_cons, step_opening 0 hopening] at hstart
  have hsame := (run_lift 1 hbefore).symm.trans hstart
  cases middle <;> simp [State.lift] at hsame

end RootSeeker.Brackets
