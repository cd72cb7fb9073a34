import Mathlib

/-!
# Reading from a stream

A stream lists what a reader will meet: items, and pauses that outlast its
patience.  Behind the last entry the stream has ended.  A read gives what it
has read and the rest of the stream, or nothing where it meets a pause.
-/

namespace RootSeeker.Streams

variable {α β σ : Type*}

abbrev Stream (α : Type*) := List (Option α)

/-- A stream that delivers the items at once. -/
def ofList (items : List α) : Stream α :=
  items.map some

@[simp]
theorem length_ofList (items : List α) : (ofList items).length = items.length := by
  rw [ofList, List.length_map]

theorem ofList_append (first second : List α) :
    ofList (first ++ second) = ofList first ++ ofList second :=
  List.map_append

/-! ## A number of items -/

/-- Read `count` items, or fewer at the end of the stream. -/
def read : ℕ → Stream α → Option (List α × Stream α)
  | 0, stream => some ([], stream)
  | _ + 1, [] => some ([], [])
  | _ + 1, none :: _ => none
  | count + 1, some item :: rest => (read count rest).map fun result => (item :: result.1, result.2)

theorem read_ofList (items : List α) (rest : Stream α) :
    read items.length (ofList items ++ rest) = some (items, rest) := by
  induction items with
  | nil => rfl
  | cons item items ih =>
    have hread : read (item :: items).length (ofList (item :: items) ++ rest) =
        (read items.length (ofList items ++ rest)).map
          fun result => (item :: result.1, result.2) := rfl
    rw [hread, ih]
    rfl

variable {line : List α} {stream rest : Stream α}

theorem eq_append_of_read {count : ℕ} {items : List α}
    (hread : read count stream = some (items, rest)) : stream = ofList items ++ rest := by
  induction count generalizing stream items with
  | zero =>
    obtain ⟨rfl, rfl⟩ := Prod.mk.inj (Option.some.inj hread)
    rfl
  | succ count ih =>
    cases stream with
    | nil =>
      obtain ⟨rfl, rfl⟩ := Prod.mk.inj (Option.some.inj hread)
      rfl
    | cons entry stream =>
      cases entry with
      | none => exact absurd hread (by simp [read])
      | some item =>
        rw [read, Option.map_eq_some_iff] at hread
        obtain ⟨result, hresult, heq⟩ := hread
        obtain ⟨rfl, rfl⟩ := Prod.mk.inj heq
        exact congrArg (some item :: ·) (ih hresult)

theorem read_stalled {count : ℕ} {items : List α} (hcount : items.length < count)
    (rest : Stream α) : read count (ofList items ++ none :: rest) = none := by
  induction items generalizing count with
  | nil =>
    cases count with
    | zero => exact absurd hcount (Nat.not_lt_zero _)
    | succ count => rfl
  | cons item items ih =>
    cases count with
    | zero => exact absurd hcount (Nat.not_lt_zero _)
    | succ count =>
      have hread : read (count + 1) (ofList (item :: items) ++ none :: rest) =
          (read count (ofList items ++ none :: rest)).map
            fun result => (item :: result.1, result.2) := rfl
      rw [hread, ih (Nat.lt_of_succ_lt_succ hcount)]
      rfl

/-! ## A line -/

variable [DecidableEq α] {newline : α}

/-- Read up to the first newline and with it, or to the end of the stream. -/
def readline (newline : α) : Stream α → Option (List α × Stream α)
  | [] => some ([], [])
  | none :: _ => none
  | some item :: rest =>
    if item = newline then some ([item], rest)
    else (readline newline rest).map fun result => (item :: result.1, result.2)

/-- A text that ends with its only newline. -/
def IsLine (newline : α) (line : List α) : Prop :=
  ∃ text, line = text ++ [newline] ∧ newline ∉ text

theorem readline_line (hline : IsLine newline line) (rest : Stream α) :
    readline newline (ofList line ++ rest) = some (line, rest) := by
  obtain ⟨text, rfl, hnot⟩ := hline
  induction text with
  | nil => exact if_pos rfl
  | cons item text ih =>
    rw [List.mem_cons, not_or] at hnot
    have hread : readline newline (ofList (item :: text ++ [newline]) ++ rest) =
        (readline newline (ofList (text ++ [newline]) ++ rest)).map
          fun result => (item :: result.1, result.2) := if_neg (Ne.symm hnot.1)
    rw [hread, ih hnot.2]
    rfl

/-- A line whose end does not come. -/
theorem readline_stalled (hline : IsLine newline line) {sent : ℕ} (hsent : sent < line.length)
    (rest : Stream α) : readline newline (ofList (line.take sent) ++ none :: rest) = none := by
  obtain ⟨text, rfl, hnot⟩ := hline
  induction text generalizing sent with
  | nil =>
    have hzero : sent = 0 := by simpa using hsent
    rw [hzero]
    rfl
  | cons item text ih =>
    rw [List.mem_cons, not_or] at hnot
    cases sent with
    | zero => rfl
    | succ sent =>
      have hread : readline newline
          (ofList ((item :: text ++ [newline]).take (sent + 1)) ++ none :: rest) =
          (readline newline (ofList ((text ++ [newline]).take sent) ++ none :: rest)).map
            fun result => (item :: result.1, result.2) := if_neg (Ne.symm hnot.1)
      rw [hread, ih hnot.2 (Nat.lt_of_succ_lt_succ hsent)]
      rfl

omit [DecidableEq α] in
theorem IsLine.ne_nil (hline : IsLine newline line) : line ≠ [] := by
  obtain ⟨text, rfl, _⟩ := hline
  simp

theorem eq_append_of_readline (hread : readline newline stream = some (line, rest)) :
    stream = ofList line ++ rest := by
  induction stream generalizing line with
  | nil =>
    obtain ⟨rfl, rfl⟩ := Prod.mk.inj (Option.some.inj hread)
    rfl
  | cons entry stream ih =>
    cases entry with
    | none => exact absurd hread (by simp [readline])
    | some item =>
      rw [readline] at hread
      split at hread
      · obtain ⟨rfl, rfl⟩ := Prod.mk.inj (Option.some.inj hread)
        rfl
      · rw [Option.map_eq_some_iff] at hread
        obtain ⟨result, hresult, heq⟩ := hread
        obtain ⟨rfl, rfl⟩ := Prod.mk.inj heq
        exact congrArg (some item :: ·) (ih hresult)

theorem length_of_readline (hread : readline newline stream = some (line, rest)) :
    stream.length = line.length + rest.length := by
  rw [eq_append_of_readline hread, List.length_append, length_ofList]

/-- A line is empty only at the end of the stream. -/
theorem readline_eq_nil (hread : readline newline stream = some ([], rest)) :
    stream = [] ∧ rest = [] := by
  cases stream with
  | nil => exact ⟨rfl, (Prod.mk.inj (Option.some.inj hread)).2.symm⟩
  | cons entry stream =>
    cases entry with
    | none => exact absurd hread (by simp [readline])
    | some item =>
      rw [readline] at hread
      split at hread
      · exact absurd hread (by simp)
      · rw [Option.map_eq_some_iff] at hread
        obtain ⟨_, _, heq⟩ := hread
        exact absurd (Prod.mk.inj heq).1 (by simp)

/-! ## Loops -/

/-- Go on with `body` until it gives a result, `fuel` times at most. -/
def repeatFor (body : σ → σ ⊕ β) (exhausted : σ → β) : ℕ → σ → β
  | 0, state => exhausted state
  | fuel + 1, state =>
    match body state with
    | .inl next => repeatFor body exhausted fuel next
    | .inr result => result

/-- A loop whose state gets smaller. -/
def loop (size : σ → ℕ) (body : σ → σ ⊕ β) (exhausted : σ → β) (state : σ) : β :=
  repeatFor body exhausted (size state + 1) state

section Loop

variable {size : σ → ℕ} {body : σ → σ ⊕ β} {exhausted : σ → β}

variable {state : σ}

/-- More fuel than the size of the state does not matter. -/
theorem repeatFor_congr (hsmaller : ∀ state next, body state = .inl next → size next < size state)
    {fuel more : ℕ} (hfuel : size state < fuel) (hmore : size state < more) :
    repeatFor body exhausted fuel state = repeatFor body exhausted more state := by
  induction fuel generalizing more state with
  | zero => exact absurd hfuel (Nat.not_lt_zero _)
  | succ fuel ih =>
    cases more with
    | zero => exact absurd hmore (Nat.not_lt_zero _)
    | succ more =>
      rw [repeatFor, repeatFor]
      cases hbody : body state with
      | inr result => rfl
      | inl next =>
        have hnext := hsmaller state next hbody
        exact ih (lt_of_lt_of_le hnext (Nat.le_of_lt_succ hfuel))
          (lt_of_lt_of_le hnext (Nat.le_of_lt_succ hmore))

/-- A turn that gives the result. -/
theorem loop_of_inr {result : β} (hbody : body state = .inr result) :
    loop size body exhausted state = result := by
  rw [loop, repeatFor, hbody]

/-- A turn that goes on. -/
theorem loop_of_inl (hsmaller : ∀ state next, body state = .inl next → size next < size state)
    {next : σ} (hbody : body state = .inl next) :
    loop size body exhausted state = loop size body exhausted next := by
  have hnext := hsmaller state next hbody
  rw [loop, repeatFor, hbody]
  exact repeatFor_congr hsmaller hnext (Nat.lt_succ_self _)

/-- What every result of a turn has, the result of the loop has. -/
theorem loop_rule (inv : σ → Prop) (good : β → Prop)
    (hsmaller : ∀ state next, body state = .inl next → size next < size state)
    (hgo : ∀ state next, inv state → body state = .inl next → inv next)
    (hresult : ∀ state result, inv state → body state = .inr result → good result)
    (hinv : inv state) : good (loop size body exhausted state) := by
  induction hsize : size state using Nat.strong_induction_on generalizing state with
  | _ n ih =>
    cases hbody : body state with
    | inr result =>
      rw [loop_of_inr hbody]
      exact hresult state result hinv hbody
    | inl next =>
      rw [loop_of_inl hsmaller hbody]
      exact ih (size next) (hsize ▸ hsmaller state next hbody) (hgo state next hinv hbody) rfl

end Loop

end RootSeeker.Streams
