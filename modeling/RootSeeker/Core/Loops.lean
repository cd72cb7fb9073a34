import Mathlib

/-!
# Loops that may raise

Rules for the loops of a language with exceptions, read in `Except`: a loop
whose body never raises under its invariant does not raise, and ends with the
invariant for the empty rest.
-/

namespace RootSeeker.Loops

variable {ε α β σ : Type*}

/-- A computation that returned had a first step that returned. -/
theorem exists_of_bind_eq_ok.{u, v} {ε : Type u} {α β : Type v} {first : Except ε α}
    {next : α → Except ε β} {result : β} (hok : (first >>= next) = .ok result) :
    ∃ value, first = .ok value ∧ next value = .ok result := by
  cases first with
  | error raised => exact absurd hok (by simp [bind, Except.bind])
  | ok value => exact ⟨value, rfl, hok⟩

theorem exists_of_map_eq_ok {first : Except ε α} {next : α → β} {result : β}
    (hok : first.map next = .ok result) : ∃ value, first = .ok value ∧ next value = result := by
  cases first with
  | error raised => exact absurd hok (by simp [Except.map])
  | ok value => exact ⟨value, rfl, Except.ok.inj hok⟩

/-- The rule for `for item in items`: the invariant speaks about the items
still to be visited. -/
theorem foldlM_ok {body : σ → α → Except ε σ} (invariant : List α → σ → Prop)
    (hbody : ∀ item rest state, invariant (item :: rest) state →
      ∃ next, body state item = .ok next ∧ invariant rest next)
    (items : List α) (state : σ) (hstart : invariant items state) :
    ∃ final, items.foldlM body state = .ok final ∧ invariant [] final := by
  induction items generalizing state with
  | nil => exact ⟨state, rfl, hstart⟩
  | cons item rest ih =>
    obtain ⟨next, hnext, hinvariant⟩ := hbody item rest state hstart
    obtain ⟨final, hfinal, hend⟩ := ih next hinvariant
    refine ⟨final, ?_, hend⟩
    rw [List.foldlM_cons, hnext]
    exact hfinal

variable {items : List α} {values : List β} {body : α → Except ε β}
  {related : α → β → Prop}

/-- A comprehension whose body never raises keeps one value for each item; the
values have the keys of the items. -/
theorem mapM_keyed {κ : Type*} {itemKey : α → κ} {valueKey : β → κ} {good : β → Prop}
    (hbody : ∀ item ∈ items, ∃ value, body item = .ok value ∧
      valueKey value = itemKey item ∧ good value) :
    ∃ values, items.mapM body = .ok values ∧
      values.map valueKey = items.map itemKey ∧ ∀ value ∈ values, good value := by
  induction items with
  | nil => exact ⟨[], rfl, rfl, by simp⟩
  | cons item rest ih =>
    obtain ⟨value, hvalue, hkey, hgood⟩ := hbody item List.mem_cons_self
    obtain ⟨values, hvalues, hkeys, hrest⟩ :=
      ih fun other hother => hbody other (List.mem_cons_of_mem _ hother)
    refine ⟨value :: values, ?_, ?_, List.forall_mem_cons.mpr ⟨hgood, hrest⟩⟩
    · rw [List.mapM_cons, hvalue, hvalues]
      rfl
    · rw [List.map_cons, List.map_cons, hkey, hkeys]

theorem mapM_ok {good : β → Prop}
    (hbody : ∀ item ∈ items, ∃ value, body item = .ok value ∧ good value) :
    ∃ values, items.mapM body = .ok values ∧ ∀ value ∈ values, good value := by
  have hkeyed : ∀ item ∈ items, ∃ value, body item = .ok value ∧
      (fun _ => ()) value = (fun _ => ()) item ∧ good value := by
    intro item hitem
    obtain ⟨value, hvalue, hgood⟩ := hbody item hitem
    exact ⟨value, hvalue, rfl, hgood⟩
  obtain ⟨values, hvalues, _, hall⟩ := mapM_keyed hkeyed
  exact ⟨values, hvalues, hall⟩

/-- A comprehension that does not raise has one value for each item, in order. -/
theorem forall₂_of_mapM_ok (hvalues : items.mapM body = .ok values) :
    List.Forall₂ (fun item value => body item = .ok value) items values := by
  induction items generalizing values with
  | nil =>
    obtain rfl := Except.ok.inj hvalues
    exact List.Forall₂.nil
  | cons item rest ih =>
    rw [List.mapM_cons] at hvalues
    cases hitem : body item with
    | error raised =>
      rw [hitem] at hvalues
      exact absurd hvalues (by simp [bind, Except.bind])
    | ok value =>
      cases hrest : rest.mapM body with
      | error raised =>
        rw [hitem, hrest] at hvalues
        exact absurd hvalues (by simp [bind, Except.bind])
      | ok others =>
        rw [hitem, hrest] at hvalues
        obtain rfl := Except.ok.inj hvalues
        exact List.Forall₂.cons hitem (ih hrest)

/-- A partial function has a value for every item, or the list has none. -/
theorem mapM_eq_some_iff {read : α → Option β} :
    items.mapM read = some values ↔
      List.Forall₂ (fun item value => read item = some value) items values := by
  induction items generalizing values with
  | nil => simp [List.mapM_nil, eq_comm]
  | cons item rest ih =>
    rw [List.mapM_cons, List.forall₂_cons_left_iff]
    simp only [Option.bind_eq_bind, Option.bind_eq_some_iff, ih, Option.pure_def, Option.some.injEq]
    constructor
    · rintro ⟨value, hvalue, others, hothers, rfl⟩
      exact ⟨value, others, hvalue, hothers, rfl⟩
    · rintro ⟨value, others, hvalue, hothers, rfl⟩
      exact ⟨value, hvalue, others, hothers, rfl⟩

theorem exists_item_of_mem (hrelated : List.Forall₂ related items values) {value : β}
    (hvalue : value ∈ values) : ∃ item ∈ items, related item value := by
  induction hrelated with
  | nil => exact absurd hvalue List.not_mem_nil
  | cons hhead _ ih =>
    rcases List.mem_cons.mp hvalue with rfl | hrest
    · exact ⟨_, List.mem_cons_self, hhead⟩
    · obtain ⟨item, hitem, hvalueRelated⟩ := ih hrest
      exact ⟨item, List.mem_cons_of_mem _ hitem, hvalueRelated⟩

/-- A comprehension returns exactly when its body does for every item. -/
theorem exists_mapM_ok_iff (body : α → Except ε β) (items : List α) :
    (∃ values, items.mapM body = .ok values) ↔ ∀ item ∈ items, ∃ value, body item = .ok value := by
  induction items with
  | nil =>
    constructor
    · intro _ item hitem
      exact absurd hitem List.not_mem_nil
    · intro _
      exact ⟨[], rfl⟩
  | cons item rest ih =>
    rw [List.forall_mem_cons, ← ih, List.mapM_cons]
    cases hitem : body item with
    | error raised =>
      constructor
      · intro hvalues
        obtain ⟨values, hvalues⟩ := hvalues
        exact absurd hvalues (by simp [bind, Except.bind])
      · intro hboth
        obtain ⟨⟨value, hvalue⟩, _⟩ := hboth
        exact absurd hvalue (by simp)
    | ok value =>
      cases hrest : rest.mapM body with
      | error raised => simp [bind, Except.bind]
      | ok others => simp [bind, Except.bind, pure, Except.pure]

theorem forall₂_tail (hrelated : List.Forall₂ related items values) :
    List.Forall₂ related items.tail values.tail := by
  cases hrelated with
  | nil => exact List.Forall₂.nil
  | cons _ hrest => exact hrest

/-- What related elements share holds of all on the left iff of all on the right. -/
theorem forall_mem_iff_of_forall₂ (hrelated : List.Forall₂ related items values) {P : α → Prop}
    {Q : β → Prop} (hiff : ∀ item value, related item value → (P item ↔ Q value)) :
    (∀ item ∈ items, P item) ↔ ∀ value ∈ values, Q value := by
  induction hrelated with
  | nil => simp
  | cons hhead _ ih => rw [List.forall_mem_cons, List.forall_mem_cons, ih, hiff _ _ hhead]

/-- A comprehension raises the one exception its body can raise. -/
theorem mapM_error {error : ε} (hbody : ∀ item ∈ items,
      (∃ value, body item = .ok value) ∨ body item = .error error)
    (hraises : ∃ item ∈ items, body item = .error error) : items.mapM body = .error error := by
  induction items with
  | nil => exact absurd hraises (by simp)
  | cons item rest ih =>
    rw [List.mapM_cons]
    rcases hbody item List.mem_cons_self with ⟨value, hvalue⟩ | hitem
    · obtain ⟨other, hother, hotherRaises⟩ := hraises
      have hrest : other ∈ rest := by
        rcases List.mem_cons.mp hother with rfl | hrest
        · rw [hvalue] at hotherRaises
          exact absurd hotherRaises (by simp)
        · exact hrest
      rw [hvalue, ih (fun next hnext => hbody next (List.mem_cons_of_mem _ hnext))
        ⟨other, hrest, hotherRaises⟩]
      rfl
    · rw [hitem]
      rfl

theorem anyM_ok {body : α → Except ε Bool} {value : α → Bool}
    (hbody : ∀ item ∈ items, body item = .ok (value item)) :
    items.anyM body = .ok (items.any value) := by
  induction items with
  | nil => rfl
  | cons item rest ih =>
    rw [List.anyM, hbody item List.mem_cons_self, List.any_cons]
    have hrest := ih fun other hother => hbody other (List.mem_cons_of_mem _ hother)
    cases hvalue : value item with
    | true => rfl
    | false => simpa [bind, Except.bind] using hrest

/-- What holds at the start and is kept by a body that returns holds at the end. -/
theorem foldlM_preserves {body : σ → α → Except ε σ} (inv : σ → Prop)
    (hbody : ∀ state item next, inv state → body state item = .ok next → inv next) {start final : σ}
    (hstart : inv start) (hloop : items.foldlM body start = .ok final) : inv final := by
  induction items generalizing start with
  | nil =>
    obtain rfl := Except.ok.inj hloop
    exact hstart
  | cons item rest ih =>
    rw [List.foldlM_cons] at hloop
    obtain ⟨next, hnext, hrest⟩ := exists_of_bind_eq_ok hloop
    exact ih (hbody start item next hstart hnext) hrest

/-- A loop that first reads each item goes through exactly when all can be read and the loop
over what was read goes through. -/
theorem foldlM_bind_eq_ok_iff {read : α → Except ε β} {body : σ → β → Except ε σ} {start final : σ} :
    items.foldlM (fun state item => (read item).bind (body state)) start = .ok final ↔
      ∃ values, items.mapM read = .ok values ∧ values.foldlM body start = .ok final := by
  induction items generalizing start with
  | nil => simp [List.mapM_nil, pure, Except.pure]
  | cons item rest ih =>
    rw [List.foldlM_cons, List.mapM_cons]
    cases hread : read item with
    | error raised => simp [bind, Except.bind]
    | ok value =>
      cases hbody : body start value with
      | error raised =>
        cases hrest : rest.mapM read with
        | error other => simp [bind, Except.bind, hbody]
        | ok values => simp [bind, Except.bind, pure, Except.pure, hbody]
      | ok next =>
        have hnext : List.foldlM (fun state item => (read item).bind (body state)) next
            rest = .ok final ↔ _ := ih
        cases hrest : rest.mapM read with
        | error other =>
          rw [hrest] at hnext
          simpa [bind, Except.bind, hbody] using hnext
        | ok values =>
          rw [hrest] at hnext
          simpa [bind, Except.bind, pure, Except.pure, hbody] using hnext

theorem foldlM_congr {body other : σ → α → Except ε σ}
    (hbody : ∀ item ∈ items, ∀ state, body state item = other state item) (start : σ) :
    items.foldlM body start = items.foldlM other start := by
  induction items generalizing start with
  | nil => rfl
  | cons item rest ih =>
    rw [List.forall_mem_cons] at hbody
    rw [List.foldlM_cons, List.foldlM_cons, hbody.1]
    exact congrArg _ (funext (ih hbody.2))

end RootSeeker.Loops
