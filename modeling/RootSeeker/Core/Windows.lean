import Mathlib

/-!
# Windows on a log

Two listings of a log, each with its own filter and both cut to the newest
entries: one shows the window oldest first, the other newest first.
-/

namespace RootSeeker.Windows

variable {α κ : Type*} [LinearOrder κ] {time : α → κ} {items : List α} {left right : α → Bool}

/-- The entries are listed in the order of their times, which differ. -/
def Ascending (time : α → κ) (items : List α) : Prop :=
  items.Pairwise fun earlier later => time earlier < time later

/-- The first entries, all of them where there is no limit. -/
def cut (limit : Option ℕ) (items : List α) : List α :=
  limit.elim items fun count => items.take count

def newestFirst (limit : Option ℕ) (keep : α → Bool) (items : List α) : List α :=
  cut limit (items.filter keep).reverse

def oldestFirst (limit : Option ℕ) (keep : α → Bool) (items : List α) : List α :=
  (newestFirst limit keep items).reverse

/-- Every entry that only one filter keeps is older than one that both keep. -/
def SameNewest (time : α → κ) (left right : α → Bool) (items : List α) : Prop :=
  ∀ item ∈ items, left item ≠ right item →
    ∃ newer ∈ items, (left newer ∧ right newer) ∧ time item < time newer

/-- Both filters keep the same entries, at most one. -/
def SameSingle (left right : α → Bool) (items : List α) : Prop :=
  (∀ item ∈ items, left item = right item) ∧ (items.filter left).length ≤ 1

/-- When the two listings of the window are the same. -/
def Indistinct (time : α → κ) (limit : Option ℕ) (left right : α → Bool)
    (items : List α) : Prop :=
  if limit = some 1 then SameNewest time left right items else SameSingle left right items

theorem Ascending.filter (hitems : Ascending time items) (keep : α → Bool) :
    Ascending time (items.filter keep) :=
  List.Pairwise.filter keep hitems

/-- Sorting by the time finds the log again. -/
theorem insertionSort_eq_of_ascending {shuffled : List α} (hperm : shuffled.Perm items)
    (hitems : Ascending time items) :
    shuffled.insertionSort (fun earlier later => time earlier ≤ time later) = items := by
  have hsorted : (shuffled.insertionSort fun earlier later => time earlier ≤ time later).Pairwise
      fun earlier later => time earlier ≤ time later :=
    List.pairwise_insertionSort _ shuffled
  have hperms := (List.perm_insertionSort (fun earlier later => time earlier ≤ time later)
    shuffled).trans hperm
  apply hperms.eq_of_pairwise _ hsorted (hitems.imp le_of_lt)
  intro left right hleft hright hle hge
  have hinjective : (items.map time).Nodup :=
    List.pairwise_map.mpr (hitems.imp ne_of_lt)
  exact List.inj_on_of_nodup_map hinjective (hperms.subset hleft) hright (le_antisymm hle hge)

/-- Reading the log backwards reverses the order of the times. -/
theorem Ascending.reverse (hitems : Ascending time items) :
    Ascending (fun item => OrderDual.toDual (time item)) items.reverse :=
  List.pairwise_reverse.mpr hitems

theorem Ascending.comp {κ' : Type*} [LinearOrder κ'] {encode : κ → κ'} (hencode : StrictMono encode)
    (hitems : Ascending time items) : Ascending (fun item => encode (time item)) items :=
  hitems.imp fun hlt => hencode hlt

theorem cut_sublist (limit : Option ℕ) (items : List α) : (cut limit items).Sublist items := by
  cases limit with
  | none => exact List.Sublist.refl items
  | some count => exact List.take_sublist count items

variable {limit : Option ℕ} {keep : α → Bool}

theorem cut_eq_self (hlimit : limit ≠ some 0) (hitems : items.length ≤ 1) :
    cut limit items = items := by
  cases limit with
  | none => rfl
  | some count =>
    have hcount : count ≠ 0 := fun hzero => hlimit (congrArg some hzero)
    exact List.take_of_length_le (by omega)

/-- The newest entries, newest first, are in descending order. -/
theorem newestFirst_descending (hitems : Ascending time items) (limit : Option ℕ) (keep : α → Bool) :
    (newestFirst limit keep items).Pairwise fun later earlier => time earlier < time later := by
  apply List.Pairwise.sublist (cut_sublist limit _)
  exact List.pairwise_reverse.mpr (hitems.filter keep)

/-- Only a short list reads the same in both directions. -/
theorem length_le_one_of_reverse {newest other : List α}
    (hnewest : newest.Pairwise fun later earlier => time earlier < time later)
    (hother : other.Pairwise fun later earlier => time earlier < time later)
    (hsame : newest.reverse = other) : newest.length ≤ 1 := by
  subst hsame
  have hascending : newest.Pairwise fun earlier later => time earlier < time later :=
    List.pairwise_reverse.mp hother
  match newest, hnewest, hascending with
  | [], _, _ => exact Nat.zero_le 1
  | [_], _, _ => exact le_refl 1
  | first :: second :: _, hnewest, hascending =>
    have hlater : time second < time first := List.rel_of_pairwise_cons hnewest (by simp)
    have hearlier : time first < time second :=
      List.rel_of_pairwise_cons hascending (by simp)
    exact absurd hlater hearlier.asymm

theorem reverse_eq_self {items : List α} (hitems : items.length ≤ 1) : items.reverse = items := by
  match items, hitems with
  | [], _ => rfl
  | [_], _ => rfl

/-- The two listings agree exactly when they show the same window of at most one entry. -/
theorem oldestFirst_eq_iff_window (hitems : Ascending time items) (limit : Option ℕ) :
    oldestFirst limit left items = newestFirst limit right items ↔
      newestFirst limit left items = newestFirst limit right items ∧
        (newestFirst limit left items).length ≤ 1 := by
  constructor
  · intro hsame
    have hshort := length_le_one_of_reverse (newestFirst_descending hitems limit left)
      (newestFirst_descending hitems limit right) hsame
    exact ⟨(reverse_eq_self hshort).symm.trans hsame, hshort⟩
  · rintro ⟨hsame, hshort⟩
    exact (reverse_eq_self hshort).trans hsame

theorem head?_newest_eq_some_iff (hitems : Ascending time items) {item : α} :
    (items.filter keep).reverse.head? = some item ↔
      (item ∈ items ∧ keep item) ∧
        ∀ other ∈ items, keep other → other = item ∨ time other < time item := by
  have hdescending : (items.filter keep).reverse.Pairwise
      fun later earlier => time earlier < time later :=
    List.pairwise_reverse.mpr (hitems.filter keep)
  have hmem : ∀ other, other ∈ (items.filter keep).reverse ↔ other ∈ items ∧ keep other := by
    intro other
    rw [List.mem_reverse, List.mem_filter]
  revert hdescending hmem
  generalize (items.filter keep).reverse = newest
  intro hdescending hmem
  cases newest with
  | nil =>
    apply iff_of_false (by simp)
    rintro ⟨hitem, _⟩
    exact absurd ((hmem item).mpr hitem) List.not_mem_nil
  | cons first rest =>
    rw [List.head?_cons, Option.some.injEq]
    have hfirst := (hmem first).mp List.mem_cons_self
    constructor
    · rintro rfl
      refine ⟨hfirst, fun other hother hkeep => ?_⟩
      apply (List.mem_cons.mp ((hmem other).mpr ⟨hother, hkeep⟩)).imp_right
      exact List.rel_of_pairwise_cons hdescending
    · rintro ⟨hitem, hnewest⟩
      apply (hnewest first hfirst.1 hfirst.2).resolve_right
      intro hlater
      apply (List.mem_cons.mp ((hmem item).mpr hitem)).elim
      · rintro rfl
        exact lt_irrefl _ hlater
      · intro hrest
        exact (List.rel_of_pairwise_cons hdescending hrest).asymm hlater

theorem sameNewest_symm (hsame : SameNewest time left right items) :
    SameNewest time right left items := by
  intro item hitem hdiffer
  obtain ⟨newer, hnewer, hboth, hlater⟩ := hsame item hitem (Ne.symm hdiffer)
  exact ⟨newer, hnewer, hboth.symm, hlater⟩

theorem head?_newest_of_sameNewest (hitems : Ascending time items)
    (hsame : SameNewest time left right items) {item : α}
    (hleft : (items.filter left).reverse.head? = some item) :
    (items.filter right).reverse.head? = some item := by
  rw [head?_newest_eq_some_iff hitems] at hleft ⊢
  obtain ⟨⟨hitem, hkept⟩, hnewest⟩ := hleft
  have hright : right item = true := by
    by_contra hnot
    obtain ⟨newer, hnewer, hboth, hlater⟩ := hsame item hitem (by simp [hkept, hnot])
    cases hnewest newer hnewer hboth.1 with
    | inl hself => exact absurd (hself ▸ hlater) (lt_irrefl _)
    | inr hearlier => exact absurd hlater hearlier.asymm
  refine ⟨⟨hitem, hright⟩, fun other hother hkeep => ?_⟩
  by_cases hboth : left other = true
  · exact hnewest other hother hboth
  · obtain ⟨newer, hnewer, hnewerBoth, hlater⟩ := hsame other hother (by simp [hkeep, hboth])
    cases hnewest newer hnewer hnewerBoth.1 with
    | inl hself => exact Or.inr (hself ▸ hlater)
    | inr hearlier => exact Or.inr (hlater.trans hearlier)

theorem exists_newest {item : α} (hitem : item ∈ items) (hkept : keep item = true) :
    ∃ newest, (items.filter keep).reverse.head? = some newest := by
  have hmem : item ∈ (items.filter keep).reverse :=
    List.mem_reverse.mpr (List.mem_filter.mpr ⟨hitem, hkept⟩)
  exact ⟨_, List.head?_eq_some_head (List.ne_nil_of_mem hmem)⟩

theorem sameNewest_iff (hitems : Ascending time items) :
    (items.filter left).reverse.head? = (items.filter right).reverse.head? ↔
      SameNewest time left right items := by
  constructor
  · intro hheads item hitem hdiffer
    have hsome : ∃ newest, (items.filter left).reverse.head? = some newest := by
      cases hleft : left item with
      | true => exact exists_newest hitem hleft
      | false =>
        rw [hheads]
        apply exists_newest hitem
        simpa [hleft] using hdiffer
    obtain ⟨newest, hleft⟩ := hsome
    have hright : (items.filter right).reverse.head? = some newest := hheads ▸ hleft
    rw [head?_newest_eq_some_iff hitems] at hleft hright
    refine ⟨newest, hleft.1.1, ⟨hleft.1.2, hright.1.2⟩, ?_⟩
    have hdistinct : item ≠ newest := by
      rintro rfl
      exact hdiffer (hleft.1.2.trans hright.1.2.symm)
    cases hvalue : left item with
    | true => exact (hleft.2 item hitem hvalue).resolve_left hdistinct
    | false =>
      cases hother : right item with
      | true => exact (hright.2 item hitem hother).resolve_left hdistinct
      | false => exact absurd (hvalue.trans hother.symm) hdiffer
  · intro hsame
    apply Option.ext
    intro item
    exact ⟨head?_newest_of_sameNewest hitems hsame,
      head?_newest_of_sameNewest hitems (sameNewest_symm hsame)⟩

theorem newestFirst_one (keep : α → Bool) (items : List α) :
    newestFirst (some 1) keep items = (items.filter keep).reverse.head?.toList := by
  rw [newestFirst, cut, Option.elim_some]
  cases (items.filter keep).reverse with
  | nil => rfl
  | cons first rest => rfl

theorem filter_eq_filter_iff :
    items.filter left = items.filter right ↔ ∀ item ∈ items, left item = right item := by
  constructor
  · intro hsame item hitem
    have hmem : item ∈ items.filter left ↔ item ∈ items.filter right := by rw [hsame]
    rw [List.mem_filter, List.mem_filter] at hmem
    exact Bool.eq_iff_iff.mpr (by simpa [hitem] using hmem)
  · exact List.filter_congr

/-- A window that is not cut to one entry and shows at most one shows everything. -/
theorem length_le_one_of_newestFirst (hzero : limit ≠ some 0) (hone : limit ≠ some 1)
    (hshort : (newestFirst limit keep items).length ≤ 1) : (items.filter keep).length ≤ 1 := by
  cases limit with
  | none => simpa [newestFirst, cut] using hshort
  | some count =>
    have hcount : count ≠ 0 ∧ count ≠ 1 := by simpa using And.intro hzero hone
    rw [newestFirst, cut, Option.elim_some, List.length_take, List.length_reverse] at hshort
    omega

/-- The two listings are the same exactly when the window cannot tell the orders and the
filters apart. -/
theorem oldestFirst_eq_newestFirst_iff (hitems : Ascending time items) (hzero : limit ≠ some 0) :
    oldestFirst limit left items = newestFirst limit right items ↔
      Indistinct time limit left right items := by
  rw [oldestFirst_eq_iff_window hitems]
  by_cases hone : limit = some 1
  · subst hone
    rw [Indistinct, if_pos rfl, ← sameNewest_iff hitems, newestFirst_one, newestFirst_one]
    cases (items.filter left).reverse.head? <;> cases (items.filter right).reverse.head? <;> simp
  · rw [Indistinct, if_neg hone, SameSingle, ← filter_eq_filter_iff]
    constructor
    · rintro ⟨hsame, hshort⟩
      have hleft := length_le_one_of_newestFirst hzero hone hshort
      have hright := length_le_one_of_newestFirst hzero hone (hsame ▸ hshort)
      rw [newestFirst, newestFirst, cut_eq_self hzero (by simpa using hleft),
        cut_eq_self hzero (by simpa using hright), List.reverse_inj] at hsame
      exact ⟨hsame, hleft⟩
    · rintro ⟨hsame, hshort⟩
      rw [newestFirst, newestFirst, ← hsame]
      refine ⟨rfl, ?_⟩
      rw [cut_eq_self hzero (by simpa using hshort), List.length_reverse]
      exact hshort

end RootSeeker.Windows
