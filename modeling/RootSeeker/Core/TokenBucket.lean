import Mathlib

/-!
# Token buckets

A bucket refills with time up to its capacity, and every grant takes one token.
What a bucket still allows in a window of time is bounded by its allowance,
which every request pays for.
-/

namespace RootSeeker.TokenBucket

variable {K : Type*} [Field K] [LinearOrder K]

structure Bucket (K : Type*) where
  tokens : K
  lastUpdate : K
  deriving DecidableEq

namespace Bucket

def refill (capacity rate : K) (now : K) (bucket : Bucket K) : Bucket K where
  tokens := min capacity (bucket.tokens + (now - bucket.lastUpdate) * rate)
  lastUpdate := now

/-- Whether there is a token, and the bucket without it. -/
def take (bucket : Bucket K) : Bool × Bucket K :=
  if 1 ≤ bucket.tokens then (true, { bucket with tokens := bucket.tokens - 1 })
  else (false, bucket)

/-- A request at a time; the bucket of the first request is full. -/
def request (capacity rate now : K) (bucket : Option (Bucket K)) : Bool × Bucket K :=
  ((bucket.getD ⟨capacity, now⟩).refill capacity rate now).take

structure Bounded (capacity : K) (bucket : Bucket K) : Prop where
  nonneg : 0 ≤ bucket.tokens
  le_capacity : bucket.tokens ≤ capacity

/-- How many requests a bucket can still grant between `start` and `stop`. -/
def allowance (capacity rate start stop : K) : Option (Bucket K) → K
  | none => capacity + (stop - start) * rate
  | some bucket =>
    if bucket.lastUpdate < start then capacity + (stop - start) * rate
    else if bucket.lastUpdate ≤ stop then
      bucket.tokens + (stop - bucket.lastUpdate) * rate
    else 0

/-- What a request at `now` uses up of the allowance. -/
def cost (start stop now : K) (granted : Bool) : K :=
  if granted ∧ start ≤ now ∧ now ≤ stop then 1 else 0

section Request

variable {capacity rate now : K}

theorem take_lastUpdate (bucket : Bucket K) : bucket.take.2.lastUpdate = bucket.lastUpdate := by
  rw [take]
  split <;> rfl

@[simp]
theorem request_lastUpdate (bucket : Option (Bucket K)) :
    (request capacity rate now bucket).2.lastUpdate = now :=
  take_lastUpdate _

/-- Taking a token leaves what was there, less the token. -/
theorem tokens_take (bucket : Bucket K) :
    (if bucket.take.1 then 1 else 0) + bucket.take.2.tokens = bucket.tokens := by
  rw [take]
  split
  · exact add_sub_cancel _ _
  · simp

variable {start : K} {bucket : Option (Bucket K)} {stop : K}

theorem cost_eq (hstart : start ≤ now) (hstop : now ≤ stop) (granted : Bool) :
    cost start stop now granted = if granted then 1 else 0 := by
  simp [cost, hstart, hstop]

theorem cost_eq_zero (houtside : now < start ∨ stop < now) (granted : Bool) :
    cost start stop now granted = 0 := by
  apply if_neg
  rintro ⟨_, hstart, hstop⟩
  cases houtside with
  | inl hearly => exact hstart.not_gt hearly
  | inr hlate => exact hstop.not_gt hlate

variable [IsStrictOrderedRing K]

theorem Bounded.take {bucket : Bucket K} (hbounded : bucket.Bounded capacity) :
    bucket.take.2.Bounded capacity := by
  rw [Bucket.take]
  split
  · rename_i htoken
    exact ⟨sub_nonneg.mpr htoken, (sub_le_self _ zero_le_one).trans hbounded.le_capacity⟩
  · exact hbounded

theorem Bounded.refill (hrate : 0 ≤ rate) {bucket : Bucket K} (hbounded : bucket.Bounded capacity)
    (hnow : bucket.lastUpdate ≤ now) : (bucket.refill capacity rate now).Bounded capacity := by
  have hgain : 0 ≤ (now - bucket.lastUpdate) * rate :=
    mul_nonneg (sub_nonneg.mpr hnow) hrate
  have hcapacity : 0 ≤ capacity := hbounded.nonneg.trans hbounded.le_capacity
  exact ⟨le_min hcapacity (add_nonneg hbounded.nonneg hgain), min_le_left _ _⟩

/-- A request keeps the bucket between empty and full. -/
theorem bounded_request (hcapacity : 0 ≤ capacity) (hrate : 0 ≤ rate)
    (hbounded : ∀ old ∈ bucket, old.Bounded capacity) (hnow : ∀ old ∈ bucket, old.lastUpdate ≤ now) :
    (request capacity rate now bucket).2.Bounded capacity := by
  apply Bounded.take
  cases bucket with
  | none => exact Bounded.refill hrate ⟨hcapacity, le_rfl⟩ le_rfl
  | some old => exact Bounded.refill hrate (hbounded old rfl) (hnow old rfl)

/-- After a refill inside the window the allowance is no larger than before. -/
theorem refilled_allowance_le (hrate : 0 ≤ rate) (hstart : start ≤ now) (hstop : now ≤ stop)
    (hnow : ∀ old ∈ bucket, old.lastUpdate ≤ now) :
    ((bucket.getD ⟨capacity, now⟩).refill capacity rate now).tokens +
      (stop - now) * rate ≤ allowance capacity rate start stop bucket := by
  have hwindow : (stop - now) * rate ≤ (stop - start) * rate :=
    mul_le_mul_of_nonneg_right (sub_le_sub_left hstart stop) hrate
  cases bucket with
  | none => exact add_le_add (min_le_left _ _) hwindow
  | some old =>
    rw [allowance]
    split
    · exact add_le_add (min_le_left _ _) hwindow
    · rw [if_pos ((hnow old rfl).trans hstop)]
      calc ((some old).getD ⟨capacity, now⟩ |>.refill capacity rate now).tokens +
            (stop - now) * rate
          ≤ old.tokens + (now - old.lastUpdate) * rate + (stop - now) * rate :=
            add_le_add (min_le_right _ _) le_rfl
        _ = old.tokens + (stop - old.lastUpdate) * rate := by ring

theorem allowance_nonneg (hcapacity : 0 ≤ capacity) (hrate : 0 ≤ rate) (hwindow : start ≤ stop)
    (hbounded : ∀ old ∈ bucket, old.Bounded capacity) :
    0 ≤ allowance capacity rate start stop bucket := by
  have hfull : 0 ≤ capacity + (stop - start) * rate :=
    add_nonneg hcapacity (mul_nonneg (sub_nonneg.mpr hwindow) hrate)
  cases bucket with
  | none => exact hfull
  | some old =>
    rw [allowance]
    split
    · exact hfull
    · split
      · rename_i hstop
        exact add_nonneg (hbounded old rfl).nonneg (mul_nonneg (sub_nonneg.mpr hstop) hrate)
      · exact le_rfl

/-- Every request is paid for by the allowance. -/
theorem cost_add_allowance_le (hcapacity : 0 ≤ capacity) (hrate : 0 ≤ rate) (hwindow : start ≤ stop)
    (hbounded : ∀ old ∈ bucket, old.Bounded capacity) (hnow : ∀ old ∈ bucket, old.lastUpdate ≤ now) :
    cost start stop now (request capacity rate now bucket).1 +
        allowance capacity rate start stop (some (request capacity rate now bucket).2) ≤
      allowance capacity rate start stop bucket := by
  rw [allowance, request_lastUpdate]
  by_cases hearly : now < start
  · -- Before the window a request changes nothing in it.
    have hsame : allowance capacity rate start stop bucket = capacity + (stop - start) * rate := by
      cases bucket with
      | none => rfl
      | some old => exact if_pos ((hnow old rfl).trans_lt hearly)
    rw [if_pos hearly, cost_eq_zero (Or.inl hearly), zero_add, hsame]
  · have hstart : start ≤ now := not_lt.mp hearly
    rw [if_neg hearly]
    by_cases hstop : now ≤ stop
    · rw [if_pos hstop, cost_eq hstart hstop, ← add_assoc, request, tokens_take]
      exact refilled_allowance_le hrate hstart hstop hnow
    · rw [if_neg hstop, cost_eq_zero (Or.inr (not_le.mp hstop)), zero_add]
      exact allowance_nonneg hcapacity hrate hwindow hbounded

/-- Waiting until the missing part of a token has flowed in is enough. -/
theorem granted_of_wait (hcapacity : 1 ≤ capacity) (hrate : 0 < rate) {bucket : Bucket K}
    {later : K} (hwait : bucket.lastUpdate + (1 - bucket.tokens) / rate ≤ later) :
    (request capacity rate later (some bucket)).1 = true := by
  have hgain : 1 - bucket.tokens ≤ (later - bucket.lastUpdate) * rate :=
    (div_le_iff₀ hrate).mp (le_sub_iff_add_le'.mpr hwait)
  have htoken : 1 ≤ (bucket.refill capacity rate later).tokens :=
    le_min hcapacity (sub_le_iff_le_add'.mp hgain)
  rw [request, take]
  exact congrArg Prod.fst (if_pos htoken)

end Request

end Bucket

end RootSeeker.TokenBucket
