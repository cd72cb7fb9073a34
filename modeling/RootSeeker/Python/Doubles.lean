import RootSeeker.Python.Json

/-!
# Finite doubles

A finite double is a rational number, and an operation on doubles rounds its
exact result to the nearest one, to the even one of two.  Results that are too
large for a double do not come up here.
-/

namespace RootSeeker.Python

/-- The nearest integer, the even one of two. -/
def roundHalfEven (value : ℚ) : ℤ :=
  let below := ⌊value⌋
  if value - below < 1 / 2 then below
  else if 1 / 2 < value - below then below + 1
  else if below % 2 = 0 then below
  else below + 1

/-- The exponent of the last bit of the doubles around a value. -/
def lastBit (value : ℚ) : ℤ :=
  max (Int.log 2 |value| - 52) (-1074)

def toDouble (value : ℚ) : ℚ :=
  roundHalfEven (value / 2 ^ lastBit value) * 2 ^ lastBit value

@[simp]
theorem toDouble_zero : toDouble 0 = 0 := by
  rw [toDouble, zero_div]
  norm_num [roundHalfEven]

/-! ## Rounding keeps the order -/

theorem roundHalfEven_intCast (n : ℤ) : roundHalfEven (n : ℚ) = n := by
  simp [roundHalfEven]

theorem floor_le_roundHalfEven (value : ℚ) : ⌊value⌋ ≤ roundHalfEven value := by
  rw [roundHalfEven]
  split_ifs <;> omega

theorem roundHalfEven_le_succ (value : ℚ) : roundHalfEven value ≤ ⌊value⌋ + 1 := by
  rw [roundHalfEven]
  split_ifs <;> omega

theorem roundHalfEven_mono {low high : ℚ} (hle : low ≤ high) :
    roundHalfEven low ≤ roundHalfEven high := by
  have hfloor : ⌊low⌋ ≤ ⌊high⌋ := Int.floor_mono hle
  rcases hfloor.lt_or_eq with hless | hsame
  · have hlow := roundHalfEven_le_succ low
    have hhigh := floor_le_roundHalfEven high
    omega
  · -- Between the same integers the fraction decides.
    rw [roundHalfEven, roundHalfEven, hsame]
    split_ifs <;> first | omega | (exfalso; linarith)

theorem lastBit_mono {low high : ℚ} (hpos : 0 < low) (hle : low ≤ high) :
    lastBit low ≤ lastBit high := by
  rw [lastBit, lastBit, abs_of_pos hpos, abs_of_pos (hpos.trans_le hle)]
  have hlog := Int.log_mono_right (b := 2) hpos hle
  omega

theorem toDouble_nonneg {value : ℚ} (hvalue : 0 ≤ value) : 0 ≤ toDouble value := by
  rw [toDouble]
  have hunit : (0 : ℚ) < 2 ^ lastBit value := zpow_pos two_pos _
  have hround := roundHalfEven_mono (div_nonneg hvalue hunit.le)
  have hzero : roundHalfEven 0 = 0 := by simpa using roundHalfEven_intCast 0
  rw [hzero] at hround
  exact mul_nonneg (by exact_mod_cast hround) hunit.le

/-- Rounding to multiples of a unit keeps a multiple as a bound. -/
theorem round_le_of_le {value unit : ℚ} {n : ℤ} (hunit : 0 < unit) (hle : value ≤ n * unit) :
    roundHalfEven (value / unit) * unit ≤ n * unit := by
  refine mul_le_mul_of_nonneg_right ?_ hunit.le
  have hround := roundHalfEven_mono ((div_le_iff₀ hunit).mpr hle)
  rw [roundHalfEven_intCast] at hround
  exact_mod_cast hround

theorem le_round_of_le {value unit : ℚ} {n : ℤ} (hunit : 0 < unit) (hle : n * unit ≤ value) :
    n * unit ≤ roundHalfEven (value / unit) * unit := by
  refine mul_le_mul_of_nonneg_right ?_ hunit.le
  have hround := roundHalfEven_mono ((le_div_iff₀ hunit).mpr hle)
  rw [roundHalfEven_intCast] at hround
  exact_mod_cast hround

theorem toDouble_mono {low high : ℚ} (hlow : 0 ≤ low) (hle : low ≤ high) :
    toDouble low ≤ toDouble high := by
  rcases hlow.eq_or_lt with rfl | hpos
  · rw [toDouble_zero]
    exact toDouble_nonneg hle
  have hhigh := hpos.trans_le hle
  rcases (lastBit_mono hpos hle).eq_or_lt with hsame | hless
  · rw [toDouble, toDouble, hsame]
    have hunit : (0 : ℚ) < 2 ^ lastBit high := zpow_pos two_pos _
    refine mul_le_mul_of_nonneg_right ?_ hunit.le
    exact_mod_cast roundHalfEven_mono (div_le_div_of_nonneg_right hle hunit.le)
  · -- A power of two lies between them, and both roundings keep it as a bound.
    have hhighBit : lastBit high = Int.log 2 high - 52 := by
      have hmin : -1074 ≤ lastBit low := le_max_right _ _
      have hmax : lastBit high = max (Int.log 2 high - 52) (-1074) := by
        rw [lastBit, abs_of_pos hhigh]
      omega
    have hlowBit : Int.log 2 low - 52 ≤ lastBit low := by
      rw [lastBit, abs_of_pos hpos]
      exact le_max_left _ _
    have hlog : Int.log 2 low + 1 ≤ Int.log 2 high := by omega
    have hbelow : low ≤ (2 : ℚ) ^ Int.log 2 high := by
      have hlt := Int.lt_zpow_succ_log_self (b := 2) one_lt_two low
      exact hlt.le.trans (zpow_le_zpow_right₀ one_le_two hlog)
    have habove : (2 : ℚ) ^ Int.log 2 high ≤ high :=
      Int.zpow_log_le_self (b := 2) one_lt_two hhigh
    have hmultiple : ∀ bit ≤ Int.log 2 high,
        ∃ n : ℤ, (2 : ℚ) ^ Int.log 2 high = n * 2 ^ bit := by
      intro bit hbit
      refine ⟨2 ^ (Int.log 2 high - bit).toNat, ?_⟩
      push_cast
      rw [← zpow_natCast, Int.toNat_of_nonneg (by omega), ← zpow_add₀ two_ne_zero, sub_add_cancel]
    obtain ⟨n, hn⟩ := hmultiple (lastBit low) (by omega)
    obtain ⟨m, hm⟩ := hmultiple (lastBit high) (by omega)
    calc
      toDouble low ≤ n * 2 ^ lastBit low :=
        round_le_of_le (zpow_pos two_pos _) (hn ▸ hbelow)
      _ = m * 2 ^ lastBit high := hn.symm.trans hm
      _ ≤ toDouble high := le_round_of_le (zpow_pos two_pos _) (hm ▸ habove)

/-! ## Comparing floats -/

namespace PyFloat

/-- The exact value of a finite float. -/
def signed (negative : Bool) (magnitude : ℚ≥0) : ℚ :=
  if negative then -magnitude else magnitude

/-- `left < right`. -/
def lt : PyFloat → PyFloat → Bool
  | nan, _ => false
  | _, nan => false
  | inf left, inf right => left && !right
  | inf left, finite _ _ => left
  | finite _ _, inf right => !right
  | finite leftSign left, finite rightSign right => signed leftSign left < signed rightSign right

end PyFloat

/-! ## Means and printing -/

/-- `statistics.mean`. -/
def mean (values : List ℚ) : ℚ :=
  toDouble (values.sum / values.length)

theorem mean_eq_zero {values : List ℚ} (hvalues : ∀ value ∈ values, value = 0) :
    mean values = 0 := by
  rw [mean, List.sum_eq_zero hvalues, zero_div, toDouble_zero]

/-- The digits of a number below 1000. -/
def threeDigits (n : ℕ) : PyStr :=
  (decimal (n + 1000)).tail

/-- `f"{value:.3f}"`. -/
def fixed3 (value : ℚ) : PyStr :=
  let thousandths := (roundHalfEven (|value| * 1000)).toNat
  (if value < 0 then py "-" else []) ++ decimal (thousandths / 1000) ++ py "." ++
    threeDigits (thousandths % 1000)

example : fixed3 (toDouble (99 / 100)) = py "0.990" := by decide +kernel

end RootSeeker.Python
