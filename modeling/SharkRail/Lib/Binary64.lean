import Mathlib
import SharkRail.Lib.Json

/-!
# Binary64

Floats as the rationals that they are. An operation gives the float nearest to what it is exactly, of two the one with the even mantissa;
beyond the greatest float that is an infinity, and an integer is not converted.
-/

namespace PyFloat

/-- `x < y`. -/
def lt : PyFloat → PyFloat → Bool
  | .nan, _ | _, .nan => false
  | .finite p, .finite q => decide (p < q)
  | .finite _, .inf negative => !negative
  | .inf negative, .finite _ => negative
  | .inf negative, .inf other => negative && !other

/-- `min(x, y)`: the first one where neither is less. -/
def min (x y : PyFloat) : PyFloat := if y.lt x then y else x

/-- `x <= n`. -/
def leInt (n : ℤ) : PyFloat → Bool
  | .nan => false
  | .finite q => decide (q ≤ n)
  | .inf negative => negative

end PyFloat

namespace Binary64

/-! ## The nearest integer -/

/-- The integer nearest to a rational, of two the even one. -/
def roundEven (q : ℚ) : ℤ :=
  if Int.fract q < 1 / 2 then ⌊q⌋
  else if 1 / 2 < Int.fract q then ⌊q⌋ + 1
  else if ⌊q⌋ % 2 = 0 then ⌊q⌋
  else ⌊q⌋ + 1

theorem roundEven_intCast (n : ℤ) : roundEven n = n := by
  simp [roundEven]

theorem floor_le_roundEven (q : ℚ) : ⌊q⌋ ≤ roundEven q := by
  unfold roundEven
  split_ifs <;> omega

theorem roundEven_le_floor (q : ℚ) : roundEven q ≤ ⌊q⌋ + 1 := by
  unfold roundEven
  split_ifs <;> omega

theorem roundEven_mono {p q : ℚ} (h : p ≤ q) : roundEven p ≤ roundEven q := by
  rcases (Int.floor_le_floor h).lt_or_eq with hfloor | hfloor
  · -- an integer lies between them
    calc roundEven p ≤ ⌊p⌋ + 1 := roundEven_le_floor p
      _ ≤ ⌊q⌋ := hfloor
      _ ≤ roundEven q := floor_le_roundEven q
  · have hfract : Int.fract p ≤ Int.fract q := by
      rw [Int.fract, Int.fract, hfloor]
      linarith
    unfold roundEven
    rw [hfloor]
    split_ifs <;> first | omega | linarith

/-! ## The nearest float -/

/-- The exponent of the last place of the floats around a rational. -/
def lastPlace (q : ℚ) : ℤ := max (Int.log 2 |q| - 52) (-1074)

/-- The float nearest to a rational, were the exponents without an end. -/
def nearest (q : ℚ) : ℚ := roundEven (q / 2 ^ lastPlace q) * 2 ^ lastPlace q

/-- The result of an operation. -/
def round (q : ℚ) : PyFloat := if |nearest q| < 2 ^ 1024 then .finite (nearest q) else .inf (decide (q < 0))

/-- `float(n)`, `none` where it raises `OverflowError`. -/
def ofInt? (n : ℤ) : Option ℚ := if |nearest n| < 2 ^ 1024 then some (nearest n) else none

theorem lastPlace_pos (q : ℚ) : (0 : ℚ) < 2 ^ lastPlace q := zpow_pos two_pos _

@[simp] theorem nearest_zero : nearest 0 = 0 := by
  have hzero : roundEven 0 = 0 := roundEven_intCast 0
  rw [nearest, zero_div, hzero, Int.cast_zero, zero_mul]

/-- What is a whole number of places, each of them a whole number of last places. -/
theorem exists_places {q b : ℚ} {n e : ℤ} (hb : b = n * 2 ^ e) (he : lastPlace q ≤ e) : ∃ m : ℤ, b = m * 2 ^ lastPlace q := by
  obtain ⟨k, hk⟩ := Int.le.dest he
  refine ⟨n * 2 ^ k, ?_⟩
  calc b = n * 2 ^ (lastPlace q + k) := by rw [hk, hb]
    _ = n * (2 ^ lastPlace q * 2 ^ k) := by rw [zpow_add₀ two_ne_zero, zpow_natCast]
    _ = ((n * 2 ^ k : ℤ) : ℚ) * 2 ^ lastPlace q := by push_cast; ring

/-- A rational is not rounded beyond a number that has its places. -/
theorem nearest_le_of_places {q b : ℚ} {n e : ℤ} (hb : b = n * 2 ^ e) (he : lastPlace q ≤ e) (h : q ≤ b) : nearest q ≤ b := by
  obtain ⟨m, rfl⟩ := exists_places hb he
  have hdiv : q / 2 ^ lastPlace q ≤ m := (div_le_iff₀ (lastPlace_pos q)).2 h
  have hround := roundEven_mono hdiv
  rw [roundEven_intCast] at hround
  exact mul_le_mul_of_nonneg_right (Int.cast_le.2 hround) (lastPlace_pos q).le

theorem le_nearest_of_places {q b : ℚ} {n e : ℤ} (hb : b = n * 2 ^ e) (he : lastPlace q ≤ e) (h : b ≤ q) : b ≤ nearest q := by
  obtain ⟨m, rfl⟩ := exists_places hb he
  have hdiv : (m : ℚ) ≤ q / 2 ^ lastPlace q := (le_div_iff₀ (lastPlace_pos q)).2 h
  have hround := roundEven_mono hdiv
  rw [roundEven_intCast] at hround
  exact mul_le_mul_of_nonneg_right (Int.cast_le.2 hround) (lastPlace_pos q).le

theorem log_lt {q : ℚ} {e : ℤ} (hq : q ≠ 0) (h : |q| < 2 ^ e) : Int.log 2 |q| < e :=
  (Int.lt_zpow_iff_log_lt one_lt_two (abs_pos.2 hq)).1 (by exact_mod_cast h)

/-- A mantissa of 53 bits with an exponent that is not too small is a float. -/
theorem nearest_mantissa {n e : ℤ} (hn : |n| < 2 ^ 53) (he : -1074 ≤ e) : nearest (n * 2 ^ e) = n * 2 ^ e := by
  by_cases hzero : n = 0
  · simp [hzero]
  · have hplace : (0 : ℚ) < 2 ^ e := zpow_pos two_pos e
    have hne : (n : ℚ) * 2 ^ e ≠ 0 := mul_ne_zero (Int.cast_ne_zero.2 hzero) hplace.ne'
    have hlt : |(n : ℚ) * 2 ^ e| < 2 ^ (53 + e) := by
      rw [abs_mul, abs_of_pos hplace, zpow_add₀ two_ne_zero]
      refine mul_lt_mul_of_pos_right ?_ hplace
      exact_mod_cast hn
    have hlog := log_lt hne hlt
    have hlast : lastPlace ((n : ℚ) * 2 ^ e) ≤ e := max_le (by omega) he
    exact le_antisymm (nearest_le_of_places rfl hlast le_rfl) (le_nearest_of_places rfl hlast le_rfl)

theorem nearest_two_pow (k : ℕ) : nearest (2 ^ k) = 2 ^ k := by
  have h := nearest_mantissa (n := 1) (e := k) (by norm_num) (by omega)
  simpa using h

/-! ## Order -/

/-- A power of two between two rationals whose last places are not the same. -/
theorem exists_power_between {p q : ℚ} (hp : 0 < p) (h : p ≤ q) (hplaces : lastPlace p ≠ lastPlace q) :
    ∃ e : ℤ, lastPlace p ≤ e ∧ lastPlace q ≤ e ∧ p ≤ 2 ^ e ∧ 2 ^ e ≤ q := by
  have hq : 0 < q := hp.trans_le h
  have hlog : Int.log 2 p ≤ Int.log 2 q := Int.log_mono_right hp h
  have hself : (2 : ℚ) ^ Int.log 2 q ≤ q := by exact_mod_cast Int.zpow_log_le_self one_lt_two hq
  have hnext : p < 2 ^ (Int.log 2 p + 1) := by exact_mod_cast Int.lt_zpow_succ_log_self one_lt_two p
  unfold lastPlace at hplaces ⊢
  rw [abs_of_pos hp, abs_of_pos hq] at hplaces ⊢
  refine ⟨Int.log 2 q, by omega, by omega, hnext.le.trans ?_, hself⟩
  exact zpow_le_zpow_right₀ one_le_two (by omega)

/-- Of two rationals that are not negative, the lesser one has no greater float. -/
theorem nearest_mono {p q : ℚ} (hp : 0 ≤ p) (h : p ≤ q) : nearest p ≤ nearest q := by
  rcases hp.eq_or_lt with rfl | hp
  · rw [nearest_zero]
    exact le_nearest_of_places (n := 0) (by simp) le_rfl h
  · by_cases hplaces : lastPlace p = lastPlace q
    · have hdiv : p / 2 ^ lastPlace q ≤ q / 2 ^ lastPlace q := div_le_div_of_nonneg_right h (lastPlace_pos q).le
      rw [nearest, nearest, hplaces]
      exact mul_le_mul_of_nonneg_right (Int.cast_le.2 (roundEven_mono hdiv)) (lastPlace_pos q).le
    · obtain ⟨e, hpe, hqe, hple, hleq⟩ := exists_power_between hp h hplaces
      have hone : (2 : ℚ) ^ e = ((1 : ℤ) : ℚ) * 2 ^ e := by simp
      exact (nearest_le_of_places hone hpe hple).trans (le_nearest_of_places hone hqe hleq)

end Binary64
