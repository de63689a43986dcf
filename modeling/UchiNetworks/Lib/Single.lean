import Mathlib.Data.Int.Log
import Mathlib.Data.Rat.Floor
import Mathlib.Tactic.Linarith
import Mathlib.Tactic.FieldSimp
import Mathlib.Tactic.Ring

/-!
# Rounding to single precision

A `float` keeps 24 binary digits from the leading one on. `round` takes a number
that is not negative to the nearest such number, to the even one where two are
equally near. Integers up to `2 ^ 24` are kept, and so the rounded quotient of
two of them is below one half exactly if the quotient is (`lt_half_iff`).

The exponent is not limited: the quotients here are neither too large nor too
small.
-/

namespace UchiNetworks.Lib.Single

/-- The nearest integer; half way between two, the even one. -/
def nearest (t : ℚ) : ℤ :=
  if Int.fract t < 1 / 2 ∨ Int.fract t = 1 / 2 ∧ ⌊t⌋ % 2 = 0 then ⌊t⌋ else ⌊t⌋ + 1

/-- The unit of the last of the 24 digits. -/
def unit (q : ℚ) : ℚ := 2 ^ (Int.log 2 q - 23)

def round (q : ℚ) : ℚ := nearest (q / unit q) * unit q

theorem le_nearest {t : ℚ} {n : ℤ} (h : n ≤ t) : n ≤ nearest t := by
  have hfloor : n ≤ ⌊t⌋ := Int.le_floor.mpr h
  unfold nearest
  split
  · exact hfloor
  · omega

theorem nearest_le {t : ℚ} {n : ℤ} (h : t ≤ n) : nearest t ≤ n := by
  unfold nearest
  split
  case isTrue => exact Int.floor_le_iff.mpr (by linarith)
  case isFalse hnot =>
    by_contra hgt
    -- then `t` is `n`, and nothing is left over
    have hfloor : n ≤ ⌊t⌋ := by omega
    have heq : t = n := le_antisymm h (Int.le_floor.mp hfloor)
    apply hnot
    rw [heq, Int.fract_intCast]
    exact Or.inl (by norm_num)

theorem unit_pos (q : ℚ) : 0 < unit q := zpow_pos (by norm_num) _

/-- What is a multiple of its unit is kept. -/
theorem round_eq {q : ℚ} {n : ℤ} (h : q = n * unit q) : round q = q := by
  have hdiv : q / unit q = n := by
    rw [div_eq_iff (ne_of_gt (unit_pos q))]
    exact h
  have hnearest : nearest n = n := le_antisymm (nearest_le le_rfl) (le_nearest le_rfl)
  rw [round, hdiv, hnearest]
  exact h.symm

theorem two_zpow_split (z : ℤ) : (2 : ℚ) ^ z = 2 ^ 23 * 2 ^ (z - 23) := by
  rw [← zpow_natCast (2 : ℚ) 23, ← zpow_add₀ (by norm_num)]
  congr 1
  push_cast
  ring

theorem pow_log_le {q : ℚ} (h : 0 < q) : (2 : ℚ) ^ Int.log 2 q ≤ q := by
  have := Int.zpow_log_le_self (b := 2) (by norm_num) h
  exact_mod_cast this

theorem lt_pow_log (q : ℚ) : q < (2 : ℚ) ^ (Int.log 2 q + 1) := by
  have := Int.lt_zpow_succ_log_self (b := 2) (by norm_num) q
  exact_mod_cast this

/-- Rounding does not go below the leading digit. -/
theorem pow_log_le_round {q : ℚ} (h : 0 < q) : (2 : ℚ) ^ Int.log 2 q ≤ round q := by
  have hunit := unit_pos q
  have hlow : ((2 ^ 23 : ℤ) : ℚ) ≤ q / unit q := by
    rw [le_div_iff₀ hunit]
    calc ((2 ^ 23 : ℤ) : ℚ) * unit q = 2 ^ Int.log 2 q := by
          rw [unit, two_zpow_split (Int.log 2 q)]
          norm_num
      _ ≤ q := pow_log_le h
  have hnearest : ((2 ^ 23 : ℤ) : ℚ) ≤ nearest (q / unit q) := by
    exact_mod_cast le_nearest hlow
  calc (2 : ℚ) ^ Int.log 2 q = ((2 ^ 23 : ℤ) : ℚ) * unit q := by
        rw [unit, two_zpow_split (Int.log 2 q)]
        norm_num
    _ ≤ round q := mul_le_mul_of_nonneg_right hnearest (le_of_lt hunit)

/-- What is at most so many units is not rounded to more. -/
theorem round_le {q : ℚ} {n : ℤ} (h : q ≤ n * unit q) : round q ≤ n * unit q := by
  have hunit := unit_pos q
  have hnearest : ((nearest (q / unit q) : ℤ) : ℚ) ≤ n := by
    exact_mod_cast nearest_le ((div_le_iff₀ hunit).mpr h)
  exact mul_le_mul_of_nonneg_right hnearest (le_of_lt hunit)

/-- An integer of at most 24 digits is kept. -/
theorem round_natCast {a : ℕ} (h : a ≤ 2 ^ 24) : round a = a := by
  by_cases hzero : a = 0
  · exact round_eq (n := 0) (by rw [hzero]; simp)
  have hlog : Int.log 2 (a : ℚ) = Nat.log 2 a := Int.log_natCast 2 a
  obtain hlt | rfl := Nat.lt_or_eq_of_le h
  · have hle : Nat.log 2 a ≤ 23 := Nat.lt_succ_iff.mp (Nat.log_lt_of_lt_pow hzero hlt)
    apply round_eq (n := a * 2 ^ (23 - Nat.log 2 a))
    rw [unit, hlog]
    have hexp : ((2 : ℚ) ^ (23 - Nat.log 2 a)) * 2 ^ ((Nat.log 2 a : ℤ) - 23) = 1 := by
      rw [← zpow_natCast (2 : ℚ), ← zpow_add₀ (by norm_num), Nat.cast_sub hle]
      simp
    push_cast
    rw [mul_assoc, hexp, mul_one]
  · have hlog24 : Nat.log 2 (2 ^ 24) = 24 := Nat.log_pow (by norm_num) 24
    apply round_eq (n := 2 ^ 23)
    rw [unit, hlog, hlog24]
    norm_num

/-- The quotient of two such integers. -/
theorem lt_half_iff {a b : ℕ} (ha : a ≤ 2 ^ 24) (hb : b ≤ 2 ^ 24) (hpos : 0 < b) :
    round (round a / round b) < 1 / 2 ↔ 2 * a < b := by
  rw [round_natCast ha, round_natCast hb]
  have hbpos : (0 : ℚ) < b := by exact_mod_cast hpos
  constructor
  · -- from one half on the leading digit is at one half
    intro hround
    by_contra hnot
    have hhalf : (2 : ℚ) ^ (-1 : ℤ) ≤ a / b := by
      rw [le_div_iff₀ hbpos]
      have hcast : (b : ℚ) ≤ 2 * a := by exact_mod_cast Nat.not_lt.mp hnot
      rw [zpow_neg_one]
      linarith
    have hq : (0 : ℚ) < a / b := lt_of_lt_of_le (by norm_num) hhalf
    have hlog : -1 ≤ Int.log 2 ((a : ℚ) / b) := by
      have := (Int.zpow_le_iff_le_log (b := 2) (by norm_num) hq).mp (by exact_mod_cast hhalf)
      exact this
    have hpow : (2 : ℚ) ^ (-1 : ℤ) ≤ 2 ^ Int.log 2 ((a : ℚ) / b) :=
      zpow_le_zpow_right₀ (by norm_num) hlog
    have := pow_log_le_round hq
    rw [zpow_neg_one] at hpow
    linarith
  · intro hlt
    by_cases hzero : a = 0
    · have hround : round ((a : ℚ) / b) = a / b := round_eq (n := 0) (by rw [hzero]; simp)
      rw [hround, hzero]
      norm_num
    have hq : (0 : ℚ) < a / b := div_pos (by exact_mod_cast Nat.pos_of_ne_zero hzero) hbpos
    have hhalf : (a : ℚ) / b < 2 ^ (-1 : ℤ) := by
      rw [div_lt_iff₀ hbpos, zpow_neg_one]
      have hcast : 2 * (a : ℚ) < b := by exact_mod_cast hlt
      linarith
    have hlog : Int.log 2 ((a : ℚ) / b) < -1 := by
      apply (Int.lt_zpow_iff_log_lt (b := 2) (by norm_num) hq).mp
      exact_mod_cast hhalf
    obtain heq | hless : Int.log 2 ((a : ℚ) / b) = -2 ∨ Int.log 2 ((a : ℚ) / b) ≤ -3 := by omega
    · -- the next number below one half is far enough away
      have hunit : unit ((a : ℚ) / b) = 1 / 2 ^ 25 := by
        rw [unit, heq]
        norm_num
      have hnat : 2 ^ 25 * a ≤ (2 ^ 24 - 1) * b := by omega
      have hcast : (2 : ℚ) ^ 25 * a ≤ (2 ^ 24 - 1) * b := by
        have := (Nat.cast_le (α := ℚ)).mpr hnat
        norm_num at this ⊢
        exact this
      have hle : (a : ℚ) / b ≤ ((2 ^ 24 - 1 : ℤ) : ℚ) * unit ((a : ℚ) / b) := by
        rw [hunit, div_le_iff₀ hbpos]
        push_cast
        linarith
      have hround := round_le hle
      rw [hunit] at hround
      refine lt_of_le_of_lt hround ?_
      norm_num
    · -- a smaller quotient stays below one quarter
      have hpow : ((2 ^ 24 : ℤ) : ℚ) * unit ((a : ℚ) / b) = 2 ^ (Int.log 2 ((a : ℚ) / b) + 1) := by
        rw [unit, two_zpow_split (Int.log 2 ((a : ℚ) / b) + 1),
          show Int.log 2 ((a : ℚ) / b) + 1 - 23 = Int.log 2 ((a : ℚ) / b) - 23 + 1 by ring,
          zpow_add_one₀ (by norm_num)]
        push_cast
        ring
      have hle : (a : ℚ) / b ≤ ((2 ^ 24 : ℤ) : ℚ) * unit ((a : ℚ) / b) := by
        rw [hpow]
        exact le_of_lt (lt_pow_log _)
      have hround := round_le hle
      have hquarter : (2 : ℚ) ^ (Int.log 2 ((a : ℚ) / b) + 1) ≤ 2 ^ (-2 : ℤ) :=
        zpow_le_zpow_right₀ (by norm_num) (by omega)
      rw [hpow] at hround
      refine lt_of_le_of_lt (hround.trans hquarter) ?_
      norm_num

end UchiNetworks.Lib.Single
