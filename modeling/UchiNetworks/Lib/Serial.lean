import Mathlib.Data.Nat.Basic
import Mathlib.Tactic.Linarith

/-!
# Serial numbers

Distances between `w`-bit serial numbers, read as signed integers. A difference
`x - y` of two words is the integer difference as long as the two are less than
half the number space apart; beyond that an old number looks like a new one.
The first lemmas are the cases of that, on the natural-number values.

A comparison of the values themselves is no comparison of serial numbers: adding
one number `c` to both sides can change it. `shift_agrees_iff` says exactly when
it does: when `c` takes one of the two past the wrap point and not the other
(`Wraps`), unless the comparison would fail on every lap.
-/

namespace UchiNetworks.Lib

variable {w : Nat}

theorem toInt_sub_ahead {x y : BitVec w} (hle : y.toNat ≤ x.toNat)
    (hnear : 2 * (x.toNat - y.toNat) < 2 ^ w) :
    (x - y).toInt = (x.toNat - y.toNat : Nat) := by
  have hx := x.isLt
  have hy := y.isLt
  have hnat : (x - y).toNat = x.toNat - y.toNat := by
    rw [BitVec.toNat_sub, show 2 ^ w - y.toNat + x.toNat = 2 ^ w + (x.toNat - y.toNat) by omega,
      Nat.add_mod_left, Nat.mod_eq_of_lt (by omega)]
  rw [BitVec.toInt_eq_toNat_cond, if_pos (by omega), hnat]

theorem toNat_sub_behind {x y : BitVec w} (hlt : x.toNat < y.toNat) :
    (x - y).toNat = 2 ^ w - (y.toNat - x.toNat) := by
  have hx := x.isLt
  have hy := y.isLt
  rw [BitVec.toNat_sub, Nat.mod_eq_of_lt (by omega)]
  omega

theorem toInt_sub_behind {x y : BitVec w} (hlt : x.toNat < y.toNat)
    (hnear : 2 * (y.toNat - x.toNat) ≤ 2 ^ w) :
    (x - y).toInt = -((y.toNat - x.toNat : Nat) : Int) := by
  have hy := y.isLt
  rw [BitVec.toInt_eq_toNat_cond, toNat_sub_behind hlt, if_neg (by omega)]
  have : y.toNat - x.toNat ≤ 2 ^ w := by omega
  push_cast [Nat.cast_sub this]
  omega

/-- More than half the space behind looks ahead. -/
theorem toInt_sub_wrapped {x y : BitVec w} (hlt : x.toNat < y.toNat)
    (hfar : 2 ^ w < 2 * (y.toNat - x.toNat)) :
    (x - y).toInt = (2 ^ w - (y.toNat - x.toNat) : Nat) := by
  have hy := y.isLt
  rw [BitVec.toInt_eq_toNat_cond, toNat_sub_behind hlt, if_pos (by omega)]

theorem toNat_sub_cases (x y : BitVec w) :
    (x.toNat ≤ y.toNat ∧ (y - x).toNat = y.toNat - x.toNat) ∨
    (y.toNat < x.toNat ∧ (y - x).toNat = 2 ^ w - (x.toNat - y.toNat)) := by
  have hx := x.isLt
  have hy := y.isLt
  rcases Nat.lt_or_ge y.toNat x.toNat with hlt | hge
  · exact Or.inr ⟨hlt, toNat_sub_behind hlt⟩
  · refine Or.inl ⟨hge, ?_⟩
    rw [BitVec.toNat_sub, show 2 ^ w - x.toNat + y.toNat = 2 ^ w + (y.toNat - x.toNat) by omega,
      Nat.add_mod_left, Nat.mod_eq_of_lt (by omega)]

/-- What is behind by one reading is ahead by the other. -/
theorem toNat_sub_of_neg {x y : BitVec w} (hneg : (x - y).toInt < 0) :
    ((y - x).toNat : Int) = -(x - y).toInt := by
  have hcond := BitVec.toInt_eq_toNat_cond (x - y)
  have hlt := (x - y).isLt
  have hpow : ((2 ^ w : Nat) : Int) = (2 : Int) ^ w := by push_cast; rfl
  split at hcond
  next => omega
  next =>
    rcases toNat_sub_cases x y with ⟨hle, hxy⟩ | ⟨hgt, hxy⟩ <;>
      rcases toNat_sub_cases y x with ⟨hle', hyx⟩ | ⟨hgt', hyx⟩ <;> omega

/-- Adding `c` takes `x` past the wrap point. -/
def Wraps (x c : BitVec w) : Prop := (x + c).toNat < x.toNat

instance (x c : BitVec w) : Decidable (Wraps x c) :=
  inferInstanceAs (Decidable ((x + c).toNat < x.toNat))

theorem toNat_add_cases (x c : BitVec w) :
    (Wraps x c ∧ (x + c).toNat + 2 ^ w = x.toNat + c.toNat) ∨
    (¬ Wraps x c ∧ (x + c).toNat = x.toNat + c.toNat) := by
  have hx := x.isLt
  have hc := c.isLt
  unfold Wraps
  rw [BitVec.toNat_add]
  rcases Nat.lt_or_ge (x.toNat + c.toNat) (2 ^ w) with hlt | hge
  · rw [Nat.mod_eq_of_lt hlt]
    exact Or.inr ⟨by omega, rfl⟩
  · rw [Nat.mod_eq_sub_mod hge, Nat.mod_eq_of_lt (by omega)]
    exact Or.inl ⟨by omega, by omega⟩

/-- `x + n ≤ y`, read on the values, survives a shift of `x` and `y` by `c` if
and only if the shift takes both past the wrap point or neither, or `y` is less
than `n` ahead of `x`. -/
theorem shift_agrees_iff (x y c : BitVec w) (n : Nat) :
    (((x + c).toNat + n ≤ (y + c).toNat) ↔ (x.toNat + n ≤ y.toNat)) ↔
      ((Wraps x c ↔ Wraps y c) ∨ (y - x).toNat < n) := by
  have hx := x.isLt
  have hy := y.isLt
  have hxc := (x + c).isLt
  have hyc := (y + c).isLt
  rcases toNat_add_cases x c with ⟨hwx, hsx⟩ | ⟨hwx, hsx⟩ <;>
    rcases toNat_add_cases y c with ⟨hwy, hsy⟩ | ⟨hwy, hsy⟩ <;>
    rcases toNat_sub_cases x y with ⟨hle, hsub⟩ | ⟨hle, hsub⟩ <;>
    simp only [hwx, hwy, true_or, iff_true, iff_false, not_true_eq_false, false_or] <;>
    omega

end UchiNetworks.Lib
