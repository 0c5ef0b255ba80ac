import AccessPolicy.Binary64
import Mathlib.Algebra.Order.Field.Power
import Mathlib.Data.Rat.Cast.Order
import Mathlib.Tactic.Linarith
import Mathlib.Tactic.Ring

/-! Exact values of floating-point numbers. A finite number has a rational value, and the order of
two finite numbers is that of their values. What comparing with a number nearest to `x` says about
`x` itself follows from its being nearest: it may lose a strict inequality and never makes one. -/

namespace AccessPolicy.Binary64

/-- `value` is the exact value of a finite number, which has at most 53 digits and an exponent
within the limits. -/
inductive HasValue : Binary64 → ℚ → Prop
  | finite (negative : Bool) {mantissa : Nat} {exponent : Int} :
      mantissa < 2 ^ 53 → minExponent ≤ exponent → exponent ≤ maxExponent →
      HasValue (.finite negative mantissa exponent) (signed negative mantissa * 2 ^ exponent)

/-! ### Order -/

theorem two_zpow_pos (e : Int) : (0 : ℚ) < 2 ^ e := zpow_pos (by norm_num) e

theorem two_pow_mul_zpow (k : Nat) (e : Int) : (2 : ℚ) ^ k * 2 ^ e = 2 ^ (k + e) := by
  rw [← zpow_natCast, ← zpow_add₀ (by norm_num)]

theorem two_pow_toNat_mul {e f : Int} (h : f ≤ e) :
    ((Nat.pow 2 (e - f).toNat : Nat) : ℚ) * 2 ^ f = 2 ^ e := by
  rw [Nat.pow_eq, Nat.cast_pow, Nat.cast_ofNat, two_pow_mul_zpow]
  congr 1
  omega

theorem lt_finite_iff (s t : Bool) (m n : Nat) (e f : Int) :
    (finite s m e).lt (finite t n f) = true ↔
      (signed s m : ℚ) * 2 ^ e < signed t n * 2 ^ f := by
  have hleft := two_pow_toNat_mul (Int.min_le_left e f)
  have hright := two_pow_toNat_mul (Int.min_le_right e f)
  rw [lt, decide_eq_true_eq, align, ← Int.cast_lt (R := ℚ),
    ← mul_lt_mul_iff_of_pos_right (two_zpow_pos (min e f))]
  rw [Int.cast_mul, Int.cast_mul, Int.cast_natCast, Int.cast_natCast, mul_assoc, mul_assoc, hleft,
    hright]

theorem HasValue.lt_iff {x y : Binary64} {a b : ℚ} (hx : x.HasValue a) (hy : y.HasValue b) :
    x.lt y = true ↔ a < b := by
  cases hx
  cases hy
  exact lt_finite_iff ..

/-! ### Nearest numbers -/

/-- `r` is a finite number, and no other one is nearer to `x`. -/
def NearestTo (x : ℚ) (r : Binary64) : Prop :=
  ∃ y, r.HasValue y ∧ ∀ s z, HasValue s z → |y - x| ≤ |z - x|

namespace NearestTo

variable {x x' z : ℚ} {r r' t : Binary64}

theorem hasValue (hr : NearestTo x r) (ht : t.HasValue x) : r.HasValue x := by
  obtain ⟨y, hy, hnearest⟩ := hr
  have hle := hnearest t x ht
  rw [sub_self, abs_zero, abs_nonpos_iff, sub_eq_zero] at hle
  exact hle ▸ hy

/-- A threshold below the number nearest to `x` is below `x` itself. -/
theorem lt_of_lt (hr : NearestTo x r) (ht : t.HasValue z) (hlt : t.lt r = true) : z < x := by
  obtain ⟨y, hy, hnearest⟩ := hr
  have hzy := (ht.lt_iff hy).mp hlt
  have hle := hnearest t z ht
  by_contra hxz
  rw [abs_of_nonneg (by linarith), abs_of_nonneg (by linarith)] at hle
  linarith

theorem gt_of_lt (hr : NearestTo x r) (ht : t.HasValue z) (hlt : r.lt t = true) : x < z := by
  obtain ⟨y, hy, hnearest⟩ := hr
  have hyz := (hy.lt_iff ht).mp hlt
  have hle := hnearest t z ht
  by_contra hxz
  rw [abs_of_nonpos (by linarith), abs_of_nonpos (by linarith)] at hle
  linarith

/-- Of numbers that are nearest to different values, the one nearest to the larger value is no
smaller: otherwise each value would lie on the wrong side of the midpoint between the two. -/
theorem exists_le (hr : NearestTo x r) (hr' : NearestTo x' r') (hlt : x < x') :
    ∃ y y', r.HasValue y ∧ r'.HasValue y' ∧ y ≤ y' := by
  obtain ⟨y, hy, hnearest⟩ := hr
  obtain ⟨y', hy', hnearest'⟩ := hr'
  refine ⟨y, y', hy, hy', ?_⟩
  have hsq : (y - x) ^ 2 ≤ (y' - x) ^ 2 := sq_le_sq.mpr (hnearest r' y' hy')
  have hsq' : (y' - x') ^ 2 ≤ (y - x') ^ 2 := sq_le_sq.mpr (hnearest' r y hy)
  by_contra hgt
  have hprod : 0 < (x' - x) * (y - y') := mul_pos (by linarith) (by linarith)
  linarith

theorem lt_mono (hr : NearestTo x r) (hr' : NearestTo x' r') (hlt : x < x') (ht : t.HasValue z)
    (h : t.lt r = true) : t.lt r' = true := by
  obtain ⟨y, y', hy, hy', hle⟩ := hr.exists_le hr' hlt
  have hzy := (ht.lt_iff hy).mp h
  exact (ht.lt_iff hy').mpr (by linarith)

theorem gt_mono (hr : NearestTo x r) (hr' : NearestTo x' r') (hlt : x < x') (ht : t.HasValue z)
    (h : r'.lt t = true) : r.lt t = true := by
  obtain ⟨y, y', hy, hy', hle⟩ := hr.exists_le hr' hlt
  have hyz := (hy'.lt_iff ht).mp h
  exact (hy.lt_iff ht).mpr (by linarith)

end NearestTo

end AccessPolicy.Binary64
