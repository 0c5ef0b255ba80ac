import AccessPolicy.Proofs.Binary64
import Mathlib.Algebra.Order.Field.Basic

/-! Rounding a quotient gives a number nearest to it, unless the quotient is beyond the limits. The
exponent is chosen so that the quotient has 53 digits before the point, or is the least there is,
and rounding to a natural finds the nearest multiple of that power of two. Numbers that are no such
multiples are smaller than every value of 53 digits, so they are further away. -/

namespace AccessPolicy.Binary64

/-! ### Rounding to a natural -/

theorem roundDiv_mul_cases (num den : Nat) :
    roundDiv num den * den = den * (num / den) ∧ 2 * (num % den) ≤ den ∨
      roundDiv num den * den = den * (num / den) + den ∧ den ≤ 2 * (num % den) := by
  rw [roundDiv]
  split
  · exact .inr ⟨by rw [Nat.add_mul, Nat.one_mul, Nat.mul_comm], by omega⟩
  · exact .inl ⟨Nat.mul_comm .., by omega⟩

theorem two_mul_abs_roundDiv_le (num : Nat) {den : Nat} (hd : 0 < den) :
    2 * |((roundDiv num den * den : Nat) : Int) - num| ≤ den := by
  have hsplit := Nat.div_add_mod num den
  have hmod := Nat.mod_lt num hd
  rcases abs_cases (((roundDiv num den * den : Nat) : Int) - num) with ⟨habs, -⟩ | ⟨habs, -⟩
  · rw [habs]
    rcases roundDiv_mul_cases num den with ⟨h, hr⟩ | ⟨h, hr⟩ <;> omega
  · rw [habs]
    rcases roundDiv_mul_cases num den with ⟨h, hr⟩ | ⟨h, hr⟩ <;> omega

/-- A rounded quotient is no further than a half from the quotient. -/
theorem abs_roundDiv_sub_le_half (num : Nat) {den : Nat} (hd : 0 < den) :
    |(roundDiv num den : ℚ) - num / den| ≤ 1 / 2 := by
  have hden : (0 : ℚ) < den := by exact_mod_cast hd
  have hint : 2 * |(roundDiv num den : ℚ) * den - num| ≤ den := by
    exact_mod_cast two_mul_abs_roundDiv_le num hd
  have hscaled : |(roundDiv num den : ℚ) - num / den| * den =
      |(roundDiv num den : ℚ) * den - num| := by
    rw [← abs_of_pos hden, ← abs_mul, abs_of_pos hden, sub_mul, div_mul_cancel₀ _ hden.ne']
  rw [← hscaled] at hint
  apply le_of_mul_le_mul_right _ hden
  linarith

/-- Any other integer is a whole unit away from the rounded quotient, which is at most half a unit
away from the quotient. -/
theorem abs_roundDiv_sub_le (num : Nat) {den : Nat} (hd : 0 < den) (k : Int) :
    |(roundDiv num den : ℚ) - num / den| ≤ |(k : ℚ) - num / den| := by
  rcases eq_or_ne k (roundDiv num den) with rfl | hne
  · exact le_refl _
  · have hhalf := abs_roundDiv_sub_le_half num hd
    have hunit : 1 ≤ |(k : ℚ) - roundDiv num den| := by
      exact_mod_cast Int.one_le_abs (sub_ne_zero.mpr hne)
    have htriangle := abs_sub_le (k : ℚ) (num / den) (roundDiv num den)
    rw [abs_sub_comm (num / den : ℚ)] at htriangle
    linarith

/-! ### The exponent of a quotient -/

section Exponent

variable {num den : Nat}

theorem inUnits_snd_pos (num : Nat) (hd : 0 < den) (e : Int) : 0 < (inUnits num den e).2 :=
  Nat.mul_pos hd (Nat.pow_pos (by decide))

theorem inUnits_div_mul (num : Nat) (hd : 0 < den) (e : Int) :
    ((inUnits num den e).1 : ℚ) / (inUnits num den e).2 * 2 ^ e = num / den := by
  have hden : (den : ℚ) ≠ 0 := by exact_mod_cast hd.ne'
  have hunits : (2 : ℚ) ^ (-e).toNat * 2 ^ e = 2 ^ e.toNat := by
    rw [two_pow_mul_zpow, ← zpow_natCast]
    congr 1
    omega
  simp only [inUnits, Nat.pow_eq, Nat.cast_mul, Nat.cast_pow, Nat.cast_ofNat]
  rw [div_mul_eq_mul_div, mul_assoc, hunits, mul_div_mul_right _ _ (by positivity)]

theorem inUnits_div_lt_iff (num : Nat) (hd : 0 < den) (e : Int) (k : Nat) :
    (inUnits num den e).1 / (inUnits num den e).2 < k ↔ (num : ℚ) / den < k * 2 ^ e := by
  have hpos : (0 : ℚ) < (inUnits num den e).2 := by exact_mod_cast inUnits_snd_pos num hd e
  rw [← inUnits_div_mul num hd e, mul_lt_mul_iff_of_pos_right (two_zpow_pos e), div_lt_iff₀ hpos,
    Nat.div_lt_iff_lt_mul (inUnits_snd_pos num hd e)]
  exact_mod_cast Iff.rfl

theorem ratio_lt (num : Nat) (hd : 0 < den) :
    (num : ℚ) / den < 2 ^ ((num.log2 : Int) - den.log2 + 1) := by
  have hden : (0 : ℚ) < den := by exact_mod_cast hd
  have hnum : (num : ℚ) < 2 ^ (num.log2 + 1) := by exact_mod_cast Nat.lt_log2_self
  have hlog : (2 : ℚ) ^ den.log2 ≤ den := by exact_mod_cast Nat.log2_self_le hd.ne'
  rw [div_lt_iff₀ hden]
  calc (num : ℚ) < 2 ^ (num.log2 + 1) := hnum
    _ = 2 ^ ((num.log2 : Int) - den.log2 + 1) * 2 ^ den.log2 := by
      rw [mul_comm, two_pow_mul_zpow, ← zpow_natCast]
      congr 1
      omega
    _ ≤ 2 ^ ((num.log2 : Int) - den.log2 + 1) * den :=
      mul_le_mul_of_nonneg_left hlog (two_zpow_pos _).le

theorem lt_ratio (hn : 0 < num) (hd : 0 < den) :
    2 ^ ((num.log2 : Int) - den.log2 - 1) < (num : ℚ) / den := by
  have hden : (0 : ℚ) < den := by exact_mod_cast hd
  have hnum : (2 : ℚ) ^ num.log2 ≤ num := by exact_mod_cast Nat.log2_self_le hn.ne'
  have hlog : (den : ℚ) < 2 ^ (den.log2 + 1) := by exact_mod_cast Nat.lt_log2_self
  rw [lt_div_iff₀ hden]
  calc 2 ^ ((num.log2 : Int) - den.log2 - 1) * (den : ℚ)
      < 2 ^ ((num.log2 : Int) - den.log2 - 1) * 2 ^ (den.log2 + 1) :=
        mul_lt_mul_of_pos_left hlog (two_zpow_pos _)
    _ = 2 ^ num.log2 := by
      have hexponent : den.log2 + 1 + ((num.log2 : Int) - den.log2 - 1) = num.log2 := by omega
      rw [mul_comm, two_pow_mul_zpow, Nat.cast_succ, hexponent, zpow_natCast]
    _ ≤ num := hnum

/-- Were there no least exponent, the quotient would have exactly 53 digits before the point. -/
theorem exists_exponent (hn : 0 < num) (hd : 0 < den) :
    ∃ e, ratioExponent num den = max minExponent e ∧
      2 ^ 52 * 2 ^ e ≤ (num : ℚ) / den ∧ (num : ℚ) / den < 2 ^ 53 * 2 ^ e := by
  obtain ⟨e, he⟩ : ∃ e : Int, e = (num.log2 : Int) - den.log2 - 52 := ⟨_, rfl⟩
  have hlow := lt_ratio hn hd
  have hhigh := ratio_lt num hd
  have hfloor := inUnits_div_lt_iff num hd e (Nat.pow 2 52)
  have hexponent : ratioExponent num den = max minExponent
      (if (inUnits num den e).1 / (inUnits num den e).2 < Nat.pow 2 52 then e - 1 else e) := by
    rw [he]
    rfl
  rw [Nat.pow_eq, Nat.cast_pow, Nat.cast_ofNat, two_pow_mul_zpow] at hfloor
  rw [hexponent]
  by_cases hlt : (inUnits num den e).1 / (inUnits num den e).2 < Nat.pow 2 52
  · refine ⟨e - 1, by rw [if_pos hlt], ?_, ?_⟩
    · rw [two_pow_mul_zpow, show ((52 : Nat) : Int) + (e - 1) = num.log2 - den.log2 - 1 by omega]
      exact hlow.le
    · rw [two_pow_mul_zpow, show ((53 : Nat) : Int) + (e - 1) = (52 : Nat) + e by omega]
      exact hfloor.mp hlt
  · refine ⟨e, by rw [if_neg hlt], ?_, ?_⟩
    · rw [two_pow_mul_zpow]
      exact not_lt.mp fun h => hlt (hfloor.mpr h)
    · rw [two_pow_mul_zpow, show ((53 : Nat) : Int) + e = num.log2 - den.log2 + 1 by omega]
      exact hhigh

/-- The exponent of a quotient is the least one with which the quotient has at most 53 digits before
the point, or the least there is. -/
theorem ratioExponent_spec (hn : 0 < num) (hd : 0 < den) :
    minExponent ≤ ratioExponent num den ∧
      (num : ℚ) / den < 2 ^ 53 * 2 ^ ratioExponent num den ∧
      (ratioExponent num den = minExponent ∨
        2 ^ 52 * 2 ^ ratioExponent num den ≤ (num : ℚ) / den) := by
  obtain ⟨e, heq, hlow, hhigh⟩ := exists_exponent hn hd
  rw [heq]
  rcases le_total minExponent e with hle | hle
  · rw [max_eq_right hle]
    exact ⟨hle, hhigh, .inr hlow⟩
  · rw [max_eq_left hle]
    refine ⟨le_refl _, hhigh.trans_le ?_, .inl rfl⟩
    have hpow : (2 : ℚ) ^ e ≤ 2 ^ minExponent := zpow_le_zpow_right₀ (by norm_num) hle
    linarith

end Exponent

/-! ### The nearest number -/

section Nearest

variable {num den : Nat}

/-- The mantissa of the rounded quotient, before it is brought below 54 digits. -/
def ratioMantissa (num den : Nat) : Nat :=
  roundDiv (inUnits num den (ratioExponent num den)).1 (inUnits num den (ratioExponent num den)).2

theorem ratioMantissa_le (hn : 0 < num) (hd : 0 < den) : ratioMantissa num den ≤ 2 ^ 53 := by
  obtain ⟨-, hlt, -⟩ := ratioExponent_spec hn hd
  have hfloor := (inUnits_div_lt_iff num hd (ratioExponent num den) (2 ^ 53)).mpr
    (by exact_mod_cast hlt)
  rw [ratioMantissa, roundDiv]
  split <;> omega

theorem abs_ratioMantissa_le_of_multiple (num : Nat) (hd : 0 < den) (k : Int) :
    |(ratioMantissa num den : ℚ) * 2 ^ ratioExponent num den - num / den| ≤
      |(k : ℚ) * 2 ^ ratioExponent num den - num / den| := by
  have hpos := two_zpow_pos (ratioExponent num den)
  have hround := abs_roundDiv_sub_le (inUnits num den (ratioExponent num den)).1
    (inUnits_snd_pos num hd (ratioExponent num den)) k
  rw [← inUnits_div_mul num hd (ratioExponent num den), ← sub_mul, ← sub_mul, abs_mul, abs_mul]
  exact mul_le_mul_of_nonneg_right hround (abs_nonneg _)

/-- A number of 53 digits is a multiple of a power of two, or is smaller than all numbers of 53
digits in units of it. -/
theorem exists_multiple_or_lt {m : Nat} (hm : m < 2 ^ 53) (e f : Int) :
    (∃ k : Int, (m : ℚ) * 2 ^ f = k * 2 ^ e) ∨ f < e ∧ (m : ℚ) * 2 ^ f < 2 ^ 52 * 2 ^ e := by
  rcases le_or_gt e f with hle | hlt
  · refine .inl ⟨m * Nat.pow 2 (f - e).toNat, ?_⟩
    rw [Int.cast_mul, Int.cast_natCast, Int.cast_natCast, mul_assoc, two_pow_toNat_mul hle]
  · refine .inr ⟨hlt, ?_⟩
    have hdigits : (m : ℚ) < 2 ^ 53 := by exact_mod_cast hm
    calc (m : ℚ) * 2 ^ f < 2 ^ 53 * 2 ^ f := mul_lt_mul_of_pos_right hdigits (two_zpow_pos f)
      _ ≤ 2 ^ 52 * 2 ^ e := by
        rw [two_pow_mul_zpow, two_pow_mul_zpow]
        exact zpow_le_zpow_right₀ (by norm_num) (by omega)

/-- No number of 53 digits is nearer to a quotient than its mantissa. -/
theorem abs_ratioMantissa_le (hn : 0 < num) (hd : 0 < den) {m : Nat} {f : Int} (hm : m < 2 ^ 53)
    (hf : minExponent ≤ f) :
    |(ratioMantissa num den : ℚ) * 2 ^ ratioExponent num den - num / den| ≤
      |(m : ℚ) * 2 ^ f - num / den| := by
  rcases exists_multiple_or_lt hm (ratioExponent num den) f with ⟨k, hk⟩ | ⟨hlt, hsmall⟩
  · rw [hk]
    exact abs_ratioMantissa_le_of_multiple num hd k
  · -- the power of two at the lower end of the 53 digits lies between this number and the quotient
    obtain ⟨-, -, hmin | hbase⟩ := ratioExponent_spec hn hd
    · omega
    · have hround := abs_ratioMantissa_le_of_multiple num hd (2 ^ 52)
      rw [Int.cast_pow, Int.cast_ofNat] at hround
      refine hround.trans ?_
      rw [abs_of_nonpos (by linarith), abs_of_nonpos (by linarith)]
      linarith

/-- The values of numbers have at most 53 digits. -/
theorem HasValue.exists_abs {r : Binary64} {z : ℚ} (hr : r.HasValue z) :
    ∃ (m : Nat) (f : Int), m < 2 ^ 53 ∧ minExponent ≤ f ∧ |z| = m * 2 ^ f := by
  cases hr with
  | @finite negative m f hm hf =>
    refine ⟨m, f, hm, hf, ?_⟩
    rw [abs_mul, abs_of_pos (two_zpow_pos f)]
    cases negative <;> simp [signed]

theorem abs_signed_div (negative : Bool) (num den : Nat) :
    |(signed negative num : ℚ) / den| = num / den := by
  cases negative <;> simp [signed, abs_div]

theorem hasValue_ofParts (negative : Bool) {m : Nat} {e : Int} (hm : m ≤ 2 ^ 53)
    (hmin : minExponent ≤ e) (hmax : e < maxExponent) :
    (ofParts negative m e).HasValue (signed negative m * 2 ^ e) := by
  by_cases hcarry : m = Nat.pow 2 53
  · have hparts : ofParts negative m e = finite negative (Nat.pow 2 52) (e + 1) := by
      simp only [ofParts, if_pos hcarry]
      rw [if_neg (by omega)]
    have hvalue : (signed negative m : ℚ) * 2 ^ e =
        signed negative (Nat.pow 2 52) * 2 ^ (e + 1) := by
      rw [hcarry, zpow_add_one₀ (by norm_num)]
      cases negative <;> simp [signed] <;> ring
    rw [hparts, hvalue]
    exact .finite negative (by decide) (by omega) (by omega)
  · have hparts : ofParts negative m e = finite negative m e := by
      simp only [ofParts, if_neg hcarry]
      rw [if_neg (by omega)]
    rw [hparts]
    exact .finite negative (lt_of_le_of_ne hm hcarry) hmin (by omega)

theorem ratioExponent_lt (hn : 0 < num) (hd : 0 < den) (hlt : (num : ℚ) / den < 2 ^ 1023) :
    ratioExponent num den < maxExponent := by
  obtain ⟨-, -, hmin | hbase⟩ := ratioExponent_spec hn hd
  · rw [hmin]
    decide
  · have hpow : (2 : ℚ) ^ ((52 : Nat) + ratioExponent num den) < 2 ^ (1023 : Int) := by
      rw [← two_pow_mul_zpow]
      exact_mod_cast hbase.trans_lt hlt
    have hexponents := (zpow_lt_zpow_iff_right₀ (by norm_num)).mp hpow
    rw [maxExponent]
    omega

theorem nearestTo_zero (negative : Bool) : NearestTo 0 (finite negative 0 minExponent) := by
  have hvalue : (finite negative 0 minExponent).HasValue (signed negative 0 * 2 ^ minExponent) :=
    .finite negative (by decide) (by decide) (by decide)
  have hzero : signed negative 0 = 0 := by cases negative <;> rfl
  rw [hzero, Int.cast_zero, zero_mul] at hvalue
  refine ⟨0, hvalue, fun s z _ => ?_⟩
  rw [sub_self, abs_zero]
  exact abs_nonneg _

/-- A rounded quotient is nearest to the quotient, if this is not so great that it may round to an
infinity. -/
theorem nearestTo_ofRatio (negative : Bool) (num : Nat) (hd : 0 < den)
    (hlt : (num : ℚ) / den < 2 ^ 1023) :
    NearestTo ((signed negative num : ℚ) / den) (ofRatio negative num den) := by
  rcases Nat.eq_zero_or_pos num with rfl | hn
  · have hzero : (signed negative 0 : ℚ) / den = 0 := by cases negative <;> simp [signed]
    rw [hzero]
    exact nearestTo_zero negative
  · obtain ⟨hmin, -, -⟩ := ratioExponent_spec hn hd
    have hround : ofRatio negative num den =
        ofParts negative (ratioMantissa num den) (ratioExponent num den) := by
      rw [ofRatio, if_neg hn.ne']
      rfl
    refine ⟨_, hround ▸ hasValue_ofParts negative (ratioMantissa_le hn hd) hmin
      (ratioExponent_lt hn hd hlt), fun s z hz => ?_⟩
    obtain ⟨m, f, hm, hf, habs⟩ := hz.exists_abs
    calc |(signed negative (ratioMantissa num den) : ℚ) * 2 ^ ratioExponent num den -
            signed negative num / den|
        = |(ratioMantissa num den : ℚ) * 2 ^ ratioExponent num den - num / den| := by
          cases negative
          · rfl
          · rw [← abs_neg]
            simp only [signed, if_true]
            push_cast
            ring_nf
      _ ≤ |(m : ℚ) * 2 ^ f - num / den| := abs_ratioMantissa_le hn hd hm hf
      _ = |(|z| - |(signed negative num : ℚ) / den|)| := by rw [habs, abs_signed_div]
      _ ≤ |z - signed negative num / den| := abs_abs_sub_abs_le ..

end Nearest

/-! ### Integers -/

section Integers

variable {n : Int}

theorem signed_natAbs (n : Int) : signed (n < 0) n.natAbs = n := by
  rw [signed]
  split
  · next h =>
    rw [decide_eq_true_eq] at h
    omega
  · next h =>
    rw [decide_eq_true_eq] at h
    omega

/-- Integers of 64 bits are rounded to a nearest number. -/
theorem nearestTo_ofInt (hn : n.natAbs < 2 ^ 64) : NearestTo n (ofInt n) := by
  have hlt : (n.natAbs : ℚ) / (1 : Nat) < 2 ^ 1023 := by
    rw [Nat.cast_one, div_one]
    exact_mod_cast hn.trans (Nat.pow_lt_pow_right (by decide) (by decide))
  have hnearest := nearestTo_ofRatio (n < 0) n.natAbs one_pos hlt
  rwa [signed_natAbs, Nat.cast_one, div_one] at hnearest

/-- Every integer of at most 53 digits is the value of a number. -/
theorem exists_hasValue_int (hn : n.natAbs ≤ 2 ^ 53) : ∃ r : Binary64, r.HasValue n := by
  have hvalue := hasValue_ofParts (n < 0) hn (e := 0) (by decide) (by decide)
  rw [signed_natAbs, zpow_zero, mul_one] at hvalue
  exact ⟨_, hvalue⟩

end Integers

end AccessPolicy.Binary64
