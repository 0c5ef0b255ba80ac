import AccessPolicy.Binary64.Shortest

/-! The shortest decimal of a number other than zero has a digit other than zero: no number but zero
reads back from zero. So its digits, as they are written, do not start with a zero. -/

namespace AccessPolicy.Binary64

theorem digits_pos_of_readsBack {mantissa : Nat} {exponent : Int} {d : Decimal}
    (hm : 0 < mantissa) (h : readsBack mantissa exponent d = true) : 0 < d.digits := by
  rcases Nat.eq_zero_or_pos d.digits with hzero | hpos
  case inr => exact hpos
  have hlow :
      0 < 4 * mantissa - if mantissa = Nat.pow 2 52 ∧ minExponent < exponent then 1 else 2 := by
    split <;> omega
  have hunit : 0 < (Nat.pow 10 (-d.exponent).toNat) * Nat.pow 2 (exponent - 2).toNat :=
    Nat.mul_pos (Nat.pow_pos (by decide)) (Nat.pow_pos (by decide))
  have hpos := Nat.mul_pos hlow hunit
  simp only [readsBack, Decimal.ratio, inUnits, hzero, Nat.zero_mul] at h
  split at h
  · have hle := (Bool.and_eq_true_iff.mp h).1
    have hle := of_decide_eq_true hle
    omega
  · have hlt := (Bool.and_eq_true_iff.mp h).1
    have hlt := of_decide_eq_true hlt
    omega

theorem digits_pos_of_nearestOnGrid {mantissa num den : Nat} {binaryExponent exponent : Int}
    {d : Decimal} (hm : 0 < mantissa)
    (h : nearestOnGrid mantissa binaryExponent num den exponent = some d) : 0 < d.digits := by
  unfold nearestOnGrid at h
  extract_lets n k below above preferBelow at h
  -- whichever point is tried first, the result is one that reads back
  obtain ⟨first, second, hpoints⟩ : ∃ first second,
      (if preferBelow then (below, above) else (above, below)) = (first, second) := ⟨_, _, rfl⟩
  rw [hpoints] at h
  dsimp only at h
  split at h
  · next hreads => exact Option.some.inj h ▸ digits_pos_of_readsBack hm hreads
  · split at h
    · next hreads => exact Option.some.inj h ▸ digits_pos_of_readsBack hm hreads
    · cases h

theorem Decimal.digits_strip_pos {d : Decimal} (h : 0 < d.digits) : 0 < d.strip.digits := by
  induction d using Decimal.strip.induct with
  | case1 d hstrip ih =>
    rw [Decimal.strip, if_pos hstrip]
    apply ih
    simp only
    omega
  | case2 d hstrip =>
    rw [Decimal.strip, if_neg hstrip]
    exact h

/-- The shortest text of a number that is not zero has digits. -/
theorem digits_shortest_pos {mantissa : Nat} (hm : 0 < mantissa) (exponent : Int) :
    0 < (shortest mantissa exponent).digits := by
  unfold shortest
  simp only
  split
  · next d hfound =>
    obtain ⟨n, -, hgrid⟩ := List.exists_of_findSome?_eq_some hfound
    exact Decimal.digits_strip_pos (digits_pos_of_nearestOnGrid hm hgrid)
  · apply Decimal.digits_strip_pos
    exact Nat.mul_pos (Nat.mul_pos hm (Nat.pow_pos (by decide))) (Nat.pow_pos (by decide))

end AccessPolicy.Binary64
