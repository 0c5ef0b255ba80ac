import AccessPolicy.Entity
import AccessPolicy.Predicate.Comparison
import AccessPolicy.Proofs.Binary64.Rounding

/-! Comparing a numeric attribute with a threshold. An integer of more than 53 digits is rounded
before it is compared, so a comparison may miss that it is above or below the threshold. It never
says that it is when it is not, because the threshold is a number itself and no number lies between
an integer and the one nearest to it. -/

namespace AccessPolicy

open Binary64

variable {S R : Type} [Attributable S Json] {q q' : Request S R} {key : String}

/-- The subject has an attribute that is an integer of 64 bits, without a sign or with it. -/
structure HasInteger (q : Request S R) (key : String) (n : Int) : Prop where
  stored : Attributable.attribute? q.subject key = some (.number (.int n))
  le : -2 ^ 63 ≤ n
  lt : n < 2 ^ 64

theorem numericAttr?_eq_none
    (hnone : ∀ number, Attributable.attribute? q.subject key ≠ some (.number number)) :
    numericAttr? q.subject key = none := by
  rw [numericAttr?]
  split
  · next number hattribute => exact absurd hattribute (hnone number)
  · rfl

theorem not_satisfiedBy_of_numericAttr?_eq_none (hnone : numericAttr? q.subject key = none)
    (threshold : Binary64) :
    (subjectAttrGreaterThan key threshold).satisfiedBy q = false ∧
      (subjectAttrLessThan key threshold).satisfiedBy q = false := by
  rw [subjectAttrGreaterThan, subjectAttrLessThan, Predicate.satisfiedBy_ofBool,
    Predicate.satisfiedBy_ofBool, hnone]
  exact ⟨rfl, rfl⟩

namespace HasInteger

variable {n n' : Int} {threshold : Binary64} {value : ℚ}

theorem numericAttr?_eq (h : HasInteger q key n) : numericAttr? q.subject key = some (ofInt n) := by
  rw [numericAttr?, h.stored]
  rfl

theorem satisfiedBy_greaterThan (h : HasInteger q key n) (threshold : Binary64) :
    (subjectAttrGreaterThan key threshold).satisfiedBy q = threshold.lt (ofInt n) := by
  rw [subjectAttrGreaterThan, Predicate.satisfiedBy_ofBool, h.numericAttr?_eq, Option.any_some]

theorem satisfiedBy_lessThan (h : HasInteger q key n) (threshold : Binary64) :
    (subjectAttrLessThan key threshold).satisfiedBy q = (ofInt n).lt threshold := by
  rw [subjectAttrLessThan, Predicate.satisfiedBy_ofBool, h.numericAttr?_eq, Option.any_some]

/-- The number that is compared is nearest to the integer. -/
theorem nearestTo (h : HasInteger q key n) : NearestTo n (ofInt n) := by
  have hle := h.le
  have hlt := h.lt
  exact nearestTo_ofInt (by omega)

theorem hasValue_of_abs_le (h : HasInteger q key n) (hexact : |n| ≤ 2 ^ 53) :
    (ofInt n).HasValue n := by
  rw [Int.abs_eq_natAbs] at hexact
  obtain ⟨r, hr⟩ := exists_hasValue_int (by exact_mod_cast hexact)
  exact h.nearestTo.hasValue hr

theorem lt_of_greaterThan (h : HasInteger q key n) (ht : threshold.HasValue value)
    (hs : (subjectAttrGreaterThan key threshold).satisfiedBy q = true) : value < n := by
  rw [h.satisfiedBy_greaterThan] at hs
  exact h.nearestTo.lt_of_lt ht hs

theorem gt_of_lessThan (h : HasInteger q key n) (ht : threshold.HasValue value)
    (hs : (subjectAttrLessThan key threshold).satisfiedBy q = true) : n < value := by
  rw [h.satisfiedBy_lessThan] at hs
  exact h.nearestTo.gt_of_lt ht hs

theorem greaterThan_iff (h : HasInteger q key n) (ht : threshold.HasValue value)
    (hexact : |n| ≤ 2 ^ 53) :
    (subjectAttrGreaterThan key threshold).satisfiedBy q = true ↔ value < n := by
  rw [h.satisfiedBy_greaterThan]
  exact ht.lt_iff (h.hasValue_of_abs_le hexact)

theorem lessThan_iff (h : HasInteger q key n) (ht : threshold.HasValue value)
    (hexact : |n| ≤ 2 ^ 53) :
    (subjectAttrLessThan key threshold).satisfiedBy q = true ↔ n < value := by
  rw [h.satisfiedBy_lessThan]
  exact (h.hasValue_of_abs_le hexact).lt_iff ht

/-- A greater integer passes every threshold that a smaller one does. -/
theorem greaterThan_mono (h : HasInteger q key n) (h' : HasInteger q' key n') (hle : n ≤ n')
    (ht : threshold.HasValue value)
    (hs : (subjectAttrGreaterThan key threshold).satisfiedBy q = true) :
    (subjectAttrGreaterThan key threshold).satisfiedBy q' = true := by
  rw [h.satisfiedBy_greaterThan] at hs
  rw [h'.satisfiedBy_greaterThan]
  rcases hle.eq_or_lt with rfl | hlt
  · exact hs
  · exact h.nearestTo.lt_mono h'.nearestTo (Int.cast_lt.mpr hlt) ht hs

theorem lessThan_mono (h : HasInteger q key n) (h' : HasInteger q' key n') (hle : n ≤ n')
    (ht : threshold.HasValue value)
    (hs : (subjectAttrLessThan key threshold).satisfiedBy q' = true) :
    (subjectAttrLessThan key threshold).satisfiedBy q = true := by
  rw [h'.satisfiedBy_lessThan] at hs
  rw [h.satisfiedBy_lessThan]
  rcases hle.eq_or_lt with rfl | hlt
  · exact hs
  · exact h.nearestTo.gt_mono h'.nearestTo (Int.cast_lt.mpr hlt) ht hs

end HasInteger

/-- On integers a comparison with a finite threshold holds only where the exact one does, holds
wherever it does up to 53 digits, and is monotone. Where the attribute is absent or no number, no
comparison holds, whatever the threshold. -/
theorem attrComparison_of_integers (key : String) :
    (∀ (threshold : Binary64) (value : ℚ), threshold.HasValue value →
      let above := fun q : Request S R =>
        (subjectAttrGreaterThan key threshold).satisfiedBy q = true
      let below := fun q : Request S R => (subjectAttrLessThan key threshold).satisfiedBy q = true
      (∀ q n, HasInteger q key n →
        (above q → value < n) ∧ (below q → n < value) ∧
          (|n| ≤ 2 ^ 53 → (above q ↔ value < n) ∧ (below q ↔ n < value))) ∧
      ∀ q q' m n, HasInteger q key m → HasInteger q' key n → m ≤ n →
        (above q → above q') ∧ (below q' → below q)) ∧
    ∀ q : Request S R,
      (∀ number, Attributable.attribute? q.subject key ≠ some (.number number)) →
      ∀ threshold, (subjectAttrGreaterThan key threshold).satisfiedBy q = false ∧
        (subjectAttrLessThan key threshold).satisfiedBy q = false := by
  constructor
  · intro threshold value ht above below
    constructor
    · intro q n h
      refine ⟨h.lt_of_greaterThan ht, h.gt_of_lessThan ht, fun hexact => ?_⟩
      exact ⟨h.greaterThan_iff ht hexact, h.lessThan_iff ht hexact⟩
    · intro q q' m n h h' hle
      exact ⟨h.greaterThan_mono h' hle ht, h.lessThan_mono h' hle ht⟩
  · intro q hnone threshold
    exact not_satisfiedBy_of_numericAttr?_eq_none (numericAttr?_eq_none hnone) threshold

/-- Two integers of 54 digits lie above the threshold. The smaller one is rounded to it and missed,
and the other one is not. -/
theorem attrComparison_of_integers_beyond_53_digits :
    let withLevel := fun level : Json =>
      (⟨{ Entity.empty with attributes := .ofList [("level", level)] }, .empty, "read"⟩ :
        Request Entity Entity)
    let above := fun (threshold : Binary64) (level : Json) =>
      (subjectAttrGreaterThan "level" threshold).satisfiedBy (withLevel level)
    let threshold : Binary64 := .finite false (2 ^ 52) 1
    (threshold.HasValue (2 ^ 53) ∧
      HasInteger (withLevel (.ofInt (2 ^ 53 + 1))) "level" (2 ^ 53 + 1) ∧
      HasInteger (withLevel (.ofInt (2 ^ 53 + 3))) "level" (2 ^ 53 + 3)) ∧
    above threshold (.ofInt (2 ^ 53 + 1)) = false ∧
    above threshold (.ofInt (2 ^ 53 + 3)) = true ∧ (2 : ℚ) ^ 53 < ((2 ^ 53 + 3 : Int) : ℚ) ∧
    (above threshold (.ofInt (2 ^ 53 + 1)) = true → above threshold (.ofInt (2 ^ 53 + 3)) = true) ∧
    above (.infinite true) (.string "7") = false := by
  intro withLevel above threshold
  have ht : threshold.HasValue (2 ^ 53) := by
    have hvalue : threshold.HasValue (signed false (2 ^ 52) * 2 ^ (1 : Int)) :=
      .finite false (by decide) (by decide) (by decide)
    norm_num [signed] at hvalue ⊢
    exact hvalue
  have hsmall : HasInteger (withLevel (.ofInt (2 ^ 53 + 1))) "level" (2 ^ 53 + 1) :=
    ⟨rfl, by norm_num, by norm_num⟩
  have hlarge : HasInteger (withLevel (.ofInt (2 ^ 53 + 3))) "level" (2 ^ 53 + 3) :=
    ⟨rfl, by norm_num, by norm_num⟩
  have habove : above threshold (.ofInt (2 ^ 53 + 3)) = true := by decide +kernel
  obtain ⟨hintegers, hothers⟩ := attrComparison_of_integers (S := Entity) (R := Entity) "level"
  obtain ⟨hsound, hmono⟩ := hintegers threshold (2 ^ 53) ht
  have hstring : ∀ number, Attributable.attribute? (withLevel (.string "7")).subject "level" ≠
      some (.number number) := by
    intro number heq
    cases heq
  exact ⟨⟨ht, hsmall, hlarge⟩, by decide +kernel, habove, (hsound _ _ hlarge).1 habove,
    (hmono _ _ _ _ hsmall hlarge (by norm_num)).1, (hothers _ hstring (.infinite true)).1⟩

end AccessPolicy
