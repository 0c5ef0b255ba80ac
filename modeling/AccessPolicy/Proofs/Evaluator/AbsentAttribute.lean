import AccessPolicy.Entity
import AccessPolicy.Predicate.Comparison
import AccessPolicy.Proofs.Evaluator.Decision

/-! Absent attributes and null. Every test of an attribute is a check of one value, in which an
absent attribute is read as null, so whatever is combined from such tests takes no notice when an
attribute that was absent is set to null. Nor does a table of such policies: the same policies are
consulted with the same verdicts. -/

namespace AccessPolicy

variable {S R : Type}

/-! ### Tests of attributes -/

section Tests

variable [Attributable S Json] {q q' : Request S R}

/-- A predicate that compares one attribute of the subject with a constant. -/
inductive AttributeTest : RequestPredicate S R → Prop
  | equals (key : String) (value : Json) : AttributeTest (subjectAttrEquals key value)
  | greaterThan (key : String) (threshold : Binary64) :
      AttributeTest (subjectAttrGreaterThan key threshold)
  | lessThan (key : String) (threshold : Binary64) :
      AttributeTest (subjectAttrLessThan key threshold)
  | isTrue (key : String) : AttributeTest (subjectAttrTrue key)

/-- An attribute of the subject; an absent one is null. -/
def attributeOrNull (subject : S) (key : String) : Json :=
  (Attributable.attribute? subject key).getD .null

/-- The number that a value holds. -/
def Json.toBinary64? : Json → Option Binary64
  | .number n => some n.toBinary64
  | _ => none

/-- The value is `true`. -/
def Json.isTrue : Json → Bool
  | .bool b => b
  | _ => false

theorem numericAttr?_eq_toBinary64? (subject : S) (key : String) :
    numericAttr? subject key = (attributeOrNull subject key).toBinary64? := by
  rw [numericAttr?, attributeOrNull]
  cases Attributable.attribute? subject key with
  | none => rfl
  | some value => cases value <;> rfl

theorem subjectAttrTrue_eq (key : String) :
    (subjectAttrTrue key : RequestPredicate S R) =
      .ofBool fun q => (attributeOrNull q.subject key).isTrue := by
  refine congrArg Predicate.ofBool (funext fun q => ?_)
  rw [attributeOrNull]
  cases Attributable.attribute? q.subject key with
  | none => rfl
  | some value => cases value <;> rfl

/-- A test looks at one attribute, where an absent one is null. -/
theorem AttributeTest.exists_check {p : RequestPredicate S R} (ht : AttributeTest p) :
    ∃ (key : String) (check : Json → Bool),
      p = .ofBool fun q => check (attributeOrNull q.subject key) := by
  cases ht with
  | equals key value => exact ⟨key, (· == value), rfl⟩
  | greaterThan key threshold =>
    refine ⟨key, fun value => value.toBinary64?.any threshold.lt, ?_⟩
    simp only [subjectAttrGreaterThan, numericAttr?_eq_toBinary64?]
  | lessThan key threshold =>
    refine ⟨key, fun value => value.toBinary64?.any (·.lt threshold), ?_⟩
    simp only [subjectAttrLessThan, numericAttr?_eq_toBinary64?]
  | isTrue key => exact ⟨key, Json.isTrue, subjectAttrTrue_eq key⟩

theorem AttributeTest.run_congr {p : RequestPredicate S R} (ht : AttributeTest p)
    (hsame : ∀ key, attributeOrNull q.subject key = attributeOrNull q'.subject key) :
    p.run q = p.run q' := by
  obtain ⟨key, check, rfl⟩ := ht.exists_check
  show (pure (check (attributeOrNull q.subject key)) : Traced Bool) =
    pure (check (attributeOrNull q'.subject key))
  rw [hsame key]

/-- A predicate that is combined from tests of attributes. -/
inductive CombinesTests : RequestPredicate S R → Prop
  | test {p : RequestPredicate S R} : AttributeTest p → CombinesTests p
  | and {p p' : RequestPredicate S R} :
      CombinesTests p → CombinesTests p' → CombinesTests (p.and p')
  | or {p p' : RequestPredicate S R} :
      CombinesTests p → CombinesTests p' → CombinesTests (p.or p')
  | not {p : RequestPredicate S R} : CombinesTests p → CombinesTests p.not

/-- What is combined from tests depends on the attributes only, where an absent one is null. -/
theorem CombinesTests.run_congr {p : RequestPredicate S R} (hp : CombinesTests p)
    (hsame : ∀ key, attributeOrNull q.subject key = attributeOrNull q'.subject key) :
    p.run q = p.run q' := by
  induction hp with
  | test ht => exact ht.run_congr hsame
  | and _ _ ih ih' => exact Predicate.run_and_congr ih ih'
  | or _ _ ih ih' => exact Predicate.run_or_congr ih ih'
  | not _ ih => exact Predicate.run_not_congr ih

/-! ### Setting an absent attribute to null -/

/-- One subject has the attributes of another and a further one, which is null. -/
structure AddsNull (key : String) (subject subject' : S) : Prop where
  absent : Attributable.attribute? subject key = none
  null : Attributable.attribute? subject' key = some Json.null
  others : ∀ other, other ≠ key →
    Attributable.attribute? subject' other = Attributable.attribute? subject other

/-- Adding a null where nothing was leaves all attributes as they were to the tests. -/
theorem AddsNull.attributeOrNull_eq {key : String} {subject subject' : S}
    (ha : AddsNull key subject subject') (other : String) :
    attributeOrNull subject' other = attributeOrNull subject other := by
  rw [attributeOrNull, attributeOrNull]
  by_cases heq : other = key
  · rw [heq, ha.absent, ha.null]
    rfl
  · rw [ha.others other heq]

theorem Entity.addsNull {key : String} {subject : Entity}
    (habsent : subject.attributes.get? key = none) :
    AddsNull key subject { subject with attributes := subject.attributes.insert key .null } where
  absent := habsent
  null := by
    show (subject.attributes.insert key .null).get? key = some .null
    rw [KeyMap.get?_insert, if_pos rfl]
  others other hne := by
    show (subject.attributes.insert key .null).get? other = subject.attributes.get? other
    rw [KeyMap.get?_insert, if_neg hne]

end Tests

/-! ### Tables of such policies -/

namespace Evaluator

variable {e : Evaluator S R} {q q' : Request S R}

theorem exists_entry_of_mem_applicable {action : String} {a : Applicable S R}
    (ha : a ∈ e.applicable action) :
    ∃ entry, e.policies.get? a.key = some entry ∧ entry.predicate = a.predicate := by
  obtain ⟨⟨key, entry⟩, he, happlies⟩ := List.mem_filterMap.mp ha
  have happlies : e.applies? (Action.parse action) key entry = some a := happlies
  unfold applies? at happlies
  split at happlies
  · cases happlies
  · split at happlies
    · cases happlies
    · obtain rfl := Option.some.inj happlies
      exact ⟨entry, KeyMap.mem_toList_iff.mp he, rfl⟩

theorem decideAmong_congr (haction : q.action = q'.action) (considered : Nat)
    {policies : List (Applicable S R)}
    (hrun : ∀ a ∈ policies, a.predicate.run q = a.predicate.run q') :
    decideAmong q considered policies = decideAmong q' considered policies := by
  induction policies generalizing considered with
  | nil => rw [decideAmong, decideAmong, haction]
  | cons a rest ih =>
    have hfirst := hrun a List.mem_cons_self
    have hrest := ih (considered + 1) fun b hb => hrun b (List.mem_cons_of_mem _ hb)
    rw [decideAmong, decideAmong, haction, hfirst, hrest]

/-- If the policies of the table decide alike on two requests for the same action, so does the
table. -/
theorem decide_congr_run (haction : q.action = q'.action)
    (hrun : ∀ key entry, e.policies.get? key = some entry →
      entry.predicate.run q = entry.predicate.run q') : e.decide q = e.decide q' := by
  rw [decide, decide, ← haction]
  apply decideAmong_congr haction
  intro a ha
  obtain ⟨entry, he, hp⟩ := exists_entry_of_mem_applicable ha
  rw [← hp]
  exact hrun a.key entry he

section TestsAttributes

variable [Attributable S Json]

/-- Every policy of the table is combined from tests of attributes. -/
def TestsAttributes (e : Evaluator S R) : Prop :=
  ∀ key entry, e.policies.get? key = some entry → CombinesTests entry.predicate

theorem TestsAttributes.addPolicy (he : e.TestsAttributes) (k : String) {p : RequestPredicate S R}
    (hp : CombinesTests p) : (e.addPolicy k p).value.TestsAttributes := by
  intro key entry hget
  rw [get?_addPolicy] at hget
  split at hget
  · obtain rfl := Option.some.inj hget
    split
    · next old hold => exact (he k old hold).or hp
    · exact hp
  · exact he key entry hget

theorem testsAttributes_foldl {calls : List (Call S R)} (he : e.TestsAttributes)
    (hcalls : ∀ key p, Call.addPolicy key p ∈ calls → CombinesTests p) :
    (calls.foldl perform e).TestsAttributes := by
  induction calls generalizing e with
  | nil => exact he
  | cons call calls ih =>
    have hrest : ∀ key p, Call.addPolicy key p ∈ calls → CombinesTests p :=
      fun key p hmem => hcalls key p (List.mem_cons_of_mem _ hmem)
    cases call with
    | addPolicy k p => exact ih (he.addPolicy k (hcalls k p List.mem_cons_self)) hrest
    | strict => exact ih he hrest

theorem testsAttributes_ofCalls {calls : List (Call S R)}
    (hcalls : ∀ key p, Call.addPolicy key p ∈ calls → CombinesTests p) :
    (ofCalls calls).TestsAttributes := by
  apply testsAttributes_foldl _ hcalls
  intro key entry hget
  cases hget

/-- Setting an attribute that is absent to null changes no decision of a table that tests
attributes: neither the policy named, nor the reason, nor what is consulted or reported. -/
theorem decide_eq_of_addsNull (e : Evaluator S R) (he : e.TestsAttributes) {key : String}
    {subject subject' : S} (hnull : AddsNull key subject subject') (resource : R)
    (action : String) :
    e.decide ⟨subject', resource, action⟩ = e.decide ⟨subject, resource, action⟩ := by
  apply decide_congr_run
  · rfl
  · intro k entry hget
    exact (he k entry hget).run_congr hnull.attributeOrNull_eq

end TestsAttributes

/-- The policy that grants tests the absent attribute three times, twice below a negation, and has
been merged from two. -/
theorem decide_eq_of_addsNull_merged :
    let subject : Entity := { Entity.empty with attributes := .ofList [("active", .bool true)] }
    let subject' : Entity :=
      { subject with attributes := subject.attributes.insert "level" .null }
    let level := fun threshold => (subjectAttrLessThan "level" threshold).not
    let e : Evaluator Entity Entity := ofCalls
      [.addPolicy "read" (subjectAttrTrue "level"),
        .addPolicy "read" ((subjectAttrEquals "level" .null).and
          ((level (.infinite false)).or (level .nan)))]
    e.TestsAttributes ∧ AddsNull "level" subject subject' ∧
      (e.decide ⟨subject, .empty, "read:draft"⟩).value.value =
        .allow "read" .baseCoversCondition ∧
      e.decide ⟨subject', .empty, "read:draft"⟩ = e.decide ⟨subject, .empty, "read:draft"⟩ := by
  intro subject subject' level e
  have he : e.TestsAttributes := by
    apply testsAttributes_ofCalls
    intro key p hmem
    simp only [List.mem_cons, Call.addPolicy.injEq, List.not_mem_nil, or_false] at hmem
    rcases hmem with ⟨-, rfl⟩ | ⟨-, rfl⟩
    · exact .test (.isTrue "level")
    · exact .and (.test (.equals "level" .null))
        (.or (.not (.test (.lessThan "level" (.infinite false))))
          (.not (.test (.lessThan "level" .nan))))
  have hnull : AddsNull "level" subject subject' := Entity.addsNull (by decide +kernel)
  exact ⟨he, hnull, by decide +kernel, decide_eq_of_addsNull e he hnull .empty "read:draft"⟩

end Evaluator

end AccessPolicy
