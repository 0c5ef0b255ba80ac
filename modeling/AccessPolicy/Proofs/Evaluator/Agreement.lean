import AccessPolicy.Proofs.Evaluator.Decision

/-! What a table answers depends on its mode, its keys and what it grants under each key. A table
built by calls has the keys that the calls name and grants under a key what the calls add there, so
of the calls only their set matters: neither their order nor how often one of them is made shows in
an answer. -/

namespace AccessPolicy

/-- A key applies to an action; if `strict` holds, by a rule that strict mode keeps. -/
def Action.AppliesIn (strict : Prop) (key action : String) : Prop :=
  ∃ rule, Applies rule key action ∧ (strict → rule ≠ .conditionCoversBase)

namespace Evaluator

variable {S R : Type} {e e' : Evaluator S R} {q q' : Request S R}

theorem ruleFor?_congr (hmode : e.strictConditions = e'.strictConditions) (key action : String) :
    e.ruleFor? key action = e'.ruleFor? key action := by
  rw [ruleFor?, ruleFor?, hmode]

theorem countFor_congr (hmode : e.strictConditions = e'.strictConditions)
    (hkeys : e.keys = e'.keys) (action : String) : e.countFor action = e'.countFor action := by
  simp only [countFor, hkeys, ruleFor?_congr hmode]

theorem evaluate_congr (hc : e.ColonsCached) (hc' : e'.ColonsCached)
    (hmode : e.strictConditions = e'.strictConditions) (haction : q.action = q'.action)
    (hgrants : ∀ key, e.GrantsAt key q ↔ e'.GrantsAt key q') :
    (e.evaluate q).value.value = (e'.evaluate q').value.value := by
  rw [Bool.eq_iff_iff, evaluate_iff hc, evaluate_iff hc']
  simp only [ruleFor?_congr hmode, haction, hgrants]

/-- The keys do not matter for the verdict, but for the number of policies that a denial reports. -/
theorem decide_congr (hc : e.ColonsCached) (hc' : e'.ColonsCached)
    (hmode : e.strictConditions = e'.strictConditions) (hkeys : e.keys = e'.keys)
    (haction : q.action = q'.action) (hgrants : ∀ key, e.GrantsAt key q ↔ e'.GrantsAt key q') :
    (e.decide q).value.value = (e'.decide q').value.value := by
  cases hd : (e.decide q).value.value with
  | allow policy rule =>
    have hleast := (decide_eq_allow_iff hc).mp hd
    simp only [ruleFor?_congr hmode, haction, hgrants] at hleast
    exact ((decide_eq_allow_iff hc').mpr hleast).symm
  | deny reason =>
    -- the reason holds no more than the count of the keys that apply
    have hdenied : (e'.decide q').value.value.isAllowed = false := by
      rw [isAllowed_decide_value, ← evaluate_congr hc hc' hmode haction hgrants,
        ← isAllowed_decide_value, hd]
      rfl
    cases hd' : (e'.decide q').value.value with
    | allow policy rule =>
      rw [hd'] at hdenied
      cases hdenied
    | deny reason' =>
      rw [reason_of_decide_eq_deny hc hd, reason_of_decide_eq_deny hc' hd', haction,
        countFor_congr hmode hkeys]

theorem policyFor_eq_none_iff_forall (hc : e.ColonsCached) {action : String} :
    (e.policyFor action).value = none ↔ ∀ key ∈ e.keys, (e.ruleFor? key action).isSome ≠ true := by
  rw [policyFor_eq_none_iff_countFor hc, countFor, List.length_eq_zero_iff, List.filter_eq_nil_iff]

/-! ### Tables built by calls -/

section OfCalls

variable {calls calls' : List (Call S R)}

/-- In a table built by calls a key applies by a rule that the mode keeps. -/
theorem ruleFor?_ofCalls_isSome_iff {key action : String} :
    ((ofCalls calls).ruleFor? key action).isSome = true ↔
      Action.AppliesIn (Call.strict ∈ calls) key action := by
  rw [ruleFor?_isSome_iff, strictConditions_ofCalls_iff]
  rfl

theorem policyFor_ofCalls_eq_none_iff {action : String} :
    ((ofCalls calls).policyFor action).value = none ↔
      ∀ key p, Call.addPolicy key p ∈ calls →
        ¬Action.AppliesIn (Call.strict ∈ calls) key action := by
  rw [policyFor_eq_none_iff_forall (colonsCached_ofCalls calls)]
  simp only [mem_keys_ofCalls_iff, Ne, ruleFor?_ofCalls_isSome_iff]
  constructor
  · intro hnone key p hmem
    exact hnone key ⟨p, hmem⟩
  · rintro hnone key ⟨p, hmem⟩
    exact hnone key p hmem

theorem satisfiedBy_policyFor_ofCalls_iff {action : String} {combined : RequestPredicate S R}
    (hp : ((ofCalls calls).policyFor action).value = some combined) :
    combined.satisfiedBy q = true ↔
      ∃ key p, Call.addPolicy key p ∈ calls ∧
        Action.AppliesIn (Call.strict ∈ calls) key action ∧ p.satisfiedBy q = true := by
  rw [satisfiedBy_policyFor_iff (colonsCached_ofCalls calls) hp]
  simp only [ruleFor?_ofCalls_isSome_iff, grantsAt_ofCalls_iff]
  constructor
  · rintro ⟨key, happlies, p, hmem, hs⟩
    exact ⟨key, p, hmem, happlies, hs⟩
  · rintro ⟨key, p, hmem, happlies, hs⟩
    exact ⟨key, happlies, p, hmem, hs⟩

variable (hsame : ∀ call, call ∈ calls ↔ call ∈ calls')
include hsame

theorem strictConditions_ofCalls_congr :
    (ofCalls calls).strictConditions = (ofCalls calls').strictConditions := by
  rw [Bool.eq_iff_iff, strictConditions_ofCalls_iff, strictConditions_ofCalls_iff, hsame]

theorem keys_ofCalls_congr : (ofCalls calls).keys = (ofCalls calls').keys :=
  KeyMap.keys_eq_of_mem_iff fun key => by
    show key ∈ (ofCalls calls).keys ↔ key ∈ (ofCalls calls').keys
    simp only [mem_keys_ofCalls_iff, hsame]

theorem grantsAt_ofCalls_congr (key : String) (q : Request S R) :
    (ofCalls calls).GrantsAt key q ↔ (ofCalls calls').GrantsAt key q := by
  simp only [grantsAt_ofCalls_iff, hsame]

end OfCalls

/-- A table built by calls has the keys that the calls name, and its policy for an action, if some
key applies to it, holds for a request exactly if a predicate does that was added under such a key.
Calls of the same set build tables with the same keys and the same answers. -/
theorem ofCalls_depends_only_on_members (calls : List (Call S R)) :
    ((ofCalls calls).keys.Pairwise (· < ·) ∧
      ∀ key, key ∈ (ofCalls calls).keys ↔ ∃ p, Call.addPolicy key p ∈ calls) ∧
    (∀ action,
      (((ofCalls calls).policyFor action).value = none ↔
        ∀ key p, Call.addPolicy key p ∈ calls →
          ¬Action.AppliesIn (Call.strict ∈ calls) key action) ∧
      ∀ combined, ((ofCalls calls).policyFor action).value = some combined → ∀ q,
        (combined.satisfiedBy q = true ↔
          ∃ key p, Call.addPolicy key p ∈ calls ∧
            Action.AppliesIn (Call.strict ∈ calls) key action ∧ p.satisfiedBy q = true)) ∧
    ∀ calls' : List (Call S R), (∀ call, call ∈ calls ↔ call ∈ calls') →
      (ofCalls calls).keys = (ofCalls calls').keys ∧
      ∀ q, ((ofCalls calls).evaluate q).value.value = ((ofCalls calls').evaluate q).value.value ∧
        ((ofCalls calls).decide q).value.value = ((ofCalls calls').decide q).value.value := by
  have hc := colonsCached_ofCalls calls
  refine ⟨⟨(ofCalls calls).policies.pairwise_keys, fun _ => mem_keys_ofCalls_iff⟩, ?_, ?_⟩
  · intro action
    exact ⟨policyFor_ofCalls_eq_none_iff, fun _ hp _ => satisfiedBy_policyFor_ofCalls_iff hp⟩
  · intro calls' hsame
    have hc' := colonsCached_ofCalls calls'
    have hmode := strictConditions_ofCalls_congr hsame
    have hkeys := keys_ofCalls_congr hsame
    refine ⟨hkeys, fun q => ⟨?_, ?_⟩⟩
    · exact evaluate_congr hc hc' hmode rfl fun key => grantsAt_ofCalls_congr hsame key q
    · exact decide_congr hc hc' hmode hkeys rfl fun key => grantsAt_ofCalls_congr hsame key q

/-- Two policies under one key, added in either order, one of them twice, with strict mode asked for
at the end or at the beginning. -/
theorem ofCalls_depends_only_on_members_reordered :
    let alice : RequestPredicate String Unit := Predicate.ofBool fun q => q.subject == "alice"
    let bob : RequestPredicate String Unit := Predicate.ofBool fun q => q.subject == "bob"
    let calls : List (Call String Unit) :=
      [.addPolicy "edit:own" alice, .addPolicy "edit:own" bob, .addPolicy "read" bob, .strict]
    let calls' : List (Call String Unit) :=
      [.strict, .addPolicy "read" bob, .addPolicy "edit:own" bob, .addPolicy "edit:own" alice,
        .addPolicy "edit:own" bob]
    (∀ call, call ∈ calls ↔ call ∈ calls') ∧ (ofCalls calls).keys = (ofCalls calls').keys ∧
      ∀ q, ((ofCalls calls).evaluate q).value.value = ((ofCalls calls').evaluate q).value.value ∧
        ((ofCalls calls).decide q).value.value = ((ofCalls calls').decide q).value.value := by
  intro alice bob calls calls'
  have hsame : ∀ call, call ∈ calls ↔ call ∈ calls' := by
    intro call
    simp only [calls, calls', List.mem_cons, List.not_mem_nil, or_false]
    tauto
  exact ⟨hsame, (ofCalls_depends_only_on_members calls).2.2 calls' hsame⟩

end Evaluator

end AccessPolicy
