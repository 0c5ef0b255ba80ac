import AccessPolicy.Proofs.Evaluator.Decision

/-! The policy stored under a key, with its trace. It is the disjunction of the policies added under
that key in the order of the calls, so an evaluation consults the policies added under the keys that
apply: by key, and under one key in the order in which they were added. -/

namespace AccessPolicy.Evaluator

variable {S R : Type} {e : Evaluator S R}

/-- The policy stored under a key; where there is none, nothing is granted. -/
def policyAt (e : Evaluator S R) (key : String) : RequestPredicate S R :=
  match e.policies.get? key with
  | some entry => entry.predicate
  | none => .deny

/-- The policy that a call adds under a key, if it adds one there. -/
def Call.addedAt? (key : String) : Call S R → Option (RequestPredicate S R)
  | .addPolicy k p => if k = key then some p else none
  | .strict => none

theorem policyAt_inMode (e : Evaluator S R) (strict : Bool) (key : String) :
    (e.inMode strict).policyAt key = e.policyAt key := by
  cases strict <;> rfl

/-- A policy that is added under a key is an alternative to those that stand there. -/
theorem policyAt_addPolicy (e : Evaluator S R) (k : String) (p : RequestPredicate S R)
    (key : String) :
    (e.addPolicy k p).value.policyAt key =
      if k = key then (e.policyAt key).or p else e.policyAt key := by
  rw [policyAt, get?_addPolicy]
  by_cases heq : k = key
  · subst heq
    rw [if_pos rfl, if_pos rfl, policyAt]
    cases e.policies.get? k with
    | none => exact (Predicate.deny_or p).symm
    | some entry => rfl
  · rw [if_neg (Ne.symm heq), if_neg heq, policyAt]

theorem policyAt_foldl (calls : List (Call S R)) (e : Evaluator S R) (key : String) :
    (calls.foldl perform e).policyAt key =
      (e.policyAt key).or (Predicate.anyOf (calls.filterMap (Call.addedAt? key))) := by
  induction calls generalizing e with
  | nil => exact (Predicate.or_deny _).symm
  | cons call calls ih =>
    rw [List.foldl_cons, ih, List.filterMap_cons]
    cases call with
    | strict => rfl
    | addPolicy k p =>
      rw [perform, policyAt_addPolicy, Call.addedAt?]
      by_cases heq : k = key
      · rw [if_pos heq, if_pos heq, Predicate.anyOf, Predicate.or_assoc]
      · rw [if_neg heq, if_neg heq]

/-- Under a key stand the policies that calls added there, as alternatives in their order. -/
theorem policyAt_ofCalls (calls : List (Call S R)) (key : String) :
    (ofCalls calls).policyAt key = Predicate.anyOf (calls.filterMap (Call.addedAt? key)) := by
  rw [ofCalls, policyAt_foldl]
  exact Predicate.deny_or _

theorem map_predicate_applicable (hc : e.ColonsCached) (action : String) :
    (e.applicable action).map (·.predicate) = (e.keysFor action).map e.policyAt := by
  rw [← map_key_applicable hc, List.map_map]
  refine List.map_congr_left fun a ha => ?_
  obtain ⟨-, entry, he, hp⟩ := (mem_applicable_iff hc).mp ha
  rw [Function.comp_apply, policyAt, he]
  exact hp.symm

/-- An evaluation consults the policies stored under the keys that apply, in key order. -/
theorem evaluate_value_eq_run_policyAt (hc : e.ColonsCached) (q : Request S R) :
    (e.evaluate q).value =
      (Predicate.anyOf ((e.keysFor q.action).map e.policyAt)).run q := by
  rw [evaluate_value_eq_run, map_predicate_applicable hc]

end AccessPolicy.Evaluator
