import AccessPolicy.Proofs.Evaluator.Table
import AccessPolicy.Proofs.Predicate

/-! Deciding policy by policy and evaluating the combined policy come to the same verdict by the
same checks. Both consult the policies that apply in key order, up to the first that holds; a
decision also names that policy, which is the one of the least key, or counts the policies that
apply. -/

namespace AccessPolicy.Evaluator

variable {S R : Type} {e : Evaluator S R} {q : Request S R}

/-- The verdict of a combined policy with its trace; without a policy nothing is consulted. -/
def verdict (combined : Option (RequestPredicate S R)) (q : Request S R) : Traced Bool :=
  match combined with
  | some p => p.run q
  | none => pure false

theorem verdict_anyOf? (ps : List (RequestPredicate S R)) (q : Request S R) :
    verdict (anyOf? ps) q = (Predicate.anyOf ps).run q := by
  cases ps with
  | nil => rfl
  | cons p ps => rw [anyOf?, Predicate.foldl_or, verdict, Predicate.anyOf]

theorem policyFor_value (e : Evaluator S R) (action : String) :
    (e.policyFor action).value = anyOf? ((e.applicable action).map (·.predicate)) := rfl

theorem evaluate_value (e : Evaluator S R) (q : Request S R) :
    (e.evaluate q).value = verdict (e.policyFor q.action).value q := rfl

theorem evaluate_value_eq_run (e : Evaluator S R) (q : Request S R) :
    (e.evaluate q).value =
      (Predicate.anyOf ((e.applicable q.action).map (·.predicate))).run q := by
  rw [evaluate_value, policyFor_value, verdict_anyOf?]

theorem policyFor_eq_none_iff {action : String} :
    (e.policyFor action).value = none ↔ e.applicable action = [] := by
  rw [policyFor_value]
  cases e.applicable action <;> simp [anyOf?]

/-! ### Deciding policy by policy -/

theorem decideAmong_of_satisfied {a : Applicable S R} (considered : Nat)
    (rest : List (Applicable S R)) (hs : a.predicate.satisfiedBy q = true) :
    decideAmong q considered (a :: rest) =
      ⟨⟨.allow a.key a.rule, (a.predicate.run q).notes⟩, [a.event q.action]⟩ := by
  rw [Predicate.satisfiedBy] at hs
  simp only [decideAmong, hs, if_true]
  rfl

theorem decideAmong_of_not_satisfied {a : Applicable S R} (considered : Nat)
    (rest : List (Applicable S R)) (hs : a.predicate.satisfiedBy q = false) :
    decideAmong q considered (a :: rest) =
      ⟨⟨(decideAmong q (considered + 1) rest).value.value,
          (a.predicate.run q).notes ++ (decideAmong q (considered + 1) rest).value.notes⟩,
        a.event q.action :: (decideAmong q (considered + 1) rest).notes⟩ := by
  rw [Predicate.satisfiedBy] at hs
  simp only [decideAmong, hs, Bool.false_eq_true, if_false]
  apply Recorded.ext
  · rfl
  · simp

theorem isAllowed_decideAmong (q : Request S R) (considered : Nat)
    (policies : List (Applicable S R)) :
    Decision.isAllowed <$> (decideAmong q considered policies).value =
      (Predicate.anyOf (policies.map (·.predicate))).run q := by
  induction policies generalizing considered with
  | nil => rfl
  | cons a rest ih =>
    rw [List.map_cons, Predicate.anyOf]
    cases hs : a.predicate.satisfiedBy q with
    | true =>
      rw [decideAmong_of_satisfied _ _ hs, Predicate.run_or_of_satisfied _ hs]
      exact Recorded.ext rfl (Recorded.notes_map _ _)
    | false =>
      rw [decideAmong_of_not_satisfied _ _ hs, Predicate.run_or_of_not_satisfied _ hs,
        ← ih (considered + 1)]
      apply Recorded.ext <;> simp

/-- The first policy that holds decides. -/
theorem decideAmong_value (q : Request S R) (considered : Nat)
    (policies : List (Applicable S R)) :
    (decideAmong q considered policies).value.value =
      match policies.find? (·.predicate.satisfiedBy q) with
      | some a => .allow a.key a.rule
      | none => .deny (denial q.action (considered + policies.length)) := by
  induction policies generalizing considered with
  | nil => rfl
  | cons a rest ih =>
    rw [List.find?_cons]
    cases hs : a.predicate.satisfiedBy q with
    | true => rw [decideAmong_of_satisfied _ _ hs]
    | false =>
      rw [decideAmong_of_not_satisfied _ _ hs, ih, List.length_cons,
        show considered + 1 + rest.length = considered + (rest.length + 1) by omega]

/-- Deciding consults what evaluating consults, and allows what it allows. -/
theorem isAllowed_decide (e : Evaluator S R) (q : Request S R) :
    Decision.isAllowed <$> (e.decide q).value = (e.evaluate q).value := by
  rw [evaluate_value_eq_run, decide, isAllowed_decideAmong]

/-- The policy named by a decision is the first that holds among those that apply. -/
theorem least_of_decide_eq_allow (hc : e.ColonsCached) {policy : String} {rule : MatchRule}
    (hd : (e.decide q).value.value = .allow policy rule) :
    e.ruleFor? policy q.action = some rule ∧ e.GrantsAt policy q ∧
      ∀ key, (e.ruleFor? key q.action).isSome = true → e.GrantsAt key q → policy ≤ key := by
  rw [decide, decideAmong_value] at hd
  split at hd
  · next a hfind =>
    obtain ⟨rfl, rfl⟩ := Decision.allow.inj hd
    obtain ⟨hs, before, after, hsplit, hbefore⟩ := List.find?_eq_some_iff_append.mp hfind
    have ha : a ∈ e.applicable q.action := hsplit ▸ by simp
    obtain ⟨hrule, entry, he, hp⟩ := (mem_applicable_iff hc).mp ha
    refine ⟨hrule, ⟨entry, he, hp ▸ hs⟩, ?_⟩
    rintro key hkey ⟨entry', he', hs'⟩
    obtain ⟨rule', hrule'⟩ := Option.isSome_iff_exists.mp hkey
    have hb : (⟨key, rule', entry'.predicate⟩ : Applicable S R) ∈ e.applicable q.action :=
      (mem_applicable_iff hc).mpr ⟨hrule', entry', he', rfl⟩
    have hsorted := pairwise_applicable hc q.action
    rw [hsplit] at hb hsorted
    -- what comes before the first that holds does not hold, and what comes after has a larger key
    rcases List.mem_append.mp hb with hb | hb
    · have hnot := hbefore _ hb
      simp [hs'] at hnot
    · rcases List.mem_cons.mp hb with hb | hb
      · have heq : key = a.key := congrArg Applicable.key hb
        exact heq ▸ String.le_refl key
      · exact String.not_lt.mp (String.lt_asymm
          ((List.pairwise_cons.mp (List.pairwise_append.mp hsorted).2.1).1 _ hb))
  · cases hd

theorem satisfiedBy_anyOf_applicable_iff (hc : e.ColonsCached) {action : String} :
    (Predicate.anyOf ((e.applicable action).map (·.predicate))).satisfiedBy q = true ↔
      ∃ key, (e.ruleFor? key action).isSome = true ∧ e.GrantsAt key q := by
  rw [Predicate.satisfiedBy_anyOf, List.any_map, List.any_eq_true]
  constructor
  · rintro ⟨a, ha, hs⟩
    obtain ⟨hrule, entry, he, hp⟩ := (mem_applicable_iff hc).mp ha
    exact ⟨a.key, by rw [hrule]; rfl, entry, he, hp ▸ hs⟩
  · rintro ⟨key, hkey, entry, he, hs⟩
    obtain ⟨rule, hrule⟩ := Option.isSome_iff_exists.mp hkey
    exact ⟨⟨key, rule, entry.predicate⟩, (mem_applicable_iff hc).mpr ⟨hrule, entry, he, rfl⟩, hs⟩

/-- A request is allowed if a key that applies grants it. -/
theorem evaluate_iff (hc : e.ColonsCached) :
    (e.evaluate q).value.value = true ↔
      ∃ key, (e.ruleFor? key q.action).isSome = true ∧ e.GrantsAt key q := by
  rw [evaluate_value_eq_run]
  exact satisfiedBy_anyOf_applicable_iff hc

theorem satisfiedBy_policyFor_iff (hc : e.ColonsCached) {action : String}
    {combined : RequestPredicate S R} (hp : (e.policyFor action).value = some combined) :
    combined.satisfiedBy q = true ↔
      ∃ key, (e.ruleFor? key action).isSome = true ∧ e.GrantsAt key q := by
  have hrun := verdict_anyOf? ((e.applicable action).map (·.predicate)) q
  rw [← policyFor_value, hp, verdict] at hrun
  rw [Predicate.satisfiedBy, hrun]
  exact satisfiedBy_anyOf_applicable_iff hc

/-- A table built by calls grants a request exactly if one of the calls adds a policy that holds
under a key that applies. -/
theorem evaluate_ofCalls_iff {calls : List (Call S R)} :
    ((ofCalls calls).evaluate q).value.value = true ↔
      ∃ key p, Call.addPolicy key p ∈ calls ∧ p.satisfiedBy q = true ∧
        ∃ rule, Action.Applies rule key q.action ∧
          (Call.strict ∈ calls → rule ≠ .conditionCoversBase) := by
  rw [evaluate_iff (colonsCached_ofCalls calls)]
  simp only [ruleFor?_isSome_iff, strictConditions_ofCalls_iff, grantsAt_ofCalls_iff]
  constructor
  · rintro ⟨key, hrule, p, hmem, hp⟩
    exact ⟨key, p, hmem, hp, hrule⟩
  · rintro ⟨key, p, hmem, hp, hrule⟩
    exact ⟨key, hrule, p, hmem, hp⟩

theorem isAllowed_decide_value (e : Evaluator S R) (q : Request S R) :
    (e.decide q).value.value.isAllowed = (e.evaluate q).value.value := by
  rw [← isAllowed_decide, Recorded.value_map]

/-- The decision names the least key that applies and grants. -/
theorem decide_eq_allow_iff (hc : e.ColonsCached) {policy : String} {rule : MatchRule} :
    (e.decide q).value.value = .allow policy rule ↔
      e.ruleFor? policy q.action = some rule ∧ e.GrantsAt policy q ∧
        ∀ key, (e.ruleFor? key q.action).isSome = true → e.GrantsAt key q → policy ≤ key := by
  refine ⟨least_of_decide_eq_allow hc, ?_⟩
  rintro ⟨hrule, hgrants, hleast⟩
  have hsome : (e.ruleFor? policy q.action).isSome = true := by rw [hrule]; rfl
  have hallowed : (e.decide q).value.value.isAllowed = true := by
    rw [isAllowed_decide_value, evaluate_iff hc]
    exact ⟨policy, hsome, hgrants⟩
  cases hd : (e.decide q).value.value with
  | deny reason =>
    rw [hd] at hallowed
    cases hallowed
  | allow policy' rule' =>
    obtain ⟨hrule', hgrants', hleast'⟩ := least_of_decide_eq_allow hc hd
    have heq : policy' = policy :=
      String.le_antisymm (hleast' policy hsome hgrants)
        (hleast policy' (by rw [hrule']; rfl) hgrants')
    subst heq
    rw [hrule] at hrule'
    rw [Option.some.inj hrule']

/-- How many keys apply to an action. -/
def countFor (e : Evaluator S R) (action : String) : Nat :=
  (e.keys.filter fun key => (e.ruleFor? key action).isSome).length

theorem length_applicable (hc : e.ColonsCached) (action : String) :
    (e.applicable action).length = e.countFor action := by
  rw [countFor, ← keysFor, ← map_key_applicable hc, List.length_map]

/-- A denial tells how many keys applied. -/
theorem reason_of_decide_eq_deny (hc : e.ColonsCached) {reason : String}
    (hd : (e.decide q).value.value = .deny reason) :
    reason = denial q.action (e.countFor q.action) := by
  rw [decide, decideAmong_value] at hd
  split at hd
  · cases hd
  · rw [Nat.zero_add, length_applicable hc] at hd
    exact (Decision.deny.inj hd).symm

theorem policyFor_eq_none_iff_countFor (hc : e.ColonsCached) {action : String} :
    (e.policyFor action).value = none ↔ e.countFor action = 0 := by
  rw [policyFor_eq_none_iff, ← length_applicable hc, List.length_eq_zero_iff]

theorem denial_eq_denial_zero_iff (action : String) {considered : Nat} :
    denial action considered = denial action 0 ↔ considered = 0 := by
  constructor
  · intro h
    by_cases hzero : considered = 0
    · exact hzero
    · rw [denial, denial, if_neg hzero, if_pos rfl] at h
      have hlist := congrArg (fun s : String => s.toList[3]?) h
      simp [toString] at hlist
  · rintro rfl
    rfl

/-- On every table built by calls, a decision, an evaluation and the combined policy come to the
same verdict with the same trace. A decision that grants names the least key whose policy applies
and holds, with its rule; one that denies says that no policy applies if there is no combined
policy, and otherwise how many keys apply. -/
theorem decide_agrees_with_evaluate (calls : List (Call S R)) (q : Request S R) :
    let e : Evaluator S R := ofCalls calls
    Decision.isAllowed <$> (e.decide q).value = (e.evaluate q).value ∧
      (e.evaluate q).value = verdict (e.policyFor q.action).value q ∧
      (∀ policy rule, (e.decide q).value.value = .allow policy rule ↔
        e.ruleFor? policy q.action = some rule ∧ e.GrantsAt policy q ∧
          ∀ key, (e.ruleFor? key q.action).isSome = true → e.GrantsAt key q → policy ≤ key) ∧
      ∀ reason, (e.decide q).value.value = .deny reason →
        (reason = s!"no policy matches action '{q.action}'" ↔
          (e.policyFor q.action).value = none) ∧
        ((e.policyFor q.action).value ≠ none → reason =
          s!"no matching policy granted '{q.action}' ({e.countFor q.action} considered)") := by
  intro e
  have hc : e.ColonsCached := colonsCached_ofCalls calls
  refine ⟨isAllowed_decide e q, evaluate_value e q, fun _ _ => decide_eq_allow_iff hc, ?_⟩
  intro reason hd
  rw [reason_of_decide_eq_deny hc hd, Ne, policyFor_eq_none_iff_countFor hc]
  refine ⟨?_, fun hne => if_neg hne⟩
  rw [← denial_eq_denial_zero_iff q.action]
  rfl

end AccessPolicy.Evaluator
