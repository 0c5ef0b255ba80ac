import AccessPolicy.Proofs.Evaluator.Decision

/-! What a table reports while it matches policies against a request. Both ways to the verdict
report the policies that apply, one by one and in key order. Evaluating reports all of them, because
it combines the policies before it consults any, and then the verdict. Deciding reports a policy as
it consults it, so its report is that of evaluating cut off after the policy that grants. -/

namespace AccessPolicy.Evaluator

variable {S R : Type} {e : Evaluator S R} {q : Request S R}

/-- The events about the keys that apply to an action, in key order. -/
def matchEvents (e : Evaluator S R) (action : String) : List Event :=
  e.keys.filterMap fun key => (e.ruleFor? key action).map (.policyApplies key action)

theorem matchEvents_eq_map_applicable (hc : e.ColonsCached) (action : String) :
    e.matchEvents action = (e.applicable action).map (·.event action) := by
  rw [matchEvents, keys, KeyMap.keys, applicable_eq hc, List.filterMap_map, List.map_filterMap]
  apply List.filterMap_congr
  rintro ⟨key, entry⟩ -
  show (e.ruleFor? key action).map _ = ((e.ruleFor? key action).map _).map _
  rw [Option.map_map]
  rfl

theorem mem_matchEvents_iff {action : String} {event : Event} :
    event ∈ e.matchEvents action ↔
      ∃ key rule, key ∈ e.keys ∧ e.ruleFor? key action = some rule ∧
        event = .policyApplies key action rule := by
  rw [matchEvents, List.mem_filterMap]
  constructor
  · rintro ⟨key, hkey, hevent⟩
    obtain ⟨rule, hrule, rfl⟩ := Option.map_eq_some_iff.mp hevent
    exact ⟨key, rule, hkey, hrule, rfl⟩
  · rintro ⟨key, rule, hkey, hrule, rfl⟩
    exact ⟨key, hkey, by rw [hrule, Option.map_some]⟩

/-- Evaluating logs all policies that apply, then the verdict. -/
theorem notes_evaluate (e : Evaluator S R) (q : Request S R) :
    (e.evaluate q).notes =
      (e.applicable q.action).map (·.event q.action) ++
        [.evaluatedRequest q.action (e.evaluate q).value.value] := by
  simp [evaluate, policyFor, matching, Recorded.notes_note]

/-- Consulting policies in turn reports those up to the first that holds. -/
theorem notes_decideAmong (q : Request S R) (considered : Nat) (before : List (Applicable S R))
    (hbefore : ∀ a ∈ before, a.predicate.satisfiedBy q = false) :
    (decideAmong q considered before).notes = before.map (·.event q.action) ∧
      ∀ a after, a.predicate.satisfiedBy q = true →
        (decideAmong q considered (before ++ a :: after)).notes =
          before.map (·.event q.action) ++ [a.event q.action] := by
  induction before generalizing considered with
  | nil =>
    refine ⟨rfl, fun a after hs => ?_⟩
    rw [List.nil_append, decideAmong_of_satisfied _ _ hs]
    rfl
  | cons b rest ih =>
    have hb := hbefore b List.mem_cons_self
    obtain ⟨hnone, hsome⟩ := ih (considered + 1) fun a ha => hbefore a (List.mem_cons_of_mem _ ha)
    constructor
    · rw [decideAmong_of_not_satisfied _ _ hb, hnone, List.map_cons]
    · intro a after hs
      rw [List.cons_append, decideAmong_of_not_satisfied _ _ hb, hsome a after hs, List.map_cons,
        List.cons_append]

/-- The events of a decision: all events about keys that apply if it denies, and otherwise those up
to the one about the key that grants. -/
def DecisionEvents (events : List Event) (action : String) : Decision → List Event → Prop
  | .allow policy rule, log => ∃ before after,
    events = before ++ .policyApplies policy action rule :: after ∧
      log = before ++ [.policyApplies policy action rule]
  | .deny _, log => log = events

theorem decisionEvents_decideAmong (q : Request S R) (considered : Nat)
    (policies : List (Applicable S R)) :
    DecisionEvents (policies.map (·.event q.action)) q.action
      (decideAmong q considered policies).value.value
      (decideAmong q considered policies).notes := by
  rw [decideAmong_value]
  split
  · next a hfind =>
    obtain ⟨hs, before, after, rfl, hbefore⟩ := List.find?_eq_some_iff_append.mp hfind
    have hnot : ∀ b ∈ before, b.predicate.satisfiedBy q = false := by
      intro b hb
      simpa using hbefore b hb
    refine ⟨before.map (·.event q.action), after.map (·.event q.action), ?_, ?_⟩
    · rw [List.map_append, List.map_cons]
      rfl
    · exact (notes_decideAmong q considered before hnot).2 a after hs
  · next hfind =>
    have hnot : ∀ b ∈ policies, b.predicate.satisfiedBy q = false := by
      intro b hb
      simpa using List.find?_eq_none.mp hfind b hb
    exact (notes_decideAmong q considered policies hnot).1

/-- What is logged of a decision is logged of an evaluation. -/
theorem DecisionEvents.subset {events log : List Event} {action : String} {decision : Decision}
    (h : DecisionEvents events action decision log) : log ⊆ events := by
  cases decision with
  | allow policy rule =>
    obtain ⟨before, after, rfl, rfl⟩ := h
    simp
  | deny reason => exact (show log = events from h) ▸ List.Subset.refl _

theorem ruleFor?_eq_none_of_strict {key action : String} (hs : e.strictConditions = true)
    (hm : (Action.parse key).matchRule? (Action.parse action) = some .conditionCoversBase) :
    e.ruleFor? key action = none := by
  rw [ruleFor?, hm, Option.filter_some, hs]
  rfl

/-- Every table built by calls reports, when it evaluates a request, the keys that apply in key
order with their rules, and then the verdict. When it decides, it reports the same keys up to the
one that grants, and no verdict. A key that strict mode leaves out is reported by neither. -/
theorem log_of_evaluate_and_decide (calls : List (Call S R)) (q : Request S R) :
    let e : Evaluator S R := ofCalls calls
    let events := e.matchEvents q.action
    e.keys.Pairwise (· < ·) ∧
    (e.evaluate q).notes =
      events ++ [.evaluatedRequest q.action (e.evaluate q).value.value] ∧
    DecisionEvents events q.action (e.decide q).value.value (e.decide q).notes ∧
    (∀ action allowed, .evaluatedRequest action allowed ∉ (e.decide q).notes) ∧
    ∀ key, Call.strict ∈ calls →
      (Action.parse key).matchRule? (Action.parse q.action) = some .conditionCoversBase →
      ∀ action rule, .policyApplies key action rule ∉ (e.evaluate q).notes ∧
        .policyApplies key action rule ∉ (e.decide q).notes := by
  intro e events
  have hc : e.ColonsCached := colonsCached_ofCalls calls
  have hevents : (e.applicable q.action).map (·.event q.action) = events :=
    (matchEvents_eq_map_applicable hc q.action).symm
  have hevaluate : (e.evaluate q).notes =
      events ++ [.evaluatedRequest q.action (e.evaluate q).value.value] := by
    rw [notes_evaluate, hevents]
  have hdecide : DecisionEvents events q.action (e.decide q).value.value (e.decide q).notes :=
    hevents ▸ decisionEvents_decideAmong q 0 (e.applicable q.action)
  refine ⟨e.policies.pairwise_keys, hevaluate, hdecide, ?_, ?_⟩
  · intro action allowed hmem
    obtain ⟨key, rule, -, -, heq⟩ := mem_matchEvents_iff.mp (hdecide.subset hmem)
    cases heq
  · intro key hstrict hm action rule
    have hnone := ruleFor?_eq_none_of_strict (strictConditions_ofCalls_iff.mpr hstrict) hm
    have hnot : .policyApplies key action rule ∉ events := by
      intro hmem
      obtain ⟨key', rule', -, hrule, heq⟩ := mem_matchEvents_iff.mp hmem
      obtain ⟨rfl, rfl, rfl⟩ := Event.policyApplies.inj heq
      rw [hnone] at hrule
      cases hrule
    refine ⟨?_, fun hmem => hnot (hdecide.subset hmem)⟩
    rw [hevaluate, List.mem_append, List.mem_singleton]
    rintro (hmem | heq)
    · exact hnot hmem
    · cases heq

end AccessPolicy.Evaluator
