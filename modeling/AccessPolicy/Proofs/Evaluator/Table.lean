import AccessPolicy.Evaluator
import AccessPolicy.Proofs.Action
import AccessPolicy.Proofs.KeyMap
import Mathlib.Data.List.Basic

/-! Tables of policies as they are built by calls. Every call keeps the colon positions stored in
the table those of its keys, so that a policy applies to an action as its key does, and a call that
adds a policy adds what it grants and takes nothing away. -/

namespace AccessPolicy.Evaluator

variable {S R : Type}

/-- A step in building a table. -/
inductive Call (S R : Type) where
  | addPolicy (key : String) (predicate : RequestPredicate S R)
  | strict

/-- The table after a call. -/
def perform (e : Evaluator S R) : Call S R → Evaluator S R
  | .addPolicy key predicate => (e.addPolicy key predicate).value
  | .strict => e.withStrictConditions

/-- The table that calls build from the empty one. -/
def ofCalls (calls : List (Call S R)) : Evaluator S R := calls.foldl perform empty

/-- The table in one of its two modes. -/
def inMode (e : Evaluator S R) (strict : Bool) : Evaluator S R :=
  if strict then e.withStrictConditions else e

/-- The rule by which a key applies to an action in the mode of the table. -/
def ruleFor? (e : Evaluator S R) (key action : String) : Option MatchRule :=
  ((Action.parse key).matchRule? (Action.parse action)).filter fun rule =>
    !(e.strictConditions && rule == .conditionCoversBase)

/-- The policy stored under `key` holds for a request. -/
def GrantsAt (e : Evaluator S R) (key : String) (q : Request S R) : Prop :=
  ∃ entry, e.policies.get? key = some entry ∧ entry.predicate.satisfiedBy q = true

/-- Every stored colon position is that of the first colon of its key. -/
def ColonsCached (e : Evaluator S R) : Prop :=
  ∀ key entry, e.policies.get? key = some entry → entry.colon = Action.colon? key

theorem applies_of_ruleFor? {e : Evaluator S R} {key action : String} {rule : MatchRule}
    (hrule : e.ruleFor? key action = some rule) :
    Action.Applies rule key action ∧
      (e.strictConditions = true → rule ≠ .conditionCoversBase) := by
  obtain ⟨hm, hmode⟩ := Option.filter_eq_some_iff.mp hrule
  refine ⟨Action.applies_iff_holds.mpr (Action.holds_of_matchRule? hm), ?_⟩
  intro hstrict
  simpa [hstrict] using hmode

/-- A key applies to an action if one of the rules does that the mode keeps. -/
theorem ruleFor?_isSome_iff {e : Evaluator S R} {key action : String} :
    (e.ruleFor? key action).isSome = true ↔
      ∃ rule, Action.Applies rule key action ∧
        (e.strictConditions = true → rule ≠ .conditionCoversBase) := by
  rw [Option.isSome_iff_exists]
  constructor
  · rintro ⟨rule, hrule⟩
    exact ⟨rule, applies_of_ruleFor? hrule⟩
  · rintro ⟨rule, ha, hmode⟩
    obtain ⟨first, hm, hle⟩ := Action.exists_matchRule?_of_holds (Action.applies_iff_holds.mp ha)
    refine ⟨first, Option.filter_eq_some_iff.mpr ⟨hm, ?_⟩⟩
    cases hstrict : e.strictConditions with
    | false => rfl
    | true =>
      -- the first rule is excluded only if the given one is the last and excluded as well
      have hne := hmode hstrict
      cases rule <;> cases first <;> simp_all [MatchRule.rank]

/-! ### Calls one by one -/

theorem get?_addPolicy (e : Evaluator S R) (k : String) (p : RequestPredicate S R)
    (key : String) :
    (e.addPolicy k p).value.policies.get? key =
      if key = k then
        some (match e.policies.get? k with
          | some entry => { entry with predicate := entry.predicate.or p }
          | none => ⟨Action.colon? k, p⟩)
      else e.policies.get? key := by
  simp only [addPolicy, Recorded.value_bind, Recorded.value_pure]
  exact KeyMap.get?_upsert e.policies k _ key

theorem colonsCached_empty : (empty : Evaluator S R).ColonsCached := by
  intro key entry he
  cases he

theorem ColonsCached.perform {e : Evaluator S R} (hc : e.ColonsCached) (call : Call S R) :
    (e.perform call).ColonsCached := by
  cases call with
  | addPolicy k p =>
    intro key entry he
    rw [Evaluator.perform, get?_addPolicy] at he
    split at he
    · next heq =>
      subst heq
      obtain rfl := Option.some.inj he
      split
      · next old hold => exact hc key old hold
      · rfl
    · exact hc key entry he
  | strict => exact hc

theorem colonsCached_ofCalls (calls : List (Call S R)) : (ofCalls calls).ColonsCached := by
  suffices h : ∀ e : Evaluator S R, e.ColonsCached → (calls.foldl perform e).ColonsCached from
    h empty colonsCached_empty
  induction calls with
  | nil => exact fun _ hc => hc
  | cons call calls ih => exact fun e hc => ih _ (hc.perform call)

theorem grantsAt_withStrictConditions {e : Evaluator S R} {key : String} {q : Request S R} :
    e.withStrictConditions.GrantsAt key q ↔ e.GrantsAt key q :=
  Iff.rfl

/-- A policy that is added grants under its key, beside those that stand there. -/
theorem grantsAt_addPolicy_iff {e : Evaluator S R} {k : String} {p : RequestPredicate S R}
    {key : String} {q : Request S R} :
    (e.addPolicy k p).value.GrantsAt key q ↔
      e.GrantsAt key q ∨ key = k ∧ p.satisfiedBy q = true := by
  unfold GrantsAt
  rw [get?_addPolicy]
  split
  · next heq =>
    subst heq
    cases hold : e.policies.get? key <;> simp
  · next hne => simp [hne]

/-- A policy holds under a key exactly if it did before the calls or one of them adds one that does:
no call takes anything away. -/
theorem grantsAt_foldl_iff {calls : List (Call S R)} {e : Evaluator S R} {key : String}
    {q : Request S R} :
    (calls.foldl perform e).GrantsAt key q ↔
      e.GrantsAt key q ∨ ∃ p, Call.addPolicy key p ∈ calls ∧ p.satisfiedBy q = true := by
  induction calls generalizing e with
  | nil => simp
  | cons call calls ih =>
    rw [List.foldl_cons, ih]
    cases call with
    | strict => simp [perform, grantsAt_withStrictConditions]
    | addPolicy k p =>
      rw [perform, grantsAt_addPolicy_iff, or_assoc]
      refine or_congr_right ?_
      constructor
      · rintro (⟨rfl, hp⟩ | ⟨p', hmem, hp'⟩)
        · exact ⟨p, List.mem_cons_self, hp⟩
        · exact ⟨p', List.mem_cons_of_mem _ hmem, hp'⟩
      · rintro ⟨p', hmem, hp'⟩
        rcases List.mem_cons.mp hmem with heq | hmem
        · obtain ⟨rfl, rfl⟩ := Call.addPolicy.inj heq
          exact .inl ⟨rfl, hp'⟩
        · exact .inr ⟨p', hmem, hp'⟩

theorem strictConditions_foldl_iff {calls : List (Call S R)} {e : Evaluator S R} :
    (calls.foldl perform e).strictConditions = true ↔
      e.strictConditions = true ∨ Call.strict ∈ calls := by
  induction calls generalizing e with
  | nil => simp
  | cons call calls ih =>
    rw [List.foldl_cons, ih]
    cases call <;> simp [perform, withStrictConditions, addPolicy]

theorem mem_keys_iff {e : Evaluator S R} {key : String} :
    key ∈ e.keys ↔ ∃ entry, e.policies.get? key = some entry :=
  KeyMap.mem_keys_iff

theorem mem_keys_addPolicy_iff {e : Evaluator S R} {k key : String} {p : RequestPredicate S R} :
    key ∈ (e.addPolicy k p).value.keys ↔ key ∈ e.keys ∨ key = k := by
  rw [mem_keys_iff, mem_keys_iff, get?_addPolicy]
  by_cases heq : key = k <;> simp [heq]

theorem mem_keys_foldl_iff {calls : List (Call S R)} {e : Evaluator S R} {key : String} :
    key ∈ (calls.foldl perform e).keys ↔ key ∈ e.keys ∨ ∃ p, Call.addPolicy key p ∈ calls := by
  induction calls generalizing e with
  | nil => simp
  | cons call calls ih =>
    rw [List.foldl_cons, ih]
    cases call with
    | strict => simp [perform, withStrictConditions, keys]
    | addPolicy k p =>
      rw [perform, mem_keys_addPolicy_iff, or_assoc]
      refine or_congr_right ?_
      constructor
      · rintro (rfl | ⟨p', hmem⟩)
        · exact ⟨p, List.mem_cons_self⟩
        · exact ⟨p', List.mem_cons_of_mem _ hmem⟩
      · rintro ⟨p', hmem⟩
        rcases List.mem_cons.mp hmem with heq | hmem
        · exact .inl (Call.addPolicy.inj heq).1
        · exact .inr ⟨p', hmem⟩

/-! ### Tables built from the empty one -/

section OfCalls

variable {calls : List (Call S R)} {key : String}

theorem strictConditions_ofCalls_iff :
    (ofCalls calls).strictConditions = true ↔ Call.strict ∈ calls := by
  rw [ofCalls, strictConditions_foldl_iff]
  simp [empty]

theorem grantsAt_ofCalls_iff {q : Request S R} :
    (ofCalls calls).GrantsAt key q ↔
      ∃ p, Call.addPolicy key p ∈ calls ∧ p.satisfiedBy q = true := by
  rw [ofCalls, grantsAt_foldl_iff]
  simp [GrantsAt, empty]

theorem mem_keys_ofCalls_iff : key ∈ (ofCalls calls).keys ↔ ∃ p, Call.addPolicy key p ∈ calls := by
  rw [ofCalls, mem_keys_foldl_iff]
  simp [keys, KeyMap.keys, empty, KeyMap.empty]

end OfCalls

/-! ### The policies that apply to an action -/

variable {e : Evaluator S R}

theorem applies?_eq (hc : e.ColonsCached) {key action : String} {entry : Entry S R}
    (he : (key, entry) ∈ e.policies.toList) :
    e.applies? (Action.parse action) key entry =
      (e.ruleFor? key action).map fun rule => ⟨key, rule, entry.predicate⟩ := by
  have hcolon : Action.withColon key entry.colon = Action.parse key := by
    rw [hc key entry (KeyMap.mem_toList_iff.mp he), Action.parse]
  rw [applies?, hcolon, ruleFor?]
  cases (Action.parse key).matchRule? (Action.parse action) with
  | none => rfl
  | some rule =>
    rw [Option.filter_some]
    cases hmode : e.strictConditions && rule == .conditionCoversBase <;> simp [hmode]

theorem applicable_eq (hc : e.ColonsCached) (action : String) :
    e.applicable action = e.policies.toList.filterMap fun (key, entry) =>
      (e.ruleFor? key action).map fun rule => ⟨key, rule, entry.predicate⟩ :=
  List.filterMap_congr fun _ he => applies?_eq hc he

theorem mem_applicable_iff (hc : e.ColonsCached) {action : String} {a : Applicable S R} :
    a ∈ e.applicable action ↔
      e.ruleFor? a.key action = some a.rule ∧
        ∃ entry, e.policies.get? a.key = some entry ∧ entry.predicate = a.predicate := by
  rw [applicable_eq hc, List.mem_filterMap]
  constructor
  · rintro ⟨⟨key, entry⟩, he, ha⟩
    obtain ⟨rule, hrule, rfl⟩ := Option.map_eq_some_iff.mp ha
    exact ⟨hrule, entry, KeyMap.mem_toList_iff.mp he, rfl⟩
  · rintro ⟨hrule, entry, he, hp⟩
    refine ⟨(a.key, entry), KeyMap.mem_toList_iff.mpr he, ?_⟩
    show (e.ruleFor? a.key action).map _ = some a
    rw [hrule, Option.map_some, hp]

theorem map_applicable (hc : e.ColonsCached) (action : String) :
    (e.applicable action).map (fun a => (a.key, a.predicate)) =
      (e.policies.toList.filter fun (key, _) => (e.ruleFor? key action).isSome).map
        fun (key, entry) => (key, entry.predicate) := by
  rw [applicable_eq hc]
  induction e.policies.toList with
  | nil => rfl
  | cons entry rest ih =>
    rw [List.filterMap_cons, List.filter_cons]
    cases hrule : e.ruleFor? entry.1 action <;> simp [hrule, ih]

/-- The keys that apply to an action, in order. -/
def keysFor (e : Evaluator S R) (action : String) : List String :=
  e.keys.filter fun key => (e.ruleFor? key action).isSome

theorem pairwise_keysFor (e : Evaluator S R) (action : String) :
    (e.keysFor action).Pairwise (· < ·) :=
  e.policies.pairwise_keys.filter _

theorem map_key_applicable (hc : e.ColonsCached) (action : String) :
    (e.applicable action).map (·.key) = e.keysFor action := by
  have hpairs := congrArg (List.map Prod.fst) (map_applicable hc action)
  rw [List.map_map, List.map_map] at hpairs
  rw [keysFor, keys, KeyMap.keys, List.filter_map]
  exact hpairs

theorem pairwise_applicable (hc : e.ColonsCached) (action : String) :
    (e.applicable action).Pairwise fun a b => a.key < b.key := by
  have hkeys := e.pairwise_keysFor action
  rw [← map_key_applicable hc] at hkeys
  exact List.pairwise_map.mp hkeys

end AccessPolicy.Evaluator
