import AccessPolicy.Registry
import AccessPolicy.Proofs.KeyMap
import Mathlib.Data.List.Basic

/-! Registries and the calls that fill them. A call takes the place of every earlier one for its
name, so what is looked up under a name is the predicate of the last call for it, and the names of a
registry are those for which there is a call. -/

namespace AccessPolicy.Registry

variable {S R : Type} {r : Registry S R} {name : String}

/-- Registering replaces what was under the name and nothing else. -/
theorem lookup_register (r : Registry S R) (added : String) (p : RequestPredicate S R)
    (name : String) :
    (r.register added p).lookup name = if name = added then .ok p else r.lookup name := by
  rw [lookup, register, KeyMap.get?_insert]
  by_cases heq : name = added
  · rw [if_pos heq, if_pos heq]
  · rw [if_neg heq, if_neg heq, lookup]

/-- A lookup fails for the names without a predicate, and says which. -/
theorem lookup_eq_error_iff {error : PolicyError} :
    r.lookup name = .error error ↔ name ∉ r.names ∧ error = .predicateNotFound name := by
  rw [lookup, names, KeyMap.mem_keys_iff]
  cases r.predicates.get? name with
  | some p => simp
  | none => simp [eq_comm]

theorem lookup_eq_ok_iff {p : RequestPredicate S R} :
    r.lookup name = .ok p ↔ r.predicates.get? name = some p := by
  rw [lookup]
  cases r.predicates.get? name <;> simp

theorem mem_names_iff : name ∈ r.names ↔ ∃ p, r.lookup name = .ok p := by
  simp only [names, KeyMap.mem_keys_iff, lookup_eq_ok_iff]

theorem contains_iff : r.contains name = true ↔ ∃ p, r.lookup name = .ok p := by
  simp only [contains, KeyMap.contains, Option.isSome_iff_exists, lookup_eq_ok_iff]

theorem nodup_names (r : Registry S R) : r.names.Nodup :=
  r.predicates.pairwise_keys.imp String.ne_of_lt

/-! ### The predicate of a name -/

variable {q : Request S R}

/-- The predicate of a name holds. -/
def Holds (r : Registry S R) (name : String) (q : Request S R) : Prop :=
  ∃ p, r.lookup name = .ok p ∧ p.satisfiedBy q = true

theorem not_holds_empty : ¬(empty : Registry S R).Holds name q := by
  rintro ⟨p, hp, -⟩
  cases hp

theorem holds_register_iff {added : String} {p : RequestPredicate S R} :
    (r.register added p).Holds name q ↔
      name = added ∧ p.satisfiedBy q = true ∨ name ≠ added ∧ r.Holds name q := by
  rw [Holds, lookup_register]
  by_cases heq : name = added <;> simp [heq, Holds]

/-! ### Calls in turn -/

/-- The registry after calls of `register`, each with a name and a predicate. -/
def registerAll (r : Registry S R) (calls : List (String × RequestPredicate S R)) : Registry S R :=
  calls.foldl (fun r call => r.register call.1 call.2) r

/-- The registry that calls make of the empty one. -/
def ofCalls (calls : List (String × RequestPredicate S R)) : Registry S R := empty.registerAll calls

/-- The last of the calls for `name` is one with the predicate `p`. -/
def LastCall (calls : List (String × RequestPredicate S R)) (name : String)
    (p : RequestPredicate S R) : Prop :=
  ∃ before after, calls = before ++ (name, p) :: after ∧ ∀ p', (name, p') ∉ after

variable {calls : List (String × RequestPredicate S R)} {p : RequestPredicate S R}

theorem not_lastCall_nil : ¬LastCall [] name p := by
  rintro ⟨before, after, heq, -⟩
  cases before <;> cases heq

theorem lastCall_cons_iff {call : String × RequestPredicate S R} :
    LastCall (call :: calls) name p ↔
      LastCall calls name p ∨ call = (name, p) ∧ ∀ p', (name, p') ∉ calls := by
  constructor
  · rintro ⟨before, after, heq, hafter⟩
    cases before with
    | nil =>
      obtain ⟨rfl, rfl⟩ := List.cons.inj heq
      exact .inr ⟨rfl, hafter⟩
    | cons first before =>
      obtain ⟨rfl, rfl⟩ := List.cons.inj heq
      exact .inl ⟨before, after, rfl, hafter⟩
  · rintro (⟨before, after, rfl, hafter⟩ | ⟨rfl, hcalls⟩)
    · exact ⟨call :: before, after, rfl, hafter⟩
    · exact ⟨[], calls, rfl, hcalls⟩

/-- A name is looked up in the calls first, where the last one counts, and in the registry from
which they start if none of them is for it. -/
theorem lookup_registerAll_iff :
    (r.registerAll calls).lookup name = .ok p ↔
      LastCall calls name p ∨ (∀ p', (name, p') ∉ calls) ∧ r.lookup name = .ok p := by
  induction calls generalizing r with
  | nil => simp [registerAll, not_lastCall_nil]
  | cons call calls ih =>
    obtain ⟨added, p₀⟩ := call
    show ((r.register added p₀).registerAll calls).lookup name = .ok p ↔ _
    rw [ih, lookup_register, lastCall_cons_iff, or_assoc]
    refine or_congr_right ?_
    by_cases heq : name = added
    · subst heq
      rw [if_pos rfl]
      constructor
      · rintro ⟨hcalls, hp⟩
        exact .inl ⟨by rw [Except.ok.inj hp], hcalls⟩
      · rintro (⟨hcall, hcalls⟩ | ⟨hcalls, -⟩)
        · exact ⟨hcalls, congrArg Except.ok (Prod.mk.inj hcall).2⟩
        · exact absurd List.mem_cons_self (hcalls p₀)
    · simp [heq, Ne.symm heq]

theorem lookup_ofCalls_iff : (ofCalls calls).lookup name = .ok p ↔ LastCall calls name p := by
  rw [ofCalls, lookup_registerAll_iff, or_iff_left_iff_imp]
  rintro ⟨-, hempty⟩
  cases hempty

theorem exists_lastCall_iff : (∃ p, LastCall calls name p) ↔ ∃ p, (name, p) ∈ calls := by
  induction calls with
  | nil => simp [not_lastCall_nil]
  | cons call calls ih =>
    simp only [lastCall_cons_iff, exists_or, ih, List.mem_cons, eq_comm (b := call)]
    by_cases hcalls : ∃ p, (name, p) ∈ calls
    · simp [hcalls]
    · simp [not_exists.mp hcalls]

theorem mem_names_ofCalls_iff : name ∈ (ofCalls calls).names ↔ ∃ p, (name, p) ∈ calls := by
  simp only [mem_names_iff, lookup_ofCalls_iff, exists_lastCall_iff]

theorem lookup_ofCalls_eq_error_iff {error : PolicyError} :
    (ofCalls calls).lookup name = .error error ↔
      (∀ p, (name, p) ∉ calls) ∧ error = .predicateNotFound name := by
  rw [lookup_eq_error_iff, mem_names_ofCalls_iff, not_exists]

end AccessPolicy.Registry
