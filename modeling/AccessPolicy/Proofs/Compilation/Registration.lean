import AccessPolicy.Proofs.Compilation.NamedConditions
import AccessPolicy.Proofs.Registry

/-! What the calls that fill a registry come to in a compiled table. Compiling asks for the
predicate of a name when all calls have been made, so only the last call for each name counts:
earlier calls, their number and the order of calls for different names make no difference. -/

namespace AccessPolicy

variable {S R : Type}

namespace Registry

/-- Calls for the same names, of which the last ones give predicates that hold for the same
requests. -/
structure SameLast (calls calls' : List (String × RequestPredicate S R)) : Prop where
  names : ∀ name, (∃ p, (name, p) ∈ calls) ↔ ∃ p, (name, p) ∈ calls'
  predicates : ∀ name p p', LastCall calls name p → LastCall calls' name p' →
    ∀ q, p.satisfiedBy q = p'.satisfiedBy q

/-- A lookup answers with what was registered last under the name. -/
theorem SameLast.sameAnswer {calls calls' : List (String × RequestPredicate S R)}
    (hs : SameLast calls calls') (name : String) :
    SameAnswer ((ofCalls calls).lookup name) ((ofCalls calls').lookup name) := by
  by_cases hcalls : ∃ p, (name, p) ∈ calls
  · obtain ⟨p, hp⟩ := exists_lastCall_iff.mpr hcalls
    obtain ⟨p', hp'⟩ := exists_lastCall_iff.mpr ((hs.names name).mp hcalls)
    rw [lookup_ofCalls_iff.mpr hp, lookup_ofCalls_iff.mpr hp']
    exact .ok (hs.predicates name p p' hp hp')
  · have hcalls' := mt (hs.names name).mpr hcalls
    rw [lookup_ofCalls_eq_error_iff.mpr ⟨not_exists.mp hcalls, rfl⟩,
      lookup_ofCalls_eq_error_iff.mpr ⟨not_exists.mp hcalls', rfl⟩]
    exact .error _

/-- What is looked up under a name is the predicate of the last call for it, and without a call
nothing is found. The names are listed once each. Calls that agree on the last predicate of every
name make registries with which every configuration compiles to the same keys, errors and
decisions. -/
theorem lookup_depends_only_on_last_calls (calls calls' : List (String × RequestPredicate S R)) :
    (∀ name, (∀ p, (ofCalls calls).lookup name = .ok p ↔ LastCall calls name p) ∧
      ((ofCalls calls).lookup name = .error (.predicateNotFound name) ↔
        ∀ p, (name, p) ∉ calls) ∧
      ((ofCalls calls).contains name = true ↔ ∃ p, (ofCalls calls).lookup name = .ok p) ∧
      (name ∈ (ofCalls calls).names ↔ ∃ p, (name, p) ∈ calls)) ∧
    (ofCalls calls).names.Nodup ∧
    (SameLast calls calls' → ∀ [RoleBearer S] (config : Config) (roles : RoleMatcher),
      let c := (compile config roles (ofCalls calls).lookup).value
      let c' := (compile config roles (ofCalls calls').lookup).value
      c.evaluator.keys = c'.evaluator.keys ∧ c.errors = c'.errors ∧
        ∀ strict q, ((c.evaluator.inMode strict).decide q).value.value =
          ((c'.evaluator.inMode strict).decide q).value.value) := by
  refine ⟨fun name => ⟨fun p => lookup_ofCalls_iff, ?_, contains_iff, mem_names_ofCalls_iff⟩,
    nodup_names _, ?_⟩
  · rw [lookup_ofCalls_eq_error_iff, and_iff_left rfl]
  · intro hs _ config roles c c'
    have hanswer : ∀ condition, config.Names condition →
        SameAnswer ((ofCalls calls).lookup condition) ((ofCalls calls').lookup condition) :=
      fun condition _ => hs.sameAnswer condition
    have hkeys : c.evaluator.keys = c'.evaluator.keys :=
      Compilation.keys_compile_of_rules fun _ => .rfl
    refine ⟨hkeys, Compilation.errors_compile_congr_names hanswer roles, ?_⟩
    intro strict q
    exact Compilation.decide_compile_congr strict rfl hkeys fun key =>
      Compilation.grantsAt_compile_congr_names hanswer roles key q

/-- The first run denies under a name that it gives another predicate later, and the second run
makes the calls in another order and with a trace. -/
theorem lookup_depends_only_on_last_calls_overwritten :
    let calls : List (String × RequestPredicate Entity Entity) :=
      [("isOwner", .deny), ("isActive", subjectAttrTrue "active"), ("isOwner", isOwner)]
    let calls' : List (String × RequestPredicate Entity Entity) :=
      [("isOwner", .probe "owner" isOwner), ("isActive", subjectAttrTrue "active")]
    let config := Config.empty.withRole "editor" ["edit:isOwner", "read:isActive", "read:missing"]
    let c := (compile config .flat (ofCalls calls).lookup).value
    let c' := (compile config .flat (ofCalls calls').lookup).value
    SameLast calls calls' ∧ c.evaluator.keys = c'.evaluator.keys ∧
      c.errors = c'.errors ∧ c.errors.map (·.condition) = ["missing"] ∧
      ∀ strict q, ((c.evaluator.inMode strict).decide q).value.value =
        ((c'.evaluator.inMode strict).decide q).value.value := by
  intro calls calls' config c c'
  have hs : SameLast calls calls' := by
    constructor
    case names =>
      intro name
      simp only [calls, calls', List.mem_cons, List.not_mem_nil, or_false, Prod.mk.injEq, exists_or,
        exists_and_left, exists_eq, and_true]
      tauto
    case predicates =>
      intro name p p' hl hl' q
      simp only [calls, calls', lastCall_cons_iff, not_lastCall_nil, false_or, Prod.mk.injEq]
        at hl hl'
      rcases hl with (⟨⟨rfl, rfl⟩, -⟩ | ⟨⟨rfl, rfl⟩, -⟩) | ⟨⟨rfl, rfl⟩, hlast⟩
      · rcases hl' with ⟨⟨hname, -⟩, -⟩ | ⟨⟨-, rfl⟩, -⟩
        · exact absurd hname (by decide)
        · rfl
      · rcases hl' with ⟨⟨-, rfl⟩, -⟩ | ⟨⟨hname, -⟩, -⟩
        · rfl
        · exact absurd hname (by decide)
      · -- the last call for this name is another one
        exact absurd (List.mem_cons_of_mem _ List.mem_cons_self) (hlast isOwner)
  obtain ⟨-, -, hcompile⟩ := lookup_depends_only_on_last_calls calls calls'
  obtain ⟨hkeys, herrors, hdecide⟩ := hcompile hs config .flat
  exact ⟨hs, hkeys, herrors, by decide +kernel, hdecide⟩

end Registry

end AccessPolicy
