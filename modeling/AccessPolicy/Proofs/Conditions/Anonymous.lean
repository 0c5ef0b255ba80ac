import AccessPolicy.Proofs.Conditions.Permission

/-! Subjects without an id. The conditions that compare the subject's id with the owner or the
collaborators of a resource require an id, so rules with such a condition entitle no anonymous
subject, not even to a resource whose owner or collaborators are given by the empty id. -/

namespace AccessPolicy

/-- The condition of a rule compares the subject's id. -/
def Rule.NamesIdentity (text : String) : Prop :=
  Conditioned text "isOwner" ∨ Conditioned text "isCollaborator"

theorem Rule.namedCondition?_eq_iff_namesIdentity {text : String} :
    (⟨"", text⟩ : Rule).namedCondition? = some "isOwner" ∨
        (⟨"", text⟩ : Rule).namedCondition? = some "isCollaborator" ↔
      NamesIdentity text := by
  have howner : "isOwner" ≠ wildcard := by decide
  have hcollaborator : "isCollaborator" ≠ wildcard := by decide
  simp only [namedCondition?_eq_some_iff, and_true, howner, hcollaborator, ne_eq,
    not_false_eq_true]
  rfl

instance : DecidablePred Rule.NamesIdentity := fun _ =>
  decidable_of_iff _ Rule.namedCondition?_eq_iff_namesIdentity

variable {subject resource : Entity} {rule : Rule}

/-- A rule that names an identity entitles no one without one. -/
theorem Entitles.id_ne_empty {h : RoleHierarchy} (he : Entitles h subject resource rule)
    (hn : Rule.NamesIdentity rule.text) : subject.id ≠ "" := by
  rcases hn with hc | hc
  · have hholds := (he.conditionHolds hc).resolve_left (by decide)
    exact hholds.id_ne_empty (.inl rfl)
  · have hholds := (he.conditionHolds hc).resolve_left (by decide)
    exact hholds.id_ne_empty (.inr rfl)

theorem Grants.entitles {h : RoleHierarchy} {strict : Bool} {role text : String}
    {q : Request Entity Entity} (hg : Grants ⟨h⟩ builtinRegistry.lookup strict role text q) :
    Entitles h q.subject q.resource ⟨role, text⟩ := by
  obtain ⟨condition, hc, hholds⟩ := hg.condition
  exact ⟨hg.held, condition, hc, conditionHolds_builtin_iff.mp hholds⟩

/-- A subject without an id is granted the same requests when the rules that name its identity are
left out: none of them grants it anything on any resource. -/
theorem evaluate_anonymous_without_identity (config : Config) (strict : Bool)
    (subject resource : Entity) (action : String) (hid : subject.id = "") :
    let q : Request Entity Entity := ⟨subject, resource, action⟩
    (((compileConfig config).value.evaluator.inMode strict).evaluate q).value.value =
        (((compileConfig (config.dropRules Rule.NamesIdentity)).value.evaluator.inMode
          strict).evaluate q).value.value ∧
      ∀ role text, Rule.NamesIdentity text →
        ¬Grants ⟨config.hierarchy⟩ builtinRegistry.lookup strict role text q := by
  intro q
  constructor
  · rw [Bool.eq_iff_iff, evaluate_compileConfig_iff_permits, evaluate_compileConfig_iff_permits,
      Config.permits_dropRules_iff]
    intro rule he hn
    exact he.id_ne_empty hn hid
  · intro role text hn hg
    exact hg.entitles.id_ne_empty hn hid

/-- The resource has no owner and lists the empty id among its collaborators. -/
theorem evaluate_anonymous_without_identity_unowned :
    let config := Config.empty.withRole "guest" ["list", "read:isOwner", "read:isCollaborator"]
    let q : Request Entity Entity :=
      ⟨{ Entity.empty with roles := ["guest"] }, { Entity.empty with collaborators := [""] },
        "read"⟩
    q.subject.id = "" ∧ q.resource.ownerId = "" ∧ "" ∈ q.resource.collaborators ∧
      (((compileConfig config).value.evaluator.inMode false).evaluate q).value.value =
        (((compileConfig (config.dropRules Rule.NamesIdentity)).value.evaluator.inMode
          false).evaluate q).value.value ∧
      ¬Grants ⟨config.hierarchy⟩ builtinRegistry.lookup false "guest" "read:isOwner" q := by
  intro config q
  obtain ⟨hsame, hnone⟩ :=
    evaluate_anonymous_without_identity config false q.subject q.resource q.action rfl
  have hnamed : Rule.NamesIdentity "read:isOwner" := by decide +kernel
  exact ⟨rfl, rfl, by simp [q], hsame, hnone "guest" "read:isOwner" hnamed⟩

end AccessPolicy
