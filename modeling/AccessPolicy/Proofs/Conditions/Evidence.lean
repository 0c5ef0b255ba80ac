import AccessPolicy.Proofs.Conditions.Permission
import Mathlib.Data.List.InsertIdx

/-! What a decision made with the built-in conditions depends on. The conditions read the id, the
tags and the activity of the subject and the owner, the collaborators and the tags of the resource.
Of the roles of the subject only those count that can be reached from them, so a role that another
one implies may be added or left out. -/

namespace AccessPolicy

variable {q q' : Request Entity Entity}

/-- Two requests show the built-in conditions the same; lists count as sets. -/
structure SameEvidence (q q' : Request Entity Entity) : Prop where
  id : q.subject.id = q'.subject.id
  subjectTags : ∀ tag, tag ∈ q.subject.tags ↔ tag ∈ q'.subject.tags
  active : q.subject.attributes.get? "active" = some (.bool true) ↔
    q'.subject.attributes.get? "active" = some (.bool true)
  ownerId : q.resource.ownerId = q'.resource.ownerId
  collaborators : ∀ id, id ∈ q.resource.collaborators ↔ id ∈ q'.resource.collaborators
  resourceTags : ∀ tag, tag ∈ q.resource.tags ↔ tag ∈ q'.resource.tags

theorem SameEvidence.symm (he : SameEvidence q q') : SameEvidence q' q where
  id := he.id.symm
  subjectTags tag := (he.subjectTags tag).symm
  active := he.active.symm
  ownerId := he.ownerId.symm
  collaborators id := (he.collaborators id).symm
  resourceTags tag := (he.resourceTags tag).symm

/-- The built-in conditions depend on the evidence only. -/
theorem BuiltinHolds.of_sameEvidence {name : String}
    (hholds : BuiltinHolds q.subject q.resource name) (he : SameEvidence q q') :
    BuiltinHolds q'.subject q'.resource name := by
  cases hholds with
  | isOwner hid howner => exact .isOwner (he.id ▸ hid) (he.id ▸ he.ownerId ▸ howner)
  | isCollaborator hid hlist =>
    exact .isCollaborator (he.id ▸ hid) (he.id ▸ (he.collaborators _).mp hlist)
  | sharesTag hsubject hresource =>
    exact .sharesTag ((he.subjectTags _).mp hsubject) ((he.resourceTags _).mp hresource)
  | isActive hactive => exact .isActive (he.active.mp hactive)

/-- The roles that can be reached from those that the subject of a request holds. -/
def ReachedRole (h : RoleHierarchy) (q : Request Entity Entity) (role : String) : Prop :=
  ∃ held ∈ q.subject.roles, h.Reaches held role

theorem Entitles.of_sameEvidence {h : RoleHierarchy} {rule : Rule}
    (hentitles : Entitles h q.subject q.resource rule) (he : SameEvidence q q')
    (hroles : ∀ role, ReachedRole h q role → ReachedRole h q' role) :
    Entitles h q'.subject q'.resource rule := by
  obtain ⟨condition, hc, hholds⟩ := hentitles.condition
  have hholds' : condition = wildcard ∨ BuiltinHolds q'.subject q'.resource condition :=
    hholds.imp_right fun hbuiltin => hbuiltin.of_sameEvidence he
  exact ⟨hroles rule.role hentitles.held, condition, hc, hholds'⟩

/-- The decision depends on the action, the evidence and the roles that are reached. -/
theorem decide_compileConfig_congr (config : Config) (strict : Bool)
    (haction : q.action = q'.action) (he : SameEvidence q q')
    (hroles : ∀ role, ReachedRole config.hierarchy q role ↔ ReachedRole config.hierarchy q' role) :
    (((compileConfig config).value.evaluator.inMode strict).decide q).value.value =
      (((compileConfig config).value.evaluator.inMode strict).decide q').value.value := by
  rw [compileConfig_value]
  refine Compilation.decide_compile_congr strict haction rfl fun key => ?_
  rw [Compilation.grantsAt_compile_iff, Compilation.grantsAt_compile_iff]
  simp only [satisfiedBy_policyOf_builtin_iff]
  refine exists_congr fun rule => and_congr_right fun _ => and_congr_right fun _ => ?_
  constructor
  · intro hentitles
    exact hentitles.of_sameEvidence he fun role => (hroles role).mp
  · intro hentitles
    exact hentitles.of_sameEvidence he.symm fun role => (hroles role).mpr

theorem reachedRole_congr {h : RoleHierarchy}
    (hroles : ∀ role, role ∈ q.subject.roles ↔ role ∈ q'.subject.roles) (role : String) :
    ReachedRole h q role ↔ ReachedRole h q' role :=
  exists_congr fun held => and_congr_left fun _ => hroles held

/-- Two pairs of a subject and a resource get the same decision if the subjects have the same id,
roles and tags and are both active or both not, and the resources have the same owner, collaborators
and tags. Roles, tags and collaborators count as sets, and nothing else is looked at. -/
theorem decide_eq_of_sameEvidence (config : Config) (strict : Bool) (action : String)
    {subject subject' resource resource' : Entity}
    (he : SameEvidence ⟨subject, resource, action⟩ ⟨subject', resource', action⟩)
    (hroles : ∀ role, role ∈ subject.roles ↔ role ∈ subject'.roles) :
    let e := (compileConfig config).value.evaluator.inMode strict
    (e.decide ⟨subject, resource, action⟩).value.value =
      (e.decide ⟨subject', resource', action⟩).value.value :=
  decide_compileConfig_congr config strict rfl he (reachedRole_congr hroles)

/-- The lists are in another order and with repetitions, and both entities have fields that the
others lack. -/
theorem decide_eq_of_sameEvidence_reordered :
    let config := Config.empty.withRole "editor" ["edit:isCollaborator", "share:isActive"]
    let subject : Entity :=
      { Entity.empty with
        id := "bob", roles := ["guest", "editor"], tags := ["eng", "ops"],
        attributes := .ofList [("active", .bool true)] }
    let subject' : Entity :=
      { id := "bob", ownerId := "carol", roles := ["editor", "guest", "editor"],
        tags := ["ops", "eng"], collaborators := ["bob"],
        attributes := .ofList [("level", .null), ("active", .bool true)] }
    let resource : Entity := { Entity.empty with collaborators := ["alice", "bob"] }
    let resource' : Entity :=
      { Entity.empty with
        id := "draft", roles := ["editor"], collaborators := ["bob", "alice", "bob"],
        attributes := .ofList [("active", .bool false)] }
    let e := (compileConfig config).value.evaluator.inMode false
    SameEvidence ⟨subject, resource, "edit"⟩ ⟨subject', resource', "edit"⟩ ∧
      (∀ role, role ∈ subject.roles ↔ role ∈ subject'.roles) ∧
      (e.decide ⟨subject, resource, "edit"⟩).value.value =
        (e.decide ⟨subject', resource', "edit"⟩).value.value := by
  intro config subject subject' resource resource' e
  have he : SameEvidence ⟨subject, resource, "edit"⟩ ⟨subject', resource', "edit"⟩ := by
    constructor
    case id => rfl
    case subjectTags => intro tag; simp [subject, subject', or_comm]
    case active => simp [subject, subject', KeyMap.ofList, KeyMap.get?_insert]
    case ownerId => rfl
    case collaborators => intro id; simp [resource, resource']; tauto
    case resourceTags => intro tag; rfl
  have hroles : ∀ role, role ∈ subject.roles ↔ role ∈ subject'.roles := by
    intro role
    simp [subject, subject']
    tauto
  exact ⟨he, hroles, decide_eq_of_sameEvidence config false "edit" he hroles⟩

/-- One more role that is implied by a held one adds no role to those reached. -/
theorem reachedRole_insertIdx_iff {h : RoleHierarchy} {subject resource : Entity}
    {action held implied : String} (hheld : held ∈ subject.roles)
    (himplies : h.implies held implied = true) (position : Nat) (role : String) :
    ReachedRole h ⟨{ subject with roles := subject.roles.insertIdx position implied }, resource,
        action⟩ role ↔
      ReachedRole h ⟨subject, resource, action⟩ role := by
  constructor
  · rintro ⟨r, hr, hreaches⟩
    rcases List.eq_or_mem_of_mem_insertIdx hr with rfl | hr
    · have hfirst := RoleHierarchy.implies_iff_reaches.mp himplies
      exact ⟨held, hheld, hfirst.trans hreaches⟩
    · exact ⟨r, hr, hreaches⟩
  · rintro ⟨r, hr, hreaches⟩
    exact ⟨r, List.subset_insertIdx _ _ _ hr, hreaches⟩

/-- A role that is implied by a role of the subject may be inserted among the subject's roles
anywhere without a change to any decision. -/
theorem decide_insert_implied_role (config : Config) (subject resource : Entity) (action : String)
    (strict : Bool) {held implied : String} (hheld : held ∈ subject.roles)
    (himplies : config.hierarchy.implies held implied = true) (position : Nat) :
    let e := (compileConfig config).value.evaluator.inMode strict
    (e.decide ⟨{ subject with roles := subject.roles.insertIdx position implied }, resource,
        action⟩).value.value =
      (e.decide ⟨subject, resource, action⟩).value.value := by
  refine decide_compileConfig_congr config strict rfl ?_ fun role =>
    reachedRole_insertIdx_iff hheld himplies position role
  exact ⟨rfl, fun _ => Iff.rfl, Iff.rfl, rfl, fun _ => Iff.rfl, fun _ => Iff.rfl⟩

/-- The hierarchy is a cycle of three roles, and the inserted role is reached in two steps. -/
theorem decide_insert_implied_role_of_cycle :
    let config := (Config.empty.withRole "viewer" ["read:isOwner"]).withHierarchy
      (.ofList [("admin", ["editor"]), ("editor", ["viewer"]), ("viewer", ["admin"])])
    let subject : Entity := { Entity.empty with id := "alice", roles := ["guest", "admin"] }
    let resource : Entity := { Entity.empty with ownerId := "alice" }
    let e := (compileConfig config).value.evaluator.inMode false
    "admin" ∈ subject.roles ∧ config.hierarchy.implies "admin" "viewer" = true ∧
      (e.decide ⟨{ subject with roles := subject.roles.insertIdx 1 "viewer" }, resource,
          "read"⟩).value.value =
        (e.decide ⟨subject, resource, "read"⟩).value.value := by
  intro config subject resource e
  have hheld : "admin" ∈ subject.roles := by simp [subject]
  have hfirst : config.hierarchy.Edge "admin" "editor" := by
    show "editor" ∈ config.hierarchy.children "admin"
    decide +kernel
  have hsecond : config.hierarchy.Edge "editor" "viewer" := by
    show "viewer" ∈ config.hierarchy.children "editor"
    decide +kernel
  have himplies : config.hierarchy.implies "admin" "viewer" = true :=
    RoleHierarchy.implies_iff_reaches.mpr (.tail (.single hfirst) hsecond)
  exact ⟨hheld, himplies,
    decide_insert_implied_role config subject resource "read" false hheld himplies 1⟩

end AccessPolicy
