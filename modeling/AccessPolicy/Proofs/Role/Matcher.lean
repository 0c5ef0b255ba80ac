import AccessPolicy.Entity
import AccessPolicy.Proofs.KeyMap
import AccessPolicy.Proofs.Role.Reachability
import AccessPolicy.Role.Matcher

/-! The role predicates compared. A matcher that asks for one of several roles holds where it holds
for some of them alone, so neither the order nor the repetition of the roles asked for or of the
roles held has a part in it. In a hierarchy without children a role reaches only itself, and a
matcher for it is the predicate that compares names. -/

namespace AccessPolicy

/-- Every list of children that the hierarchy stores is empty; it may have parents. -/
def RoleHierarchy.Childless (h : RoleHierarchy) : Prop :=
  ∀ parent children, h.edges.get? parent = some children → children = []

namespace RoleHierarchy.Childless

variable {h : RoleHierarchy}

theorem empty : RoleHierarchy.empty.Childless := by
  intro parent children hget
  cases hget

theorem children_eq_nil (hc : h.Childless) (role : String) : h.children role = [] := by
  rw [children]
  cases hget : h.edges.get? role with
  | none => rfl
  | some children => exact hc role children hget

theorem reaches_iff (hc : h.Childless) {role target : String} :
    h.Reaches role target ↔ role = target := by
  constructor
  · intro hr
    rcases Relation.ReflTransGen.cases_head hr with heq | ⟨child, he, -⟩
    · exact heq
    · rw [Edge, hc.children_eq_nil] at he
      cases he
  · rintro rfl
    exact .refl

/-- Where no role has children a role implies itself only. -/
theorem implies_eq (hc : h.Childless) (role target : String) :
    h.implies role target = (role == target) := by
  rw [Bool.eq_iff_iff, implies_iff_reaches, hc.reaches_iff, beq_iff_eq]

end RoleHierarchy.Childless

namespace RoleMatcher

variable {S R : Type} [RoleBearer S] {m : RoleMatcher} {q q' : Request S R}

theorem satisfiedBy_hasRole_congr (target : String)
    (hheld : ∀ role, role ∈ RoleBearer.roles q.subject ↔ role ∈ RoleBearer.roles q'.subject) :
    (m.hasRole target).satisfiedBy q = (m.hasRole target).satisfiedBy q' := by
  rw [hasRole, Predicate.satisfiedBy_ofBool, Predicate.satisfiedBy_ofBool, Bool.eq_iff_iff,
    List.any_eq_true, List.any_eq_true]
  exact exists_congr fun role => and_congr_left fun _ => hheld role

theorem satisfiedBy_hasAnyRole_iff {targets : List String} :
    (m.hasAnyRole targets).satisfiedBy q = true ↔
      ∃ target ∈ targets, (m.hasRole target).satisfiedBy q = true := by
  simp only [hasAnyRole, hasRole, Predicate.satisfiedBy_ofBool, List.any_eq_true]
  constructor
  · rintro ⟨role, hrole, target, htarget, hmatches⟩
    exact ⟨target, htarget, role, hrole, hmatches⟩
  · rintro ⟨target, htarget, role, hrole, hmatches⟩
    exact ⟨role, hrole, target, htarget, hmatches⟩

theorem satisfiedBy_hasAnyRole_congr {targets targets' : List String}
    (htargets : ∀ target, target ∈ targets ↔ target ∈ targets')
    (hheld : ∀ role, role ∈ RoleBearer.roles q.subject ↔ role ∈ RoleBearer.roles q'.subject) :
    (m.hasAnyRole targets).satisfiedBy q = (m.hasAnyRole targets').satisfiedBy q' := by
  rw [Bool.eq_iff_iff, satisfiedBy_hasAnyRole_iff, satisfiedBy_hasAnyRole_iff]
  simp only [htargets, satisfiedBy_hasRole_congr _ hheld]

theorem hasRole_eq_holdsRole (hc : m.hierarchy.Childless) (target : String) :
    (m.hasRole target : RequestPredicate S R) = holdsRole target := by
  have hmatches : (m.roleMatches · target) = (· == target) :=
    funext fun role => hc.implies_eq role target
  rw [hasRole, holdsRole]
  simp only [hmatches, List.any_beq']

/-- Without children, having a role is holding it. -/
theorem hasAnyRole_eq_holdsAnyRole (hc : m.hierarchy.Childless) (targets : List String) :
    (m.hasAnyRole targets : RequestPredicate S R) = holdsAnyRole targets := by
  have hmatches : ∀ role, (m.roleMatches role ·) = (role == ·) :=
    fun role => funext fun target => hc.implies_eq role target
  rw [hasAnyRole, holdsAnyRole]
  simp only [hmatches, List.any_beq]

/-- A matcher's predicate for several roles holds exactly if that for one of them does, and depends
on the roles asked for and on those held only as sets. Where no role has a child, as in the flat
matcher, both predicates of a matcher are those that compare names. -/
theorem hasAnyRole_agrees (m : RoleMatcher) (targets : List String) (q : Request S R) :
    ((m.hasAnyRole targets).satisfiedBy q = true ↔
      ∃ target ∈ targets, (m.hasRole target).satisfiedBy q = true) ∧
    (∀ (targets' : List String) (q' : Request S R),
      (∀ target, target ∈ targets ↔ target ∈ targets') →
      (∀ role, role ∈ RoleBearer.roles q.subject ↔ role ∈ RoleBearer.roles q'.subject) →
      (m.hasAnyRole targets).satisfiedBy q = (m.hasAnyRole targets').satisfiedBy q') ∧
    (m.hierarchy.Childless →
      (∀ target, (m.hasRole target : RequestPredicate S R) = holdsRole target) ∧
        (m.hasAnyRole targets : RequestPredicate S R) = holdsAnyRole targets) ∧
    flat.hierarchy.Childless := by
  refine ⟨satisfiedBy_hasAnyRole_iff, ?_, ?_, .empty⟩
  · intro targets' q' htargets hheld
    exact satisfiedBy_hasAnyRole_congr htargets hheld
  · intro hc
    exact ⟨hasRole_eq_holdsRole hc, hasAnyRole_eq_holdsAnyRole hc targets⟩

/-- The roles asked for and the roles held change their order and are repeated, and the hierarchy
has parents, though no children. -/
theorem hasAnyRole_agrees_without_children :
    let m : RoleMatcher := ⟨.ofList [("viewer", []), ("admin", []), ("viewer", [])]⟩
    let asks := fun (targets held : List String) =>
      (m.hasAnyRole targets).satisfiedBy
        (⟨{ Entity.empty with roles := held }, .empty, "read"⟩ : Request Entity Entity)
    m.hierarchy.parents = ["admin", "viewer"] ∧ m.hierarchy.Childless ∧
      asks ["owner", "admin"] ["viewer", "admin"] =
        asks ["admin", "owner", "admin"] ["admin", "viewer", "admin"] ∧
      asks ["owner", "admin"] ["viewer", "admin"] = true ∧
      (m.hasAnyRole ["owner", "admin"] : RequestPredicate Entity Entity) =
        holdsAnyRole ["owner", "admin"] := by
  intro m asks
  have hentries : m.hierarchy.edges.toList = [("admin", []), ("viewer", [])] := by decide +kernel
  have hc : m.hierarchy.Childless := by
    intro parent children hget
    have hmem := KeyMap.mem_toList_iff.mpr hget
    rw [hentries] at hmem
    rcases List.mem_pair.mp hmem with heq | heq
    · exact (Prod.mk.inj heq).2
    · exact (Prod.mk.inj heq).2
  obtain ⟨-, hcongr, hnames, -⟩ := hasAnyRole_agrees m ["owner", "admin"]
    (⟨{ Entity.empty with roles := ["viewer", "admin"] }, .empty, "read"⟩ : Request Entity Entity)
  have hnamed := (hnames hc).2
  refine ⟨by decide +kernel, hc, ?_, ?_, hnamed⟩
  · apply hcongr
    · intro target
      simp [or_comm]
    · intro role
      simp [RoleBearer.roles, or_comm]
  · show Predicate.satisfiedBy (m.hasAnyRole ["owner", "admin"]) _ = true
    rw [hnamed]
    decide +kernel

end RoleMatcher

end AccessPolicy
