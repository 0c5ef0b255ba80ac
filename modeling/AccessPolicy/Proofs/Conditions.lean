import AccessPolicy.Conditions
import AccessPolicy.Proofs.Registry
import Mathlib.Data.List.Basic

/-! The built-in conditions in words: `BuiltinHolds` says when a condition holds for a subject and a
resource, and the registry of the built-in conditions decides as it says. No other name holds. -/

namespace AccessPolicy

/-! ### The conditions in words -/

/-- The built-in condition of this name holds for a subject and a resource. -/
inductive BuiltinHolds (subject resource : Entity) : String → Prop
  | isOwner : subject.id ≠ "" → subject.id = resource.ownerId →
      BuiltinHolds subject resource "isOwner"
  | isCollaborator : subject.id ≠ "" → subject.id ∈ resource.collaborators →
      BuiltinHolds subject resource "isCollaborator"
  | sharesTag {tag : String} : tag ∈ subject.tags → tag ∈ resource.tags →
      BuiltinHolds subject resource "sharesTag"
  | isActive : subject.attributes.get? "active" = some (.bool true) →
      BuiltinHolds subject resource "isActive"

theorem BuiltinHolds.name_ne_empty {subject resource : Entity} {name : String}
    (hholds : BuiltinHolds subject resource name) : name ≠ "" := by
  cases hholds <;> decide

/-- Whoever has no identity is neither owner nor collaborator. -/
theorem BuiltinHolds.id_ne_empty {subject resource : Entity} {name : String}
    (hholds : BuiltinHolds subject resource name)
    (hname : name = "isOwner" ∨ name = "isCollaborator") : subject.id ≠ "" := by
  cases hholds with
  | isOwner hid | isCollaborator hid => exact hid
  | sharesTag | isActive => simp at hname

variable {q : Request Entity Entity}

theorem satisfiedBy_hasId_iff : hasId.satisfiedBy q = true ↔ q.subject.id ≠ "" := by
  rw [hasId, Predicate.satisfiedBy_ofBool, decide_eq_true_eq]

theorem satisfiedBy_isOwner_iff :
    (isOwner : RequestPredicate Entity Entity).satisfiedBy q = true ↔
      q.subject.id = q.resource.ownerId := by
  rw [isOwner, Predicate.satisfiedBy_ofBool, beq_iff_eq]
  rfl

theorem satisfiedBy_isCollaborator_iff :
    (subjectInResourceList Entity.id Entity.collaborators).satisfiedBy q = true ↔
      q.subject.id ∈ q.resource.collaborators := by
  rw [subjectInResourceList, Predicate.satisfiedBy_ofBool, List.contains_iff_mem]

theorem satisfiedBy_sharesTag_iff :
    (listIntersection Entity.tags Entity.tags).satisfiedBy q = true ↔
      ∃ tag ∈ q.subject.tags, tag ∈ q.resource.tags := by
  rw [listIntersection, Predicate.satisfiedBy_ofBool, List.any_eq_true]
  simp only [List.contains_iff_mem]

theorem satisfiedBy_subjectAttrTrue_iff {key : String} :
    (subjectAttrTrue key : RequestPredicate Entity Entity).satisfiedBy q = true ↔
      q.subject.attributes.get? key = some (.bool true) := by
  have hattribute : Attributable.attribute? q.subject key = q.subject.attributes.get? key := rfl
  rw [subjectAttrTrue, Predicate.satisfiedBy_ofBool, ← hattribute]
  split
  · next b hb => simp [hb]
  · next hne => simpa using hne true

theorem names_builtinRegistry :
    builtinRegistry.names = ["isActive", "isCollaborator", "isOwner", "sharesTag"] := by
  decide +kernel

/-- The registry decides the built-in conditions as they are told in words. -/
theorem builtinRegistry_holds_iff {name : String} :
    builtinRegistry.Holds name q ↔ BuiltinHolds q.subject q.resource name := by
  simp only [builtinRegistry, Registry.holds_register_iff, Registry.not_holds_empty,
    Predicate.satisfiedBy_and, Bool.and_eq_true, satisfiedBy_hasId_iff, satisfiedBy_isOwner_iff,
    satisfiedBy_isCollaborator_iff, satisfiedBy_sharesTag_iff, satisfiedBy_subjectAttrTrue_iff]
  constructor
  · rintro (⟨rfl, hactive⟩ | ⟨-, ⟨rfl, tag, hsubject, hresource⟩ | ⟨-, ⟨rfl, hid, hlist⟩ |
      ⟨-, ⟨rfl, hid, howner⟩ | ⟨-, hnone⟩⟩⟩⟩)
    · exact .isActive hactive
    · exact .sharesTag hsubject hresource
    · exact .isCollaborator hid hlist
    · exact .isOwner hid howner
    · cases hnone
  · intro hholds
    cases hholds with
    | isActive hactive => exact .inl ⟨rfl, hactive⟩
    | sharesTag hsubject hresource => exact .inr ⟨by decide, .inl ⟨rfl, _, hsubject, hresource⟩⟩
    | isCollaborator hid hlist =>
      exact .inr ⟨by decide, .inr ⟨by decide, .inl ⟨rfl, hid, hlist⟩⟩⟩
    | isOwner hid howner =>
      exact .inr ⟨by decide, .inr ⟨by decide, .inr ⟨by decide, .inl ⟨rfl, hid, howner⟩⟩⟩⟩

end AccessPolicy
