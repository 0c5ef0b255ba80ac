import AccessPolicy.Json
import AccessPolicy.Request

/-! Predicates that compare what they extract from the subject and the resource of a request, or an
attribute of the subject with a constant. None of them can fail: a value that is missing or of
another kind makes the comparison false. -/

namespace AccessPolicy

variable {S R α : Type}

section Extracted

variable [BEq α]

/-- The subject and the resource agree in a field each. -/
def fieldEquals (ofSubject : S → α) (ofResource : R → α) : RequestPredicate S R :=
  Predicate.ofBool fun q => ofSubject q.subject == ofResource q.resource

/-- The subject and the resource differ in a field each. -/
def fieldNotEquals (ofSubject : S → α) (ofResource : R → α) : RequestPredicate S R :=
  Predicate.ofBool fun q => ofSubject q.subject != ofResource q.resource

/-- A field of the subject has this value. -/
def subjectMatches (ofSubject : S → α) (target : α) : RequestPredicate S R :=
  Predicate.ofBool fun q => ofSubject q.subject == target

/-- A field of the resource has this value. -/
def resourceMatches (ofResource : R → α) (target : α) : RequestPredicate S R :=
  Predicate.ofBool fun q => ofResource q.resource == target

/-- The value extracted from the subject is in a list of the resource. -/
def subjectInResourceList (ofSubject : S → α) (ofResource : R → List α) : RequestPredicate S R :=
  Predicate.ofBool fun q => (ofResource q.resource).contains (ofSubject q.subject)

/-- A list of the subject and one of the resource share an element. -/
def listIntersection (ofSubject : S → List α) (ofResource : R → List α) : RequestPredicate S R :=
  Predicate.ofBool fun q => (ofSubject q.subject).any (ofResource q.resource).contains

/-- The subject is the owner of the resource. -/
def isOwner [Identifiable S α] [Ownable R α] : RequestPredicate S R :=
  Predicate.ofBool fun q => Identifiable.id q.subject == Ownable.ownerId q.resource

end Extracted

section Attributes

variable [Attributable S Json]

/-- The subject's attribute equals `value`; an absent attribute counts as null. -/
def subjectAttrEquals (key : String) (value : Json) : RequestPredicate S R :=
  Predicate.ofBool fun q => (Attributable.attribute? q.subject key).getD .null == value

/-- The subject's attribute as a floating-point number, if it is a number. -/
def numericAttr? (subject : S) (key : String) : Option Binary64 :=
  match Attributable.attribute? subject key with
  | some (.number n) => some n.toBinary64
  | _ => none

/-- The subject's attribute is a number above `threshold`. -/
def subjectAttrGreaterThan (key : String) (threshold : Binary64) : RequestPredicate S R :=
  Predicate.ofBool fun q => (numericAttr? q.subject key).any threshold.lt

/-- The attribute is a number below the threshold. -/
def subjectAttrLessThan (key : String) (threshold : Binary64) : RequestPredicate S R :=
  Predicate.ofBool fun q => (numericAttr? q.subject key).any (·.lt threshold)

/-- The subject's attribute is the boolean `true`. -/
def subjectAttrTrue (key : String) : RequestPredicate S R :=
  Predicate.ofBool fun q =>
    match Attributable.attribute? q.subject key with
    | some (.bool b) => b
    | _ => false

end Attributes

end AccessPolicy
