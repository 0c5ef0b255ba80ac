import AccessPolicy.Entity
import AccessPolicy.Proofs.Json.Shape

/-! The JSON values from which entities are read. An entity has the shape of a record of six fields,
each of which may be left out; the owner has two spellings and may be given in one of them only. The
attributes are kept as they are, and looking one up gives the value that the document has for it. -/

namespace AccessPolicy.Entity

open Json (Shape Reader)

/-- The fields of an entity in their order, each with its spellings. -/
def fieldNames : List (List String) :=
  [["id"], ["owner_id", "ownerId"], ["roles"], ["tags"], ["collaborators"], ["attributes"]]

/-- An entity has the fields that are given, and is empty in those that are not. -/
structure Has (id? ownerId? roles? tags? collaborators? attributes? : Option Json) (e : Entity) :
    Prop where
  id : Shape.string.orAbsent "" id? e.id
  ownerId : Shape.string.orAbsent "" ownerId? e.ownerId
  roles : (Shape.list .string).orAbsent [] roles? e.roles
  tags : (Shape.list .string).orAbsent [] tags? e.tags
  collaborators : (Shape.list .string).orAbsent [] collaborators? e.collaborators
  attributes : (Shape.keyMap .any).orAbsent .empty attributes? e.attributes

/-- An entity is a record of its six fields. -/
def shape : Shape Entity := fun v e =>
  ∃ id? ownerId? roles? tags? collaborators? attributes?,
    v.given? fieldNames = some [id?, ownerId?, roles?, tags?, collaborators?, attributes?] ∧
      Has id? ownerId? roles? tags? collaborators? attributes? e

/-- The entries that a document gives as the attributes of an entity. -/
def attributeEntries (v : Json) : List (String × Json) :=
  match v.given? fieldNames with
  | some [_, _, _, _, _, some (.object es)] => es
  | _ => []

/-- Looking up an attribute finds what the document has last under its name. -/
theorem attribute?_eq_lastUnder {v : Json} {e : Entity} (h : shape v e) (key : String) :
    Attributable.attribute? e key = Json.lastUnder (attributeEntries v) key := by
  obtain ⟨id?, ownerId?, roles?, tags?, collaborators?, attributes?, hgiven, hhas⟩ := h
  show e.attributes.get? key = _
  have hattributes := hhas.attributes
  rw [attributeEntries, hgiven]
  cases attributes? with
  | none =>
    rw [show e.attributes = .empty from hattributes]
    rfl
  | some w =>
    obtain ⟨es, rfl, -, hrel⟩ := hattributes
    exact ((Json.rel_any_iff).mp (hrel key)).symm

theorem accepts_reader : reader.Accepts shape := by
  have htext : Reader.string.Accepts .string := .string
  have hnames : (Reader.list .string).Accepts (.list .string) := .list .string
  have hvalues : (Reader.keyMap .any).Accepts (.keyMap .any) := .keyMap .any
  intro v e
  rw [reader, Reader.record_eq_ok_iff ?separate]
  case separate =>
    simp only [List.pairwise_cons, List.forall_mem_cons, List.not_mem_nil, false_implies,
      implies_true, and_true, List.Pairwise.nil]
    refine ⟨⟨?_, ?_, ?_, ?_, ?_⟩, ⟨?_, ?_, ?_, ?_⟩, ⟨?_, ?_, ?_⟩, ⟨?_, ?_⟩, ?_⟩
    all_goals exact Reader.separate_of rfl rfl (by decide) fun _ _ _ => rfl
  constructor
  · rintro ⟨given, hgiven, hfill⟩
    match given, Json.length_of_given? hgiven with
    | [id?, ownerId?, roles?, tags?, collaborators?, attributes?], _ =>
      obtain ⟨id, hid, hfill⟩ := (Reader.fill_cons_iff rfl htext rfl).mp hfill
      obtain ⟨ownerId, hownerId, hfill⟩ := (Reader.fill_cons_iff rfl htext rfl).mp hfill
      obtain ⟨roles, hroles, hfill⟩ := (Reader.fill_cons_iff rfl hnames rfl).mp hfill
      obtain ⟨tags, htags, hfill⟩ := (Reader.fill_cons_iff rfl hnames rfl).mp hfill
      obtain ⟨collaborators, hcollaborators, hfill⟩ :=
        (Reader.fill_cons_iff rfl hnames rfl).mp hfill
      obtain ⟨attributes, hattributes, hfill⟩ := (Reader.fill_cons_iff rfl hvalues rfl).mp hfill
      obtain rfl := Option.some.inj hfill
      exact ⟨id?, ownerId?, roles?, tags?, collaborators?, attributes?, hgiven,
        hid, hownerId, hroles, htags, hcollaborators, hattributes⟩
  · rintro ⟨id?, ownerId?, roles?, tags?, collaborators?, attributes?, hgiven, h⟩
    refine ⟨_, hgiven, (Reader.fill_cons_iff rfl htext rfl).mpr ⟨e.id, h.id, ?_⟩⟩
    refine (Reader.fill_cons_iff rfl htext rfl).mpr ⟨e.ownerId, h.ownerId, ?_⟩
    refine (Reader.fill_cons_iff rfl hnames rfl).mpr ⟨e.roles, h.roles, ?_⟩
    refine (Reader.fill_cons_iff rfl hnames rfl).mpr ⟨e.tags, h.tags, ?_⟩
    refine (Reader.fill_cons_iff rfl hnames rfl).mpr ⟨e.collaborators, h.collaborators, ?_⟩
    exact (Reader.fill_cons_iff rfl hvalues rfl).mpr ⟨e.attributes, h.attributes, rfl⟩

/-- An entity is read from a JSON value exactly if the value has its shape. Looking up an attribute
of the entity gives the value that the document has last under that name, unchanged, and nothing if
the document has none. -/
theorem reader_accepts_shape (v : Json) :
    (∀ e, reader.ofValue v = .ok e ↔ shape v e) ∧
      ∀ e, reader.ofValue v = .ok e → ∀ key,
        Attributable.attribute? e key = Json.lastUnder (attributeEntries v) key ∧
        (Attributable.attribute? e key = none ↔ ∀ w, (key, w) ∉ attributeEntries v) := by
  refine ⟨accepts_reader v, fun e he key => ?_⟩
  have hlookup := attribute?_eq_lastUnder ((accepts_reader v e).mp he) key
  rw [hlookup]
  exact ⟨rfl, Json.lastUnder_eq_none_iff⟩

end AccessPolicy.Entity
