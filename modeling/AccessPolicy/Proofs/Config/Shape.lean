import AccessPolicy.Config.Format
import AccessPolicy.Proofs.Json.Shape

/-! The JSON values from which configurations are read. A configuration has the shape of a record of
two maps: its policies, by role, each of which has the shape of a record too, and the children of
each parent role. All fields may be left out. A configuration is read from a value exactly if the
value has its shape, and the values without any such shape are parse errors. -/

namespace AccessPolicy

open Json (Shape Reader)

/-- The policy of a role is a record of its rules. -/
def RolePolicy.shape : Shape RolePolicy := fun v p =>
  ∃ allow?, v.given? [["allow"]] = some [allow?] ∧
    (Shape.list .string).orAbsent [] allow? p.allow

/-- A hierarchy is a map from each parent to its children. -/
def RoleHierarchy.shape : Shape RoleHierarchy := fun v h =>
  Shape.keyMap (.list .string) v h.edges

/-- A configuration is a record of its policies, by role, and its hierarchy. -/
def Config.shape : Shape Config := fun v c =>
  ∃ policies? hierarchy?,
    v.given? [["policies"], ["hierarchy"]] = some [policies?, hierarchy?] ∧
      (Shape.keyMap RolePolicy.shape).orAbsent .empty policies? c.policies ∧
      RoleHierarchy.shape.orAbsent .empty hierarchy? c.hierarchy

theorem RolePolicy.accepts_reader : RolePolicy.reader.Accepts RolePolicy.shape := by
  have hallow : (Reader.list .string).Accepts (.list .string) := .list .string
  intro v p
  rw [RolePolicy.reader, Reader.record_eq_ok_iff (List.pairwise_singleton _ _)]
  constructor
  · rintro ⟨given, hgiven, hfill⟩
    obtain ⟨allow?, rfl⟩ := List.length_eq_one_iff.mp (Json.length_of_given? hgiven)
    obtain ⟨allow, hshape, hrest⟩ := (Reader.fill_cons_iff rfl hallow rfl).mp hfill
    obtain rfl := Option.some.inj hrest
    exact ⟨allow?, hgiven, hshape⟩
  · rintro ⟨allow?, hgiven, hshape⟩
    exact ⟨_, hgiven, (Reader.fill_cons_iff rfl hallow rfl).mpr ⟨p.allow, hshape, rfl⟩⟩

theorem RoleHierarchy.accepts_reader : RoleHierarchy.reader.Accepts RoleHierarchy.shape := by
  intro v h
  have hedges : (Reader.keyMap (.list .string)).Accepts (.keyMap (.list .string)) :=
    .keyMap (.list .string)
  rw [RoleHierarchy.reader, hedges.map RoleHierarchy.mk]
  constructor
  · rintro ⟨edges, hshape, rfl⟩
    exact hshape
  · exact fun hshape => ⟨h.edges, hshape, rfl⟩

/-- Configurations are read from the values that have their shape. -/
theorem Config.accepts_reader : Config.reader.Accepts Config.shape := by
  have hpolicies : (Reader.keyMap RolePolicy.reader).Accepts (.keyMap RolePolicy.shape) :=
    RolePolicy.accepts_reader.keyMap
  intro v c
  rw [Config.reader, Reader.record_eq_ok_iff ?separate]
  case separate =>
    rw [List.pairwise_pair]
    exact Reader.separate_of rfl rfl (by decide) fun _ _ _ => rfl
  constructor
  · rintro ⟨given, hgiven, hfill⟩
    obtain ⟨policies?, hierarchy?, rfl⟩ := List.length_eq_two.mp (Json.length_of_given? hgiven)
    obtain ⟨policies, hp, hfill⟩ := (Reader.fill_cons_iff rfl hpolicies rfl).mp hfill
    obtain ⟨hierarchy, hh, hfill⟩ :=
      (Reader.fill_cons_iff rfl RoleHierarchy.accepts_reader rfl).mp hfill
    obtain rfl := Option.some.inj hfill
    exact ⟨policies?, hierarchy?, hgiven, hp, hh⟩
  · rintro ⟨policies?, hierarchy?, hgiven, hp, hh⟩
    refine ⟨_, hgiven, (Reader.fill_cons_iff rfl hpolicies rfl).mpr ⟨c.policies, hp, ?_⟩⟩
    exact (Reader.fill_cons_iff rfl RoleHierarchy.accepts_reader rfl).mpr ⟨c.hierarchy, hh, rfl⟩

theorem Config.ofJson_eq_ok_iff {v : Json} {c : Config} :
    ofJson v = .ok c ↔ Config.shape v c := by
  rw [ofJson, ofRead, mapError_eq_ok_iff, Config.accepts_reader]

/-- A configuration is read from a JSON value exactly if the value has its shape, and every value
that is no shape of a configuration is a parse error. -/
theorem Config.ofJson_accepts_shape (v : Json) :
    (∀ c, ofJson v = .ok c ↔ Config.shape v c) ∧
      ((¬∃ c, Config.shape v c) ↔ ∃ fault, ofJson v = .error (.parse fault)) := by
  refine ⟨fun c => ofJson_eq_ok_iff, ?_⟩
  simp only [← ofJson_eq_ok_iff, ofJson, ofRead]
  cases Config.reader.ofValue v <;> simp [Except.mapError]

end AccessPolicy
