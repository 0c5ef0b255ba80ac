import AccessPolicy.Proofs.Config.Shape
import AccessPolicy.Proofs.Json.Agreement
import Mathlib.Data.List.Permutation

/-! Configurations as JSON. What is written of a configuration is read back, from the value and from
its text, and every value and its text give the same configuration or are both parse errors. -/

namespace AccessPolicy

open Json (Shape Reader)

/-! ### What is written has the shape of what it is written from -/

theorem RolePolicy.shape_toJson (p : RolePolicy) : RolePolicy.shape p.toJson p :=
  ⟨some (.array (p.allow.map .string)), rfl, Shape.list_of_strings p.allow⟩

theorem RoleHierarchy.shape_toJson (h : RoleHierarchy) : RoleHierarchy.shape h.toJson h :=
  Shape.keyMap_of_map Shape.list_of_strings h.edges

namespace Config

/-- The fields of a configuration, as they are written. -/
def jsonFields (c : Config) : List (String × Json) :=
  [("hierarchy", c.hierarchy.toJson), ("policies", .ofMap (c.policies.map RolePolicy.toJson))]

theorem toJson_eq (c : Config) : c.toJson = .object c.jsonFields := rfl

theorem shape_of_perm {c : Config} {es : List (String × Json)} (hes : es.Perm c.jsonFields) :
    Config.shape (.object es) c := by
  have hpolicies := Shape.keyMap_of_map RolePolicy.shape_toJson c.policies
  have hhierarchy := RoleHierarchy.shape_toJson c.hierarchy
  rcases List.perm_pair.mp hes with rfl | rfl <;>
    exact ⟨some _, some _, rfl, hpolicies, hhierarchy⟩

theorem finite_of_perm {c : Config} {es : List (String × Json)} (hes : es.Perm c.jsonFields) :
    (Json.object es).Finite := by
  have hpolicy : ∀ p : RolePolicy, p.toJson.Finite := fun p =>
    .object (List.forall_mem_singleton.mpr (.strings p.allow))
  refine .object fun e he => ?_
  rcases List.mem_pair.mp (hes.subset he) with rfl | rfl
  · exact .ofMap .strings c.hierarchy.edges
  · exact .ofMap hpolicy c.policies

/-! ### Texts and values -/

/-- Four containers are nested: the configuration, its policies, a policy and its rules. -/
theorem agreesFrom_reader : Config.reader.AgreesFrom 4 := by
  have hlist : (Reader.list .string).AgreesFrom 1 := Reader.AgreesFrom.string.list
  have hpolicy : RolePolicy.reader.AgreesFrom 2 :=
    .record _ (List.forall_mem_singleton.mpr (hlist.map _)) _
  have hhierarchy : RoleHierarchy.reader.AgreesFrom 2 := hlist.keyMap.map _
  refine .record _ (List.forall_mem_cons.mpr ⟨?_, List.forall_mem_singleton.mpr ?_⟩) _
  · exact hpolicy.keyMap.map _
  · exact (hhierarchy.mono (by decide)).map _

theorem toOption_parse_render {v : Json} (hv : v.Finite) :
    (reader.parse v.render).toOption = (reader.ofValue v).toOption :=
  agreesFrom_reader.toOption_parse_render (by decide) hv

theorem ofRead_eq_ok_iff {r : Except Json.ReadError Config} {c : Config} :
    ofRead r = .ok c ↔ r.toOption = some c := by
  rw [ofRead, mapError_eq_ok_iff, toOption_eq_some_iff]

theorem ofRead_cases (r : Except Json.ReadError Config) :
    (∃ c, ofRead r = .ok c) ∨ ∃ fault, ofRead r = .error (.parse fault) := by
  cases r with
  | error e => exact .inr ⟨.json e, rfl⟩
  | ok c => exact .inl ⟨c, rfl⟩

/-- A text gives the configuration that its value gives. -/
theorem parseJson_render_eq_ok_iff {v : Json} (hv : v.Finite) {c : Config} :
    parseJson v.render = .ok c ↔ ofJson v = .ok c := by
  rw [parseJson, ofJson, ofRead_eq_ok_iff, ofRead_eq_ok_iff, toOption_parse_render hv]

/-- The order in which the fields are written does not matter. -/
theorem read_of_perm {c : Config} {es : List (String × Json)} (hes : es.Perm c.jsonFields) :
    ofJson (.object es) = .ok c ∧ parseJson (Json.object es).render = .ok c := by
  have hread : ofJson (.object es) = .ok c := ofJson_eq_ok_iff.mpr (shape_of_perm hes)
  exact ⟨hread, (parseJson_render_eq_ok_iff (finite_of_perm hes)).mpr hread⟩

/-- Reading gives the configuration that was written, from its JSON value and from the text of that,
in whatever order the fields stand; and a value and its text are read as the same configuration, or
both are parse errors. -/
theorem parseJson_render_eq_ofJson :
    (∀ c : Config, ofJson c.toJson = .ok c ∧ parseJson c.toJson.render = .ok c) ∧
      (∀ c : Config, ∀ es : List (String × Json), es.Perm c.jsonFields →
        parseJson (Json.object es).render = .ok c) ∧
      ∀ v : Json, v.Finite →
        (∃ c, ofJson v = .ok c ∧ parseJson v.render = .ok c) ∨
          ∃ fault fault', ofJson v = .error (.parse fault) ∧
            parseJson v.render = .error (.parse fault') := by
  refine ⟨fun c => ?_, fun c es hes => (read_of_perm hes).2, fun v hv => ?_⟩
  · rw [toJson_eq]
    exact read_of_perm (.refl _)
  · rcases ofRead_cases (reader.ofValue v) with ⟨c, hc⟩ | ⟨fault, hfault⟩
    · exact .inl ⟨c, hc, (parseJson_render_eq_ok_iff hv).mpr hc⟩
    · rcases ofRead_cases (reader.parse v.render) with ⟨c, hc⟩ | ⟨fault', hfault'⟩
      · have hread : ofJson v = .ok c := (parseJson_render_eq_ok_iff hv).mp hc
        cases hread.symm.trans hfault
      · exact .inr ⟨fault, fault', hfault, hfault'⟩

/-- A value within so many arrays. -/
def nested (v : Json) : Nat → Json
  | 0 => v
  | n + 1 => .array [nested v n]

theorem finite_nested {v : Json} (hv : v.Finite) (n : Nat) : (nested v n).Finite := by
  induction n with
  | zero => exact hv
  | succ n ih => exact .array (List.forall_mem_singleton.mpr ih)

/-- A configuration of one rule, with a policy given by position and a field that is not read, which
is nested deeper than containers that are read may be. -/
def annotated : Json :=
  .object
    [("note", nested (.number (.float (.finite true 3 (-1)))) 200),
      ("policies", .object [("\"lead\"\n", .array [.array [.string "read:isOwner"]])])]

/-- What is read from it. -/
def oneRule : Config := ⟨.ofList [("\"lead\"\n", ⟨["read:isOwner"]⟩)], .empty⟩

theorem parseJson_annotated :
    annotated.Finite ∧ parseJson annotated.render = .ok oneRule ∧
      parseJson (Json.object oneRule.jsonFields.reverse).render = .ok oneRule := by
  have hv : annotated.Finite := by
    refine .object (List.forall_mem_cons.mpr ⟨?_, List.forall_mem_singleton.mpr ?_⟩)
    · exact finite_nested (.number rfl) 200
    · refine .object (List.forall_mem_singleton.mpr (.array (List.forall_mem_singleton.mpr ?_)))
      exact .strings ["read:isOwner"]
  have hread : ofJson annotated = .ok oneRule := rfl
  refine ⟨hv, ?_, parseJson_render_eq_ofJson.2.1 oneRule _ (List.reverse_perm _)⟩
  rcases parseJson_render_eq_ofJson.2.2 annotated hv with ⟨c, hc, hparse⟩ | ⟨fault, _, hfault, -⟩
  · obtain rfl := Except.ok.inj (hc.symm.trans hread)
    exact hparse
  · cases hread.symm.trans hfault

end Config

end AccessPolicy
