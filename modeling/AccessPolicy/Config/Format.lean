import AccessPolicy.Config
import AccessPolicy.Error
import AccessPolicy.Json.Reader

/-! The JSON form of hierarchies and configurations: what is read, and what is written back. A
configuration is an object of `policies` and `hierarchy`, both of which may be absent. -/

namespace AccessPolicy

open Json (Reader ReadError)

namespace RoleHierarchy

/-- A hierarchy is a map from each parent to the list of its children. -/
def reader : Reader RoleHierarchy := (Reader.keyMap (.list .string)).map RoleHierarchy.mk

/-- An object with an array of children under each parent. -/
def toJson (h : RoleHierarchy) : Json :=
  .ofMap (h.edges.map fun children => .array (children.map .string))

end RoleHierarchy

namespace RolePolicy

/-- The policy of a role is a record with one list of rules, which may be left out. -/
def reader : Reader RolePolicy :=
  .record "struct RolePolicyConfig"
    [.of "allow" (.list .string) fun allow _ => ⟨allow⟩] ⟨[]⟩

/-- An object with one array of rules. -/
def toJson (p : RolePolicy) : Json := .object [("allow", .array (p.allow.map .string))]

end RolePolicy

namespace Config

/-- A configuration is a record of its policies, by role, and its hierarchy. -/
def reader : Reader Config :=
  .record "struct PolicyConfig"
    [.of "policies" (.keyMap RolePolicy.reader) fun policies c => { c with policies },
      .of "hierarchy" RoleHierarchy.reader fun hierarchy c => { c with hierarchy }]
    .empty

/-- An object of the hierarchy and the policies. -/
def toJson (c : Config) : Json :=
  .object
    [("hierarchy", c.hierarchy.toJson),
      ("policies", .ofMap (c.policies.map RolePolicy.toJson))]

/-- A failure to read is reported as one to parse. -/
def ofRead (r : Except ReadError Config) : Except PolicyError Config :=
  r.mapError fun e => .parse (.json e)

/-- The configuration that a JSON value describes. -/
def ofJson (v : Json) : Except PolicyError Config := ofRead (reader.ofValue v)

/-- The configuration that a JSON text describes. -/
def parseJson (text : String) : Except PolicyError Config := ofRead (reader.parse text)

end Config

end AccessPolicy
