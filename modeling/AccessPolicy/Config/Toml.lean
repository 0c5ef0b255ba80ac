import AccessPolicy.Config
import AccessPolicy.Error
import AccessPolicy.Toml.Document

/-! The TOML form of configurations. It has the tables and keys of the JSON form, and the same keys
may be left out. Other keys are ignored, but the numbers under them must have values. -/

namespace AccessPolicy

/-- The text that a string holds. -/
def Toml.string? : Toml → Option String
  | .string s => some s
  | _ => none

/-- The texts that an array of strings holds. -/
def Toml.strings? : Toml → Option (List String)
  | .array items => items.mapM string?
  | _ => none

/-- The map from the names in a table to what `value` makes of the values under them. -/
def Toml.keyMap? {α : Type} (value : Toml → Option α) : Toml → Option (KeyMap α)
  | .table _ entries =>
    (entries.mapM fun e => (value e.2).map (e.1, ·)).map KeyMap.ofList
  | _ => none

/-- Whether all numbers under other names than those in `known` have values. -/
def Toml.restValued (known : List String) (entries : List (String × Toml)) : Bool :=
  entries.all fun (name, v) => known.contains name || v.isValued

/-- The policy of a role is a table with its rules, or an array whose first item is the array of its
rules, whatever the other items are. A date has no rules. -/
def RolePolicy.ofToml? : Toml → Option RolePolicy
  | .table _ entries =>
    if Toml.restValued ["allow"] entries then
      match entries.lookup "allow" with
      | some v => v.strings?.map RolePolicy.mk
      | none => some ⟨[]⟩
    else none
  | .array (v :: _) => v.strings?.map RolePolicy.mk
  | .array [] | .datetime _ => some ⟨[]⟩
  | _ => none

/-- A hierarchy is a table of the children of each parent. -/
def RoleHierarchy.ofToml? (v : Toml) : Option RoleHierarchy :=
  (v.keyMap? Toml.strings?).map RoleHierarchy.mk

namespace Config

/-- A configuration is a table of its policies, by role, and its hierarchy. -/
def ofToml? : Toml → Option Config
  | .table _ entries => do
    guard (Toml.restValued ["policies", "hierarchy"] entries)
    let policies ← ((entries.lookup "policies").map (·.keyMap? RolePolicy.ofToml?)).getD
      (some .empty)
    let hierarchy ← ((entries.lookup "hierarchy").map RoleHierarchy.ofToml?).getD (some .empty)
    some ⟨policies, hierarchy⟩
  | _ => none

/-- The configuration that a TOML document describes. Errors are not told apart. -/
def parseToml (text : String) : Except PolicyError Config :=
  match (Toml.parse? text).bind ofToml? with
  | some c => .ok c
  | none => .error (.parse .toml)

end Config

end AccessPolicy
