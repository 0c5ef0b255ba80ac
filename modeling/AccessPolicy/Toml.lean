import AccessPolicy.Binary64
import AccessPolicy.Text.Rest

/-! TOML values. A table knows how it came to be, because that decides which later lines may add to
it. -/

namespace AccessPolicy

/-- What made a table. -/
inductive Toml.Origin where
  /-- A header of its own, or the document. -/
  | header
  /-- The header of a table inside it. -/
  | implied
  /-- A key with dots. -/
  | dotted
  /-- Braces. -/
  | inline
deriving DecidableEq, Repr

/-- A TOML value. Dates and times are kept as they are written. `unvalued` is a number that can be
told from what is around it but stands for nothing: it is out of range, or has characters in it that
are no digits of its base, or no digits at all. `tables` is an array whose items have headers of
their own; it has at least one. -/
inductive Toml where
  | string (value : String)
  | integer (value : Int)
  | float (value : Binary64)
  | unvalued
  | boolean (value : Bool)
  | datetime (text : String)
  | array (items : List Toml)
  | tables (items : List Toml)
  | table (origin : Toml.Origin) (entries : List (String × Toml))
deriving Repr

namespace Toml

instance : Inhabited Toml := ⟨table .header []⟩

mutual

/-- No number in the item is without a value. -/
def isValued : Toml → Bool
  | unvalued => false
  | array items | tables items => areValued items
  | table _ entries => entriesValued entries
  | string _ | integer _ | float _ | boolean _ | datetime _ => true

/-- No number in the items is without a value. -/
def areValued : List Toml → Bool
  | [] => true
  | v :: vs => v.isValued && areValued vs

/-- No number in the entries is without a value. -/
def entriesValued : List (String × Toml) → Bool
  | [] => true
  | (_, v) :: es => v.isValued && entriesValued es

end

/-- A reading step; texts that are not TOML have no value. -/
abbrev Step (α : Type) (s : List Char) : Type := Option (α × Rest s)

end Toml

end AccessPolicy
