import AccessPolicy.Binary64.Shortest
import AccessPolicy.KeyMap

/-! JSON values. Integers and floating-point numbers are kept apart: `1` and `1.0` are different
values, while `0.0` and `-0.0` are the same one. -/

namespace AccessPolicy

namespace Json

/-- A JSON number: an integer of 64 bits, with or without sign, or a floating-point number. -/
inductive Number where
  | int (value : Int)
  | float (value : Binary64)
deriving DecidableEq, Repr

namespace Number

/-- Integers and floating-point numbers are never equal to each other. -/
protected def beq : Number → Number → Bool
  | int m, int n => m == n
  | float x, float y => x.valueEq y
  | _, _ => false

instance : BEq Number := ⟨Number.beq⟩

/-- The value as a floating-point number; an integer is rounded to the nearest one. -/
def toBinary64 : Number → Binary64
  | int n => .ofInt n
  | float x => x

/-- Floating-point numbers are written positionally when their first digit stands between the fifth
place after the point and the sixteenth before it. -/
def layout : Binary64.Layout := ⟨-5, 15, "e", "+"⟩

/-- The text of a number. -/
def toText : Number → String
  | int n => toString n
  | float x => x.toText layout

end Number

end Json

/-- A JSON value. The entries of an object are in document order, or in key order where the object
has been built from a map. -/
inductive Json where
  | null
  | bool (value : Bool)
  | number (value : Json.Number)
  | string (value : String)
  | array (items : List Json)
  | object (entries : List (String × Json))
deriving Repr

namespace Json

instance : Inhabited Json := ⟨null⟩

mutual

/-- Arrays are compared by position, and objects entry by entry in their order. -/
protected def beq : Json → Json → Bool
  | null, null => true
  | bool a, bool b => a == b
  | number m, number n => m == n
  | string s, string t => s == t
  | array xs, array ys => Json.beqItems xs ys
  | object es, object fs => Json.beqEntries es fs
  | _, _ => false

/-- Equal items, one by one. -/
protected def beqItems : List Json → List Json → Bool
  | [], [] => true
  | x :: xs, y :: ys => Json.beq x y && Json.beqItems xs ys
  | _, _ => false

/-- Equal entries, one by one. -/
protected def beqEntries : List (String × Json) → List (String × Json) → Bool
  | [], [] => true
  | (k, x) :: es, (l, y) :: fs => k == l && Json.beq x y && Json.beqEntries es fs
  | _, _ => false

end

instance : BEq Json := ⟨Json.beq⟩

/-- An integer as a value. -/
def ofInt (n : Int) : Json := number (.int n)

/-- The object of a map, in the order of its keys. -/
def ofMap (m : KeyMap Json) : Json := object m.toList

/-- The value under a key of an object; nothing where the value is no object. -/
def get? (v : Json) (key : String) : Option Json :=
  match v with
  | object entries => entries.lookup key
  | _ => none

end Json

end AccessPolicy
