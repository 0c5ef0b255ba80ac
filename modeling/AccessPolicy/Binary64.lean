/-! Binary floating-point numbers of 64 bits as exact values: a sign, a mantissa and a power of two.
Rounding and order are arithmetic on naturals and integers, so statements about them need no model
of a processor. `ofRatio` rounds a quotient to the nearest number, ties to the even mantissa. -/

namespace AccessPolicy

/-- A number of 53 binary digits and its limits. A finite one is `mantissa * 2 ^ exponent`, negated
if `negative`; zero has a sign too. -/
inductive Binary64 where
  | nan
  | infinite (negative : Bool)
  | finite (negative : Bool) (mantissa : Nat) (exponent : Int)
deriving DecidableEq, Repr

namespace Binary64

/-- The least exponent, which numbers too small for a full mantissa have. -/
def minExponent : Int := -1074

/-- The greatest exponent; beyond it lie the infinities. -/
def maxExponent : Int := 971

/-- The quotient `num / den` rounded to the nearest natural, ties to the even one. -/
def roundDiv (num den : Nat) : Nat :=
  let q := num / den
  let r := num % den
  if den < 2 * r ∨ (den = 2 * r ∧ q % 2 = 1) then q + 1 else q

/-- The floor of `num / den` in units of `2 ^ exponent`, as a quotient of naturals. -/
def inUnits (num den : Nat) (exponent : Int) : Nat × Nat :=
  (num * Nat.pow 2 (-exponent).toNat, den * Nat.pow 2 exponent.toNat)

/-- The least exponent at which `num / den` needs no more than 53 digits before the point. -/
def ratioExponent (num den : Nat) : Int :=
  let e : Int := (num.log2 : Int) - den.log2 - 52
  let (n, d) := inUnits num den e
  max minExponent (if n / d < Nat.pow 2 52 then e - 1 else e)

/-- The number with these parts, where a mantissa of 54 digits has been rounded up to and where
exponents out of range stand for infinity. -/
def ofParts (negative : Bool) (mantissa : Nat) (exponent : Int) : Binary64 :=
  let (m, e) :=
    if mantissa = Nat.pow 2 53 then (Nat.pow 2 52, exponent + 1) else (mantissa, exponent)
  if maxExponent < e then infinite negative else finite negative m e

/-- The number nearest to `num / den`, negated if `negative`. -/
def ofRatio (negative : Bool) (num den : Nat) : Binary64 :=
  if num = 0 then finite negative 0 minExponent
  else
    let e := ratioExponent num den
    let (n, d) := inUnits num den e
    ofParts negative (roundDiv n d) e

/-- The number nearest to an integer. -/
def ofInt (n : Int) : Binary64 := ofRatio (n < 0) n.natAbs 1

/-- The number nearest to a quotient times a power of two. -/
def ofScaledRatio (negative : Bool) (num den : Nat) (exponent : Int) : Binary64 :=
  ofRatio negative (num * Nat.pow 2 exponent.toNat) (den * Nat.pow 2 (-exponent).toNat)

/-- The number with the other sign; what is not a number has none. -/
def neg : Binary64 → Binary64
  | nan => nan
  | infinite s => infinite !s
  | finite s m e => finite (!s) m e

/-- The mantissa with its sign. -/
def signed (negative : Bool) (mantissa : Nat) : Int :=
  if negative then -(mantissa : Int) else mantissa

/-- Two finite numbers as integers in units of the same power of two. -/
def align (s : Bool) (m : Nat) (e : Int) (t : Bool) (n : Nat) (f : Int) : Int × Int :=
  (signed s m * (Nat.pow 2 (e - min e f).toNat : Nat),
    signed t n * (Nat.pow 2 (f - min e f).toNat : Nat))

/-- The order of values; what is not a number is in no order with anything. -/
def lt : Binary64 → Binary64 → Bool
  | nan, _ | _, nan => false
  | infinite s, infinite t => s && !t
  | infinite s, finite .. => s
  | finite .., infinite t => !t
  | finite s m e, finite t n f => let (a, b) := align s m e t n f; decide (a < b)

/-- Equality of values: both zeros are equal, and what is not a number equals nothing. -/
def valueEq : Binary64 → Binary64 → Bool
  | nan, _ | _, nan => false
  | infinite s, infinite t => s == t
  | infinite _, finite .. | finite .., infinite _ => false
  | finite s m e, finite t n f => let (a, b) := align s m e t n f; decide (a = b)

/-- The 64 bits that stand for a number: sign, biased exponent and mantissa without its leading
digit, where it has one. -/
def toBits : Binary64 → Nat
  | nan => 2047 * Nat.pow 2 52 + Nat.pow 2 51
  | infinite s => (if s then Nat.pow 2 63 else 0) + 2047 * Nat.pow 2 52
  | finite s m e =>
    (if s then Nat.pow 2 63 else 0) +
      if m < Nat.pow 2 52 then m
      else (e - minExponent + 1).toNat * Nat.pow 2 52 + (m - Nat.pow 2 52)

end Binary64

end AccessPolicy
