import AccessPolicy.Binary64

/-! The fewest decimal digits that identify a number, and their layout as text. The reals that round
to a number form an interval around it; `shortest` takes the coarsest decimal grid with a point in
that interval, and of the points of that grid in it the one nearest to the number. -/

namespace AccessPolicy.Binary64

/-- A decimal value `digits * 10 ^ exponent`. -/
structure Decimal where
  digits : Nat
  exponent : Int
deriving DecidableEq, Repr

/-- How many decimal digits a natural is written with. -/
def digitCount (n : Nat) : Nat := (Nat.toDigits 10 n).length

/-- The least `k` with `num / den < 10 ^ k`, for a positive quotient. -/
def decimalScale (num den : Nat) : Int :=
  if den ≤ num then digitCount (num / den)
  else 1 - (digitCount ((den + num - 1) / num - 1) : Int)

/-- The value of a decimal as a quotient of naturals. -/
def Decimal.ratio (d : Decimal) : Nat × Nat :=
  (d.digits * Nat.pow 10 d.exponent.toNat, Nat.pow 10 (-d.exponent).toNat)

/-- Whether a decimal lies among the reals that round to `mantissa * 2 ^ exponent`. The gap below a
power of two is half as wide as the gap above it, and the ends count if the mantissa is even. -/
def readsBack (mantissa : Nat) (exponent : Int) (d : Decimal) : Bool :=
  let narrow := mantissa = Nat.pow 2 52 ∧ minExponent < exponent
  let (n, m) := d.ratio
  let (scaled, unit) := inUnits n m (exponent - 2)
  let low := (4 * mantissa - if narrow then 1 else 2) * unit
  let high := (4 * mantissa + 2) * unit
  if mantissa % 2 = 0 then low ≤ scaled && scaled ≤ high else low < scaled && scaled < high

/-- The point of the grid of `10 ^ exponent` nearest to `num / den`, of those that read back to
`mantissa * 2 ^ binaryExponent`; of two equally near ones the even one. -/
def nearestOnGrid (mantissa : Nat) (binaryExponent : Int) (num den : Nat) (exponent : Int) :
    Option Decimal :=
  let n := num * Nat.pow 10 (-exponent).toNat
  let d := den * Nat.pow 10 exponent.toNat
  let below : Decimal := ⟨n / d, exponent⟩
  let above : Decimal := ⟨n / d + 1, exponent⟩
  let preferBelow := 2 * (n % d) < d ∨ (2 * (n % d) = d ∧ n / d % 2 = 0)
  let (first, second) := if preferBelow then (below, above) else (above, below)
  if readsBack mantissa binaryExponent first then some first
  else if readsBack mantissa binaryExponent second then some second
  else none

/-- The decimal of the same value whose digits end in no zero. -/
def Decimal.strip (d : Decimal) : Decimal :=
  if 0 < d.digits ∧ d.digits % 10 = 0 then
    Decimal.strip ⟨d.digits / 10, d.exponent + 1⟩
  else d
termination_by d.digits
decreasing_by omega

/-- The shortest decimal that reads back to `mantissa * 2 ^ exponent`, which is not zero. Seventeen
digits always suffice; were they not to, the exact value would be taken. -/
def shortest (mantissa : Nat) (exponent : Int) : Decimal :=
  let num := mantissa * Nat.pow 2 exponent.toNat
  let den := Nat.pow 2 (-exponent).toNat
  let scale := decimalScale num den
  match (List.range 17).findSome? fun (n : Nat) =>
      nearestOnGrid mantissa exponent num den (scale - 1 - n) with
  | some d => d.strip
  | none => Decimal.strip ⟨num * Nat.pow 5 (-exponent).toNat, min 0 exponent⟩

/-- How a decimal is written: the exponents of the first digit for which all digits are written
positionally, and otherwise the mark between digits and exponent, with the sign of an exponent that
is not negative. -/
structure Layout where
  positionalFrom : Int
  positionalTo : Int
  mark : String
  plus : String
deriving DecidableEq, Repr

/-- The digits with a point after the first `n` of them, and a zero after a point at the end. -/
def pointAfter (n : Nat) (digits : List Char) : List Char :=
  let whole := digits.take n ++ List.replicate (n - digits.length) '0'
  let fraction := digits.drop n
  whole ++ '.' :: if fraction = [] then ['0'] else fraction

/-- The text of a decimal: positional if its first digit lies in the range of the layout, and with
an exponent otherwise. -/
def Layout.write (layout : Layout) (d : Decimal) : String :=
  let digits := Nat.toDigits 10 d.digits
  let first : Int := d.exponent + digits.length - 1
  if layout.positionalFrom ≤ first ∧ first ≤ layout.positionalTo then
    if 0 ≤ first then String.ofList (pointAfter (first.toNat + 1) digits)
    else String.ofList ("0.".toList ++ List.replicate ((-first).toNat - 1) '0' ++ digits)
  else
    let fraction := digits.drop 1
    let significand := digits.take 1 ++ if fraction = [] then [] else '.' :: fraction
    let sign := if first < 0 then "-" else layout.plus
    String.ofList significand ++ layout.mark ++ sign ++ toString first.natAbs

/-- The text of a number, which has the fewest digits that tell it from all others. A zero keeps its
sign. -/
def toText (layout : Layout) : Binary64 → String
  | nan => "NaN"
  | infinite s => if s then "-inf" else "inf"
  | finite s m e =>
    (if s then "-" else "") ++ if m = 0 then "0.0" else layout.write (shortest m e)

end AccessPolicy.Binary64
