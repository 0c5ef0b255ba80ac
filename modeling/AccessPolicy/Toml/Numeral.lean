import AccessPolicy.Binary64.Decimal
import AccessPolicy.Text.Digit
import AccessPolicy.Toml

/-! The written form of TOML numbers. Underscores stand between digits, a decimal number does not
start with a zero that another digit follows, and integers without sign may be in other bases. A
number that keeps to this may still have no value: its integer is out of range, its floating-point
number is beyond the finite ones, or it is without digits or with wrong ones. -/

namespace AccessPolicy.Toml

/-- A text without its underscores, each of which stands between two digits. -/
def ungroup? (isDigit : Char → Bool) : List Char → Option (List Char)
  | [] => some []
  | '_' :: _ => none
  | c :: '_' :: d :: r =>
    if isDigit c && isDigit d then (ungroup? isDigit (d :: r)).map (c :: ·) else none
  | c :: r => (ungroup? isDigit r).map (c :: ·)

/-! ### Integers -/

/-- A digit of some base up to sixteen. -/
def isAnyDigit (c : Char) : Bool := (hexValue? c).isSome

/-- A digit of this base. -/
def isDigitIn (base : Nat) (c : Char) : Bool := (hexValue? c).any (· < base)

/-- Whether an integer lies between the least and the greatest ones that have a value. -/
def integerRange (n : Int) : Bool := -(Nat.pow 2 127 : Nat) ≤ n && n < (Nat.pow 2 128 : Nat)

/-- The integer of these digits. It has no value if it is out of range, if there are no digits or if
one of them is too great for the base. -/
def integerOf (negative : Bool) (base : Nat) (ds : List Char) : Toml :=
  if ds ≠ [] ∧ ds.all (isDigitIn base) then
    let n : Int := digitsValueIn base ds
    let n := if negative then -n else n
    if integerRange n then .integer n else .unvalued
  else .unvalued

/-- A number in a base other than ten, which has no sign. -/
def inBase? (base : Nat) (s : List Char) : Option Toml :=
  if s.all fun c => isDigitIn base c || c == '_' then
    (ungroup? isAnyDigit s).map (integerOf false base)
  else none

/-- A decimal integer after its sign. The digits around underscores may be those of any base, but
only decimal ones give a value. -/
def decimalInteger? (negative : Bool) (s : List Char) : Option Toml :=
  if s.head? = some '0' ∧ s ≠ ['0'] then none
  else (ungroup? isAnyDigit s).map (integerOf negative 10)

/-! ### Floating-point numbers -/

/-- The decimal digits at the front of a text, of which there is one at least, and what follows. -/
def takeDigits? (s : List Char) : Option (List Char × List Char) :=
  let ds := s.takeWhile Char.isDigit
  if ds = [] then none else some (ds, s.dropWhile Char.isDigit)

/-- The digits after a point, if there is one. -/
def takeFraction? (s : List Char) : Option (List Char × List Char) :=
  match s with
  | '.' :: s => takeDigits? s
  | s => some ([], s)

/-- The value of an exponent with its sign. -/
def exponentValue? (s : List Char) : Option Int :=
  match s with
  | '+' :: s => natural? s
  | '-' :: s => (natural? s).map (- ·)
  | s => natural? s
where
  /-- The value of a text of digits. -/
  natural? (s : List Char) : Option Int :=
    match takeDigits? s with
    | some (ds, []) => some (digitsValue ds)
    | _ => none

/-- The exponent of a number, which is zero where none is written. -/
def exponent? (s : List Char) : Option Int :=
  match s with
  | [] => some 0
  | c :: s => if c = 'e' ∨ c = 'E' then exponentValue? s else none

/-- A floating-point number with a point or an exponent, after its sign: the nearest one to what is
written. -/
def decimalFloat? (negative : Bool) (s : List Char) : Option Toml := do
  let (whole, r) ← takeDigits? (← ungroup? Char.isDigit s)
  let (fraction, r) ← takeFraction? r
  let exponent ← exponent? r
  if whole.head? = some '0' ∧ whole.length ≠ 1 then none
  else
    let x := Binary64.ofDecimalExact (digitsValue (whole ++ fraction)) (exponent - fraction.length)
    if x.isFinite then some (.float (if negative then x.neg else x)) else some .unvalued

/-! ### Numbers -/

/-- Whether a character makes a decimal number a floating-point one. -/
def isFloatMark (c : Char) : Bool := c == '.' || c == 'e' || c == 'E'

/-- A decimal number after its sign. What follows the digits at its front is nothing, or has a point
or an exponent in it, or goes on after an underscore. -/
def decimal? (negative : Bool) (s : List Char) : Option Toml :=
  let r := s.dropWhile Char.isDigit
  if s = [] ∨ r.contains ' ' then none
  else if r.any isFloatMark then decimalFloat? negative s
  else if r.head?.all (· == '_') then decimalInteger? negative s
  else none

/-- A number past its sign. -/
def unsigned? (negative : Bool) (s : List Char) : Option Toml :=
  if s = "inf".toList then some (.float (.infinite negative))
  else if s = "nan".toList then some (.float .nan)
  else decimal? negative s

/-- The value of a whole text that is a number. -/
def number? (s : List Char) : Option Toml :=
  match s with
  | '0' :: 'x' :: s => inBase? 16 s
  | '0' :: 'o' :: s => inBase? 8 s
  | '0' :: 'b' :: s => inBase? 2 s
  | '+' :: s => unsigned? false s
  | '-' :: s => unsigned? true s
  | s => unsigned? false s

end AccessPolicy.Toml
