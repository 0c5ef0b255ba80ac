import AccessPolicy.Binary64

/-! Reading decimal numbers. `ofDecimal` is the quick reading, which rounds the significand, the
power of ten and their product or quotient in turn, and so may miss the nearest number by a unit in
the last place when the digits are many. `ofDecimalExact` rounds once. -/

namespace AccessPolicy.Binary64

/-- The exponent of the greatest power of ten that is not infinite. -/
def maxPowerOfTen : Nat := 308

/-- The number nearest to a power of ten. -/
def powerOfTen (n : Nat) : Binary64 := ofRatio false (Nat.pow 10 n) 1

/-- The rounded product of two finite numbers. -/
def mul : Binary64 → Binary64 → Binary64
  | finite s m e, finite t n f => ofScaledRatio (s != t) (m * n) 1 (e + f)
  | _, _ => nan

/-- The rounded quotient of two finite numbers, the second not zero. -/
def div : Binary64 → Binary64 → Binary64
  | finite s m e, finite t n f => ofScaledRatio (s != t) m n (e - f)
  | _, _ => nan

/-- Either of the two zeros. -/
def isZero : Binary64 → Bool
  | finite _ m _ => m == 0
  | _ => false

/-- `x` divided by ten to the power `n`, in steps of the greatest power there is. -/
def divPowerOfTen (x : Binary64) (n : Nat) : Binary64 :=
  if n ≤ maxPowerOfTen then x.div (powerOfTen n)
  else if x.isZero then x
  else divPowerOfTen (x.div (powerOfTen maxPowerOfTen)) (n - maxPowerOfTen)
termination_by n
decreasing_by simp only [maxPowerOfTen] at *; omega

/-- `significand * 10 ^ exponent`, each part and the result rounded; nothing where that is infinite,
or where only zero could have so great an exponent. -/
def ofDecimal (negative : Bool) (significand : Nat) (exponent : Int) : Option Binary64 :=
  let x := ofRatio negative significand 1
  match exponent with
  | .negSucc n => some (x.divPowerOfTen (n + 1))
  | .ofNat n =>
    if n ≤ maxPowerOfTen then
      match x.mul (powerOfTen n) with
      | finite s m e => some (finite s m e)
      | _ => none
    else if x.isZero then some x
    else none

/-- The number nearest to `significand * 10 ^ exponent`. Exponents beyond all bounds are decided
without forming the power of ten. -/
def ofDecimalExact (significand : Nat) (exponent : Int) : Binary64 :=
  match exponent with
  | .ofNat n =>
    if significand = 0 then ofRatio false 0 1
    else if n ≤ maxPowerOfTen then ofRatio false (significand * Nat.pow 10 n) 1
    else infinite false
  | .negSucc n =>
    if significand.log2 + 400 < n then ofRatio false 0 1
    else ofRatio false significand (Nat.pow 10 (n + 1))

/-- Neither infinite nor `nan`. -/
def isFinite : Binary64 → Bool
  | finite .. => true
  | _ => false

end AccessPolicy.Binary64
