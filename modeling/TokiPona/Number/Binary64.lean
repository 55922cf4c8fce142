namespace TokiPona

/-- A decimal numeral: `digits * 10 ^ exponent`, with a sign that zero has too. -/
structure Decimal where
  negative : Bool
  digits : Nat
  exponent : Int
  deriving DecidableEq, Repr

/-- A double-precision number. A finite one is `mantissa * 2 ^ exponent`, where the mantissa has
    53 bits unless the exponent is the least one. -/
inductive Binary64 where
  | finite (negative : Bool) (mantissa : Nat) (exponent : Int)
  | infinite (negative : Bool)
  | nan
  deriving DecidableEq, Repr

/-- A power of two. -/
def pow2 (n : Nat) : Nat := Nat.pow 2 n

/-- A power of ten. -/
def pow10 (n : Nat) : Nat := Nat.pow 10 n

/-- The number of decimal digits of a natural number. -/
def digitCount (n : Nat) : Nat := (Nat.toDigits 10 n).length

/-- The quotient rounded to the nearest integer, and to the even one of two equally near. -/
def roundDiv (num den : Nat) : Nat :=
  let quotient := num / den
  let twice := 2 * (num % den)
  if twice < den then quotient
  else if den < twice then quotient + 1
  else if quotient % 2 = 0 then quotient
  else quotient + 1

namespace Binary64

/-- The least exponent. -/
def minExponent : Int := -1074

/-- The greatest exponent. -/
def maxExponent : Int := 971

def zero (negative : Bool) : Binary64 := .finite negative 0 minExponent

/-- The exponent of the greatest power of two that is at most `num / den`. -/
def floorLog2 (num den : Nat) : Int :=
  let guess : Int := (num.log2 : Int) - den.log2
  if num * pow2 (-guess).toNat < den * pow2 guess.toNat then guess - 1 else guess

/-- The number nearest to a positive quotient. -/
def ofQuotient (negative : Bool) (num den : Nat) : Binary64 :=
  let exponent := max (floorLog2 num den - 52) minExponent
  let mantissa := roundDiv (num * pow2 (-exponent).toNat) (den * pow2 exponent.toNat)
  let (mantissa, exponent) :=
    if mantissa = pow2 53 then (pow2 52, exponent + 1) else (mantissa, exponent)
  if maxExponent < exponent then .infinite negative else .finite negative mantissa exponent

/-- The number nearest to a decimal. Exponents far outside the range are settled without
    computing the power. -/
def ofDecimal (d : Decimal) : Binary64 :=
  let magnitude := d.exponent + digitCount d.digits
  if d.digits = 0 || magnitude < -400 then zero d.negative
  else if 400 < magnitude then .infinite d.negative
  else ofQuotient d.negative (d.digits * pow10 d.exponent.toNat) (pow10 (-d.exponent).toNat)

/-- The integer that a finite number is, if it is one. -/
def toInt? : Binary64 → Option Int
  | .finite negative mantissa exponent =>
    let den := pow2 (-exponent).toNat
    if mantissa % den = 0 then
      let magnitude : Int := (mantissa / den * pow2 exponent.toNat : Nat)
      some (if negative then -magnitude else magnitude)
    else none
  | _ => none

end Binary64

end TokiPona
