import TokiPona.Number.Binary64

namespace TokiPona.Binary64

/-- The decimals that round to the number with this mantissa and exponent, scaled so that the
    comparison is one of integers: `4 * (mantissa * 2 ^ exponent)` against `4 * (c * 10 ^ unit)`.
    The ends of the interval belong to it if the mantissa is even. Below a power of two the
    neighbour is nearer by half. -/
def roundsFrom (mantissa : Nat) (exponent : Int) (c : Nat) (unit : Int) : Bool :=
  let point := 4 * c * pow10 unit.toNat * pow2 (-exponent).toNat
  let scale := pow2 exponent.toNat * pow10 (-unit).toNat
  let below := if mantissa = pow2 52 && minExponent < exponent then 1 else 2
  let lo := (4 * mantissa - below) * scale
  let hi := (4 * mantissa + 2) * scale
  if mantissa % 2 = 0 then lo ≤ point && point ≤ hi else lo < point && point < hi

/-- The place of the decimal point: the least `k` for which the number is below `10 ^ k`. -/
def pointPlace (mantissa : Nat) (exponent : Int) : Int :=
  let num := mantissa * pow2 exponent.toNat
  let den := pow2 (-exponent).toNat
  if den ≤ num then digitCount (num / den)
  else 1 - digitCount ((den + num - 1) / num - 1)

/-- A decimal with `count` digits that reads back as the number, the nearer one if there are
    two: the candidates are the neighbours of the number on the grid of such decimals. -/
def withDigits? (mantissa : Nat) (exponent : Int) (count : Nat) : Option (Nat × Int) :=
  let unit := pointPlace mantissa exponent - count
  let num := mantissa * pow2 exponent.toNat * pow10 (-unit).toNat
  let den := pow2 (-exponent).toNat * pow10 unit.toNat
  let c := num / den
  let twice := 2 * (num % den)
  let upIsNearer := den < twice || (twice = den && c % 2 = 1)
  match 0 < c && roundsFrom mantissa exponent c unit, roundsFrom mantissa exponent (c + 1) unit with
  | true, true => some (if upIsNearer then c + 1 else c, unit)
  | true, false => some (c, unit)
  | false, true => some (c + 1, unit)
  | false, false => none

/-- Moves the zeros at the end of the digits into the exponent. -/
def dropZeros : Nat → Nat → Int → Nat × Int
  | 0, digits, exponent => (digits, exponent)
  | steps + 1, digits, exponent =>
    if digits % 10 = 0 && digits ≠ 0 then dropZeros steps (digits / 10) (exponent + 1)
    else (digits, exponent)

/-- The shortest decimal that reads back as the number. Seventeen digits are always enough. -/
def shortest (mantissa : Nat) (exponent : Int) : Nat × Int :=
  match (List.range 17).findSome? (fun n => withDigits? mantissa exponent (n + 1)) with
  | some (digits, unit) => dropZeros 17 digits unit
  | none => (mantissa, 0)

/-- Digits with a decimal point: positional for a point up to sixteen places behind the first
    digit and up to three zeros behind the point, and with an exponent of at least two digits
    otherwise. There is always a digit behind the point of a positional numeral. -/
def layout (digits : List Char) (point : Int) : List Char :=
  if -4 < point && point ≤ 0 then
    '0' :: '.' :: List.replicate (-point).toNat '0' ++ digits
  else if 0 < point && point ≤ 16 then
    if digits.length ≤ point then
      digits ++ List.replicate (point.toNat - digits.length) '0' ++ ['.', '0']
    else digits.take point.toNat ++ '.' :: digits.drop point.toNat
  else
    let power := (point - 1).natAbs
    let lead := digits.take 1 ++ if 1 < digits.length then '.' :: digits.drop 1 else []
    let sign := if point - 1 < 0 then '-' else '+'
    lead ++ 'e' :: sign :: (if power < 10 then ['0'] else []) ++ Nat.toDigits 10 power

/-- The text of a number: the fewest digits that read back. -/
def text : Binary64 → String
  | .nan => "nan"
  | .infinite negative => if negative then "-inf" else "inf"
  | .finite negative mantissa exponent =>
    let sign := if negative then ['-'] else []
    if mantissa = 0 then String.ofList (sign ++ ['0', '.', '0'])
    else
      let (digits, unit) := shortest mantissa exponent
      let shown := Nat.toDigits 10 digits
      String.ofList (sign ++ layout shown (shown.length + unit))

end TokiPona.Binary64
