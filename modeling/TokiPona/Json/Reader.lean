import TokiPona.Json.Basic

/-!
Reading JSON text.

Besides the standard's values the reader takes `NaN`, `Infinity` and `-Infinity`. Two escapes that
name the halves of a character are read as that character.
-/

namespace TokiPona.Json

/-- The blanks between the tokens of JSON. -/
def isSpace (c : Char) : Bool :=
  c == ' ' || c == '\t' || c == '\n' || c == '\r'

def skipSpace (text : List Char) : List Char :=
  text.dropWhile isSpace

/-- The value of a hexadecimal digit of either case. -/
def hexValue? (c : Char) : Option Nat :=
  if '0' ≤ c && c ≤ '9' then some (c.toNat - '0'.toNat)
  else if 'a' ≤ c && c ≤ 'f' then some (c.toNat - 'a'.toNat + 10)
  else if 'A' ≤ c && c ≤ 'F' then some (c.toNat - 'A'.toNat + 10)
  else none

/-- The code unit that four hexadecimal digits name. -/
def codeUnit? (a b c d : Char) : Option Nat := do
  let a ← hexValue? a
  let b ← hexValue? b
  let c ← hexValue? c
  let d ← hexValue? d
  some (((a * 16 + b) * 16 + c) * 16 + d)

/-- What a character behind a backslash stands for. -/
def escaped? : Char → Option Nat
  | '"' => some 0x22
  | '\\' => some 0x5C
  | '/' => some 0x2F
  | 'b' => some 0x08
  | 'f' => some 0x0C
  | 'n' => some 0x0A
  | 'r' => some 0x0D
  | 't' => some 0x09
  | _ => none

/-- Reads a string from behind its opening quote up to its closing one, as code points in which
    surrogates may still stand. A control character must be escaped. -/
def readUnits : List Char → Option (List Nat × List Char)
  | [] => none
  | '"' :: rest => some ([], rest)
  | '\\' :: 'u' :: a :: b :: c :: d :: rest => do
    let unit ← codeUnit? a b c d
    let (units, rest) ← readUnits rest
    some (unit :: units, rest)
  | '\\' :: c :: rest => do
    let unit ← escaped? c
    let (units, rest) ← readUnits rest
    some (unit :: units, rest)
  | c :: rest =>
    if c.toNat < 0x20 || c == '\\' then none
    else do
      let (units, rest) ← readUnits rest
      some (c.toNat :: units, rest)

def isHighSurrogate (n : Nat) : Bool := 0xD800 ≤ n && n ≤ 0xDBFF

def isLowSurrogate (n : Nat) : Bool := 0xDC00 ≤ n && n ≤ 0xDFFF

/-- Joins the pairs of surrogates in a string. -/
def joinSurrogates : List Nat → List CodePoint
  | high :: low :: rest =>
    if isHighSurrogate high && isLowSurrogate low then
      .ofNat (0x10000 + (high - 0xD800) * 0x400 + (low - 0xDC00)) :: joinSurrogates rest
    else .ofNat high :: joinSurrogates (low :: rest)
  | [n] => [.ofNat n]
  | [] => []

/-- Reads a string from behind its opening quote. -/
def readString (text : List Char) : Option (LooseText × List Char) := do
  let (units, rest) ← readUnits text
  some (⟨joinSurrogates units⟩, rest)

/-- The number that decimal digits write. -/
def digitsValue (digits : List Char) : Nat :=
  digits.foldl (fun n c => n * 10 + (c.toNat - '0'.toNat)) 0

/-- The longest integer that is read. -/
def maxIntegerDigits : Nat := 4300

/-- The digits in front of the point: no zero stands before other digits. -/
def readWhole : List Char → Option (List Char × List Char)
  | '0' :: rest => some (['0'], rest)
  | text =>
    match text.takeWhile Char.isDigit with
    | [] => none
    | digits => some (digits, text.dropWhile Char.isDigit)

/-- The digits behind the point, if a point with digits follows. -/
def readFraction : List Char → Option (List Char × List Char)
  | '.' :: rest =>
    match rest.takeWhile Char.isDigit with
    | [] => none
    | digits => some (digits, rest.dropWhile Char.isDigit)
  | _ => none

/-- The power of ten, if an exponent follows. -/
def readPower : List Char → Option (Int × List Char)
  | mark :: rest =>
    if mark == 'e' || mark == 'E' then
      let (negative, rest) :=
        match rest with
        | '-' :: rest => (true, rest)
        | '+' :: rest => (false, rest)
        | rest => (false, rest)
      match rest.takeWhile Char.isDigit with
      | [] => none
      | digits =>
        let power : Int := digitsValue digits
        some (if negative then -power else power, rest.dropWhile Char.isDigit)
    else none
  | [] => none

/-- Reads a number behind its sign. -/
def readUnsigned (negative : Bool) (text : List Char) : Option (Json × List Char) := do
  let (whole, rest) ← readWhole text
  let fraction := readFraction rest
  let rest := (fraction.map Prod.snd).getD rest
  let power := readPower rest
  match fraction, power with
  | none, none =>
    if maxIntegerDigits < whole.length then none
    else
      let magnitude : Int := digitsValue whole
      some (.int (if negative then -magnitude else magnitude), rest)
  | _, _ =>
    let places := (fraction.map Prod.fst).getD []
    let exponent := (power.map Prod.fst).getD 0 - places.length
    some (.float (.ofDecimal ⟨negative, digitsValue (whole ++ places), exponent⟩),
      (power.map Prod.snd).getD rest)

/-- Reads a number. -/
def readNumber : List Char → Option (Json × List Char)
  | '-' :: rest => readUnsigned true rest
  | text => readUnsigned false text

/-- Reads a value that is neither a list nor an object. -/
def readScalar : List Char → Option (Json × List Char)
  | '"' :: rest => (readString rest).map (fun (s, rest) => (.str s, rest))
  | 'n' :: 'u' :: 'l' :: 'l' :: rest => some (.null, rest)
  | 't' :: 'r' :: 'u' :: 'e' :: rest => some (.bool true, rest)
  | 'f' :: 'a' :: 'l' :: 's' :: 'e' :: rest => some (.bool false, rest)
  | 'N' :: 'a' :: 'N' :: rest => some (.float .nan, rest)
  | 'I' :: 'n' :: 'f' :: 'i' :: 'n' :: 'i' :: 't' :: 'y' :: rest =>
    some (.float (.infinite false), rest)
  | '-' :: 'I' :: 'n' :: 'f' :: 'i' :: 'n' :: 'i' :: 't' :: 'y' :: rest =>
    some (.float (.infinite true), rest)
  | text => readNumber text

mutual

/-- Reads a value. The first argument bounds the number of values and members still to come. -/
def readValue : Nat → List Char → Option (Json × List Char)
  | 0, _ => none
  | bound + 1, '[' :: rest =>
    match skipSpace rest with
    | ']' :: rest => some (.arr [], rest)
    | rest => do
      let (items, rest) ← readItems bound rest
      some (.arr items, rest)
  | bound + 1, '\x7b' :: rest =>
    match skipSpace rest with
    | '\x7d' :: rest => some (.obj [], rest)
    | rest => do
      let (members, rest) ← readMembers bound rest
      some (ofMembers members, rest)
  | _ + 1, text => readScalar text

/-- Reads the items of a list up to its closing bracket. There is at least one. -/
def readItems : Nat → List Char → Option (List Json × List Char)
  | 0, _ => none
  | bound + 1, text => do
    let (item, rest) ← readValue bound text
    match skipSpace rest with
    | ',' :: rest =>
      let (items, rest) ← readItems bound (skipSpace rest)
      some (item :: items, rest)
    | ']' :: rest => some ([item], rest)
    | _ => none

/-- Reads the members of an object up to its closing brace, as they are written. There is at
    least one. -/
def readMembers : Nat → List Char → Option (List (LooseText × Json) × List Char)
  | 0, _ => none
  | bound + 1, '"' :: rest => do
    let (name, rest) ← readString rest
    match skipSpace rest with
    | ':' :: rest =>
      let (value, rest) ← readValue bound (skipSpace rest)
      match skipSpace rest with
      | ',' :: rest =>
        let (members, rest) ← readMembers bound (skipSpace rest)
        some ((name, value) :: members, rest)
      | '\x7d' :: rest => some ([(name, value)], rest)
      | _ => none
    | _ => none
  | _ + 1, _ => none

end

/-- The value that a whole text writes. Every second step of the reader consumes a character, so
    the bound is never reached. -/
def parse? (text : String) : Option Json := do
  let chars := text.toList
  let (value, rest) ← readValue (2 * chars.length + 2) (skipSpace chars)
  if (skipSpace rest).isEmpty then some value else none

end TokiPona.Json
