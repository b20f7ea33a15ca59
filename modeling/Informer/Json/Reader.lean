import Informer.Json.Basic

/-!
# Reading JSON text

`Json.read?` reads one value from a text. Three rules decide what a number is. Without fraction and
exponent it is an integer if it fits 64 bits, unsigned or signed; `-0` and everything wider is a
floating-point number. A floating-point number is its first digits as a 64-bit integer, scaled by
a power of ten in floating-point arithmetic. And where the name of a member repeats, the last value
stands.

The readers of values, items and members recurse on a bound for the nesting and the length, which
`read?` takes from the text.
-/

namespace Informer.Json

/-! ### Numbers -/

/-- The value of a decimal digit. -/
def digitValue (c : Char) : Nat := c.toNat - '0'.toNat

/-- The digits at the start of a text, and what follows them. -/
def takeDigits (cs : List Char) : List Char × List Char :=
  (cs.takeWhile Char.isDigit, cs.dropWhile Char.isDigit)

/-- The first digits of a number, with the power of ten that they stand for. -/
structure Significand where
  value : Nat
  exponent : Int
deriving Inhabited

namespace Significand

/-- Whether a further digit still fits 64 bits. -/
def fits (s : Significand) (d : Nat) : Bool := s.value * 10 + d < UInt64.size

/-- Adds the digits before the point: those that no longer fit count as a power of ten. -/
def addWhole (s : Significand) : List Char → Significand
  | [] => s
  | c :: cs =>
    if s.fits (digitValue c) then
      addWhole { s with value := s.value * 10 + digitValue c } cs
    else
      { s with exponent := s.exponent + (cs.length + 1) }

/-- Adds the digits behind the point, up to the first that no longer fits. -/
def addFraction (s : Significand) : List Char → Significand
  | [] => s
  | c :: cs =>
    if s.fits (digitValue c) then
      addFraction ⟨s.value * 10 + digitValue c, s.exponent - 1⟩ cs
    else s

end Significand

/-- Divides by `10 ^ n`, by at most `10 ^ 308` at a time. -/
def divideByPowerOfTen (x : Float) (n : Nat) : Float :=
  if n ≤ 308 then x / Float.ofScientific 1 false n
  else if x == 0.0 then x
  else divideByPowerOfTen (x / Float.ofScientific 1 false 308) (n - 308)
termination_by n

/-- The floating-point number of a significand, unless it is too large for one. -/
def Significand.toFloat? (s : Significand) : Option Float :=
  let x := (UInt64.ofNat s.value).toFloat
  if s.exponent < 0 then
    some (divideByPowerOfTen x (-s.exponent).toNat)
  else if s.exponent ≤ 308 then
    let y := x * Float.ofScientific 1 false s.exponent.toNat
    if y.isInf then none else some y
  else if s.value = 0 then some x
  else none

/-- Reads the exponent of a number, if there is one. -/
def readExponent? : List Char → Option (Int × List Char)
  | c :: cs =>
    if c = 'e' || c = 'E' then
      let (sign, cs) : Int × List Char := match cs with
        | '+' :: cs => (1, cs)
        | '-' :: cs => (-1, cs)
        | cs => (1, cs)
      match takeDigits cs with
      | ([], _) => none
      | (digits, rest) =>
        some (sign * ((digits.foldl (fun n d ↦ n * 10 + digitValue d) 0 : Nat) : Int), rest)
    else some (0, c :: cs)
  | [] => some (0, [])

/-- Reads a number without its sign. -/
def readMagnitude? (negative : Bool) (cs : List Char) : Option (Json × List Char) := do
  let (whole, rest) := takeDigits cs
  if whole.isEmpty || (whole.length > 1 && whole.head? == some '0') then none
  let s := Significand.addWhole ⟨0, 0⟩ whole
  let isInteger : Bool := match rest with
    | c :: _ => !(c == '.' || c == 'e' || c == 'E')
    | [] => true
  if isInteger && s.exponent == 0 && !negative then
    return (integer s.value, rest)
  if isInteger && s.exponent == 0 && s.value != 0 && s.value ≤ Nat.pow 2 63 then
    return (integer (-s.value), rest)
  let (s, rest) ← match rest with
    | '.' :: rest => match takeDigits rest with
      | ([], _) => none
      | (digits, rest) => some (s.addFraction digits, rest)
    | rest => some (s, rest)
  let (e, rest) ← readExponent? rest
  let x ← Significand.toFloat? { s with exponent := s.exponent + e }
  return (float (if negative then -x else x), rest)

/-- Reads a number. -/
def readNumber? : List Char → Option (Json × List Char)
  | '-' :: cs => readMagnitude? true cs
  | cs => readMagnitude? false cs

/-! ### Strings -/

/-- The value of a hexadecimal digit. -/
def hexValue? (c : Char) : Option Nat :=
  if c.isDigit then some (c.toNat - '0'.toNat)
  else if 'a' ≤ c && c ≤ 'f' then some (c.toNat - 'a'.toNat + 10)
  else if 'A' ≤ c && c ≤ 'F' then some (c.toNat - 'A'.toNat + 10)
  else none

/-- Reads four hexadecimal digits. -/
def readHex4? : List Char → Option (Nat × List Char)
  | a :: b :: c :: d :: rest => do
    let value := (((← hexValue? a) * 16 + (← hexValue? b)) * 16 + (← hexValue? c)) * 16
      + (← hexValue? d)
    return (value, rest)
  | _ => none

/-- Reads a code point written in hexadecimal, as one unit or as a pair of surrogates. -/
def readCodePoint? (cs : List Char) : Option (Char × List Char) := do
  let (high, rest) ← readHex4? cs
  if 0xd800 ≤ high && high < 0xdc00 then
    match rest with
    | '\\' :: 'u' :: rest =>
      let (low, rest) ← readHex4? rest
      if 0xdc00 ≤ low && low < 0xe000 then
        return (Char.ofNat (0x10000 + (high - 0xd800) * 0x400 + (low - 0xdc00)), rest)
      else none
    | _ => none
  else if 0xdc00 ≤ high && high < 0xe000 then none
  else return (Char.ofNat high, rest)

/-- The character that a one-letter escape stands for. -/
def unescape? : Char → Option Char
  | '"' => some '"'
  | '\\' => some '\\'
  | '/' => some '/'
  | 'b' => some '\x08'
  | 'f' => some '\x0c'
  | 'n' => some '\n'
  | 'r' => some '\r'
  | 't' => some '\t'
  | _ => none

/-- Reads a string up to its closing quote, behind the characters already read. -/
def readChars? : Nat → List Char → List Char → Option (String × List Char)
  | 0, _, _ => none
  | _ + 1, _, [] => none
  | bound + 1, done, c :: cs =>
    if c = '"' then some (String.ofList done.reverse, cs)
    else if c = '\\' then
      match cs with
      | 'u' :: cs => do
        let (c, rest) ← readCodePoint? cs
        readChars? bound (c :: done) rest
      | c :: cs => do readChars? bound ((← unescape? c) :: done) cs
      | [] => none
    else if c.toNat < 0x20 then none
    else readChars? bound (c :: done) cs

/-! ### Values -/

/-- Drops the blanks at the start of a text. -/
def skipBlanks (cs : List Char) : List Char :=
  cs.dropWhile fun c ↦ c = ' ' || c = '\n' || c = '\r' || c = '\t'

mutual

/-- Reads a value. -/
def readValue? : Nat → List Char → Option (Json × List Char)
  | 0, _ => none
  | bound + 1, cs =>
    match skipBlanks cs with
    | 'n' :: 'u' :: 'l' :: 'l' :: rest => some (null, rest)
    | 't' :: 'r' :: 'u' :: 'e' :: rest => some (bool true, rest)
    | 'f' :: 'a' :: 'l' :: 's' :: 'e' :: rest => some (bool false, rest)
    | '"' :: rest => (readChars? bound [] rest).map fun (s, rest) ↦ (string s, rest)
    | '[' :: rest => match skipBlanks rest with
      | ']' :: rest => some (array [], rest)
      | rest => readItems? bound [] rest
    | '\x7b' :: rest => match skipBlanks rest with
      | '\x7d' :: rest => some (object [], rest)
      | rest => readMembers? bound [] rest
    | cs => readNumber? cs

/-- Reads the items of an array, behind those already read. -/
def readItems? : Nat → List Json → List Char → Option (Json × List Char)
  | 0, _, _ => none
  | bound + 1, done, cs => do
    let (v, rest) ← readValue? bound cs
    match skipBlanks rest with
    | ',' :: rest => readItems? bound (v :: done) rest
    | ']' :: rest => some (array (v :: done).reverse, rest)
    | _ => none

/-- Reads the members of an object, besides those already read. -/
def readMembers? : Nat → List (String × Json) → List Char → Option (Json × List Char)
  | 0, _, _ => none
  | bound + 1, done, cs =>
    match skipBlanks cs with
    | '"' :: rest => do
      let (name, rest) ← readChars? bound [] rest
      match skipBlanks rest with
      | ':' :: rest =>
        let (v, rest) ← readValue? bound rest
        match skipBlanks rest with
        | ',' :: rest => readMembers? bound (putMember name v done) rest
        | '\x7d' :: rest => some (object (putMember name v done), rest)
        | _ => none
      | _ => none
    | _ => none

end

/-- Reads a text that holds one value. -/
def read? (text : String) : Option Json :=
  let cs := text.toList
  match readValue? (2 * cs.length + 2) cs with
  | some (v, rest) => if (skipBlanks rest).isEmpty then some v else none
  | none => none

end Informer.Json
