/-!
# Shortest decimals

The decimal with the fewest digits that reads back as a given binary floating-point number, and the
nearest to it among those. A finite positive number is `m * 2 ^ q`; the reals that round to it form
an interval, whose ends belong to it exactly when `m` is even. For one, two, … seventeen digits the
two neighbours of the number on that decimal grid are tested in exact arithmetic, and the first grid
with a neighbour in the interval wins. Of two neighbours the nearer is taken, and of two that are
equally near the one with the even last digit.

`shortestText` writes the result: without an exponent and with at least one decimal while the
leading digit stands for a power of ten from `10 ^ -5` to `10 ^ 15`, and with an exponent beyond.
-/

namespace Informer.Decimal

/-- A positive number and the interval that rounds to it, as numerators over one denominator. -/
structure Interval where
  low : Nat
  mid : Nat
  high : Nat
  denominator : Nat
  /-- Whether the ends round to the number as well. -/
  closed : Bool

/-- The interval of the finite number with the given bits; the sign is ignored. -/
def Interval.ofBits (bits : Nat) : Interval :=
  let fraction := bits % Nat.pow 2 52
  let exponent := bits / Nat.pow 2 52 % Nat.pow 2 11
  let m := if exponent = 0 then fraction else fraction + Nat.pow 2 52
  let shift := if exponent = 0 then 1 else exponent
  -- The gap below a power of two is half the gap above it.
  let below := if fraction = 0 && exponent > 1 then 1 else 2
  let scale := if shift ≥ 1077 then Nat.pow 2 (shift - 1077) else 1
  { low := (4 * m - below) * scale
    mid := 4 * m * scale
    high := (4 * m + 2) * scale
    denominator := if shift ≥ 1077 then 1 else Nat.pow 2 (1077 - shift)
    closed := m % 2 = 0 }

namespace Interval

/-- Whether `digits * 10 ^ exponent` lies in the interval. -/
def contains (i : Interval) (digits : Nat) (exponent : Int) : Bool :=
  let up := Nat.pow 10 exponent.toNat
  let down := Nat.pow 10 (-exponent).toNat
  let value := digits * up * i.denominator
  if i.closed then i.low * down ≤ value && value ≤ i.high * down
  else i.low * down < value && value < i.high * down

/-- The greatest multiple of `10 ^ exponent` that is not above the number. -/
def floor (i : Interval) (exponent : Int) : Nat :=
  i.mid * Nat.pow 10 (-exponent).toNat / (i.denominator * Nat.pow 10 exponent.toNat)

/-- Whether the multiple `digits` of `10 ^ exponent` is nearer than the next one, or as near and
even. -/
def nearer (i : Interval) (digits : Nat) (exponent : Int) : Bool :=
  let twice := 2 * i.mid * Nat.pow 10 (-exponent).toNat
  let middle := (2 * digits + 1) * Nat.pow 10 exponent.toNat * i.denominator
  twice < middle || twice = middle && digits % 2 = 0

/-- The exponent of the leading decimal digit. -/
def magnitude (i : Interval) : Int :=
  if i.denominator ≤ i.mid then
    (Nat.toDigits 10 (i.mid / i.denominator)).length - 1
  else
    -(Nat.toDigits 10 ((i.denominator - 1) / i.mid)).length

/-- The shortest decimal in the interval, when none with fewer than `18 - n` digits is in it. -/
def search (i : Interval) : Nat → Nat × Int
  | 0 => (i.floor (i.magnitude - 16), i.magnitude - 16)
  | n + 1 =>
    let exponent := i.magnitude - (16 - n : Int)
    let digits := i.floor exponent
    match i.contains digits exponent, i.contains (digits + 1) exponent with
    | true, true => (if i.nearer digits exponent then digits else digits + 1, exponent)
    | true, false => (digits, exponent)
    | false, true => (digits + 1, exponent)
    | false, false => search i n

/-- The digits and the exponent of the shortest decimal. A neighbour on a grid may have carried into
one digit more, which is then a zero. -/
def shortest (i : Interval) : Nat × Int :=
  let (digits, exponent) := i.search 17
  if digits % 10 = 0 then (digits / 10, exponent + 1) else (digits, exponent)

end Interval

/-- Writes `digits * 10 ^ exponent` without an exponent and with at least one decimal. -/
def positional (digits : Nat) (exponent : Int) : String :=
  let text := Nat.toDigits 10 digits
  let places := (-exponent).toNat
  if places = 0 then
    String.ofList (text ++ List.replicate exponent.toNat '0') ++ ".0"
  else
    let padded := List.replicate (places + 1 - text.length) '0' ++ text
    let whole := padded.length - places
    String.ofList (padded.take whole) ++ "." ++ String.ofList (padded.drop whole)

/-- Writes `digits * 10 ^ exponent` as one digit, the others behind a point, and the power of ten
with its sign. -/
def scientific (digits : Nat) (exponent : Int) : String :=
  let text := Nat.toDigits 10 digits
  let power := exponent + (text.length - 1 : Nat)
  String.ofList (text.take 1) ++ (if text.length = 1 then "" else ".")
    ++ String.ofList (text.drop 1) ++ (if power < 0 then "e-" else "e+") ++ toString power.natAbs

/-- Writes `digits * 10 ^ exponent`, without an exponent if the leading digit stands for a power of
ten from `10 ^ -5` to `10 ^ 15`. -/
def text (digits : Nat) (exponent : Int) : String :=
  let power := exponent + ((Nat.toDigits 10 digits).length - 1 : Nat)
  if -5 ≤ power && power ≤ 15 then positional digits exponent else scientific digits exponent

/-- The shortest text that reads back as a finite number. -/
def shortestText (x : Float) : String :=
  let bits := x.toBits.toNat
  let sign := if bits < Nat.pow 2 63 then "" else "-"
  if bits % Nat.pow 2 63 = 0 then sign ++ "0.0"
  else
    let (digits, exponent) := (Interval.ofBits bits).shortest
    sign ++ text digits exponent

end Informer.Decimal
