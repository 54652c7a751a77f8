import Markup.Text
import Markup.Unicode.Category

/-! # Numbers in decimal

Integers are read as a user types them, and floating-point numbers are shown with the fewest digits
that read back (`shortest`). -/

namespace Markup.Decimal

open Unicode

/-! ### Integers

Decimal digits of any script with single underscores between them, after an optional sign, with
space around. An integer of too many digits is neither read nor shown. -/

/-- The most digits that are read or shown. -/
def maxDigits : Nat := 4300

/-- Whether an integer has no more digits than are shown. -/
def isShort (n : Int) : Bool := decide (n.natAbs < Nat.pow 10 maxDigits)

/-- Space around a number: whitespace, without the four separator controls. -/
def isPadding (c : Char) : Bool := isWhitespace c && !(0x1C ≤ c.toNat && c.toNat ≤ 0x1F)

/-- The values of digits that may have single underscores between them; `none` if anything else
is among them, or nothing. -/
def digitValues? : List Char → Option (List Nat)
  | [] => none
  | [c] => (decimalValue? c).map fun d => [d]
  | c :: u :: rest =>
    match decimalValue? c with
    | none => none
    | some d =>
      if u = '_' then (digitValues? rest).map (d :: ·) else (digitValues? (u :: rest)).map (d :: ·)

/-- The number that digits stand for. -/
def ofDigitValues (ds : List Nat) : Nat := ds.foldl (fun n d => 10 * n + d) 0

/-- A number without sign, of a length that is read. -/
def natural? (cs : List Char) : Option Nat :=
  match digitValues? cs with
  | some ds => if ds.length ≤ maxDigits then some (ofDigitValues ds) else none
  | none => none

/-- A number with an optional sign. -/
def signed? : List Char → Option Int
  | [] => none
  | c :: rest =>
    if c = '-' then (natural? rest).map fun n => -(n : Int)
    else if c = '+' then (natural? rest).map fun n => (n : Int)
    else (natural? (c :: rest)).map fun n => (n : Int)

/-- The integer of a text, if it is one. -/
def integer? (s : String) : Option Int := signed? (Text.trim isPadding s.toList)

/-! ### The fewest digits that read back

A finite binary floating-point number is `m * 2 ^ q`. Among the decimals that round to it,
`shortest` picks one with the fewest significant digits, and the nearest of those. The decimals
that round to a number are those between the midpoints to its neighbours, the midpoints included
if `m` is even; the lower neighbour is twice as near where `m` is the least of its exponent.

For one digit, two digits and so on, the number lies between two decimals of that many digits;
the first time one of the two rounds to the number, it is the answer. All comparisons are made
exactly, on natural numbers over a common denominator. -/

/-- A power of two. -/
def pow2 (n : Nat) : Nat := Nat.pow 2 n

/-- A power of ten. -/
def pow10 (n : Nat) : Nat := Nat.pow 10 n

/-- `digits * 10 ^ exponent`. -/
structure Scientific where
  digits : Nat
  exponent : Int
deriving DecidableEq, Repr, Inhabited

/-- A number and the midpoints to its neighbours, over one denominator; `closed` if the midpoints
round to the number. -/
structure Rounding where
  low : Nat
  value : Nat
  high : Nat
  denominator : Nat
  closed : Bool
deriving DecidableEq, Repr

/-- The decimals that round to `m * 2 ^ q`; `least` says that the number below is nearer. -/
def Rounding.of (m : Nat) (q : Int) (least : Bool) : Rounding :=
  let up := pow2 q.toNat
  { low := (4 * m - if least then 1 else 2) * up
    value := 4 * m * up
    high := (4 * m + 2) * up
    denominator := 4 * pow2 (-q).toNat
    closed := m % 2 = 0 }

namespace Rounding

/-- Whether `d * 10 ^ p` rounds to the number. -/
def admits (r : Rounding) (d : Nat) (p : Int) : Bool :=
  let scaled := d * pow10 p.toNat * r.denominator
  let down := pow10 (-p).toNat
  if r.closed then r.low * down ≤ scaled && scaled ≤ r.high * down
  else r.low * down < scaled && scaled < r.high * down

/-- How many times `10 ^ p` goes into the number. -/
def quotient (r : Rounding) (p : Int) : Nat :=
  r.value * pow10 (-p).toNat / (r.denominator * pow10 p.toNat)

/-- Whether the number is nearer to `(d + 1) * 10 ^ p` than to `d * 10 ^ p`; halfway, the even
one of the two is taken. -/
def nearerAbove (r : Rounding) (d : Nat) (p : Int) : Bool :=
  let twice := 2 * r.value * pow10 (-p).toNat
  let middle := (2 * d + 1) * pow10 p.toNat * r.denominator
  middle < twice || (middle = twice && d % 2 = 1)

/-- The decimal counted in `10 ^ p` that rounds to the number, the nearer one if two do. -/
def onGrid? (r : Rounding) (p : Int) : Option Scientific :=
  let d := r.quotient p
  match r.admits d p, r.admits (d + 1) p with
  | true, true => some ⟨if r.nearerAbove d p then d + 1 else d, p⟩
  | true, false => some ⟨d, p⟩
  | false, true => some ⟨d + 1, p⟩
  | false, false => none

/-- Number of digits before the decimal point; zeros after it count down. -/
def magnitude (r : Rounding) : Int :=
  let whole := r.value / r.denominator
  if whole = 0 then
    let zeros := (List.range 400).find? fun j => r.denominator ≤ r.value * pow10 j
    1 - (zeros.getD 400 : Nat)
  else (Nat.toDigits 10 whole).length

/-- The decimal with the fewest digits, seventeen being always enough. -/
def shortest (r : Rounding) : Scientific :=
  let k := r.magnitude
  ((List.range 17).findSome? fun n => r.onGrid? (k - (n + 1 : Nat))).getD
    ⟨r.quotient (k - 17), k - 17⟩

end Rounding

/-- The parts of a floating-point number. A finite one is `m * 2 ^ q`, where `least` says that the
number below is nearer than the one above. -/
inductive Parts where
  | nan
  | infinite (negative : Bool)
  | finite (negative : Bool) (m : Nat) (q : Int) (least : Bool)
deriving DecidableEq, Repr, Inhabited

/-- Takes a floating-point number apart. -/
def parts (x : Float) : Parts :=
  let bits := x.toBits.toNat
  let negative := bits / pow2 63 = 1
  let exponent : Nat := bits / pow2 52 % pow2 11
  let fraction : Nat := bits % pow2 52
  if exponent = 2047 then if fraction = 0 then .infinite negative else .nan
  else if exponent = 0 then .finite negative fraction (-1074) false
  else
    .finite negative (pow2 52 + fraction) ((exponent : Int) - 1075) (fraction = 0 && 1 < exponent)

/-! ### Floating-point numbers in text

A number is written positionally, with at least one digit after the point, if the point stands at
most four zeros before the first digit or sixteen digits after it, and otherwise with one digit
before the point and a signed exponent of at least two digits. -/

/-- The digits with trailing zeros moved into the exponent. -/
def Scientific.trim (s : Scientific) : List Char × Int :=
  let digits := Nat.toDigits 10 s.digits
  let kept := (digits.reverse.dropWhile (· == '0')).reverse
  (kept, s.exponent + (digits.length - kept.length : Nat))

/-- The exponent as written after the letter `e`. -/
def exponentText (e : Int) : String :=
  let digits := Nat.toDigits 10 e.natAbs
  (if e < 0 then "-" else "+") ++
    String.ofList (if digits.length < 2 then '0' :: digits else digits)

/-- A positive decimal. -/
def Scientific.text (s : Scientific) : String :=
  let (digits, exponent) := s.trim
  let point : Int := digits.length + exponent
  if -4 < point ∧ point ≤ 16 then
    if point ≤ 0 then
      "0." ++ String.ofList (List.replicate (-point).toNat '0' ++ digits)
    else
      let whole := digits.take point.toNat
      let zeros := List.replicate (point.toNat - digits.length) '0'
      let fraction := digits.drop point.toNat
      String.ofList (whole ++ zeros) ++ "." ++
        (if fraction.isEmpty then "0" else String.ofList fraction)
  else
    let head := String.ofList (digits.take 1)
    let tail := digits.drop 1
    head ++ (if tail.isEmpty then "" else "." ++ String.ofList tail) ++ "e" ++
      exponentText (point - 1)

/-- A floating-point number as text. -/
def floatText (x : Float) : String :=
  match parts x with
  | .nan => "nan"
  | .infinite negative => if negative then "-inf" else "inf"
  | .finite negative m q least =>
    (if negative then "-" else "") ++
      (if m = 0 then "0.0" else (Rounding.of m q least).shortest.text)

end Markup.Decimal
