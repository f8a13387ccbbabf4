import Procurement.Text.Decimal

/-!
# Binary fractions of 64 bits

The numbers of the IEEE 754 format binary64, as a mantissa below 2^53 and a power
of two. A decimal is taken to the nearest of them, a tie going to the even
mantissa, and a number is written with the fewest digits that are taken back to
it, without an exponent.
-/

namespace Procurement

/-- A binary64 number. Finite numbers are the mantissa times a power of two. -/
inductive Binary64 where
  | finite (negative : Bool) (mantissa : Nat) (exponent : Int)
  | infinite (negative : Bool)
  | nan
  deriving DecidableEq, Repr

namespace Binary64

open Procurement.Text

/-- A quotient rounded to the nearest whole number, a tie going to the even one. -/
def roundEven (numerator denominator : Nat) : Nat :=
  let quotient := numerator / denominator
  let twice := 2 * (numerator % denominator)
  if twice < denominator then quotient
  else if denominator < twice then quotient + 1
  else quotient + quotient % 2

/-- The least mantissa that uses all bits. -/
def leastFull : Nat := 4503599627370496

/-- A power with a whole exponent, as a quotient of natural numbers. -/
def power (base : Nat) (exponent : Int) : Nat × Nat :=
  if exponent < 0 then (1, Nat.pow base exponent.natAbs) else (Nat.pow base exponent.natAbs, 1)

/-- A quotient divided by a power of two and rounded, a tie going to the even number. -/
def scaledRound (numerator denominator : Nat) (exponent : Int) : Nat :=
  let (up, down) := power 2 exponent
  roundEven (numerator * down) (denominator * up)

/-- The least power of two that a mantissa is multiplied with. -/
def leastExponent : Int := -1074

/-- The finite number with a mantissa of up to 2^53, or an infinite one if it is too great. -/
def ofMantissa (negative : Bool) (mantissa : Nat) (exponent : Int) : Binary64 :=
  let (mantissa, exponent) :=
    if mantissa = 2 * leastFull then (leastFull, exponent + 1) else (mantissa, exponent)
  if leastFull ≤ mantissa ∧ 971 < exponent then infinite negative
  else finite negative mantissa exponent

/-- The number nearest to a quotient of positive numbers. -/
def ofQuotient (negative : Bool) (numerator denominator : Nat) : Binary64 :=
  let magnitude : Int := (numerator.log2 : Int) - denominator.log2
  let exponent := max (magnitude - 52) leastExponent
  let mantissa := scaledRound numerator denominator exponent
  if mantissa < leastFull ∧ leastExponent < exponent then
    ofMantissa negative (scaledRound numerator denominator (exponent - 1)) (exponent - 1)
  else ofMantissa negative mantissa exponent

/-- The number nearest to a decimal, given as a coefficient and a power of ten. -/
def ofDecimal (negative : Bool) (coefficient : Nat) (exponent : Int) : Binary64 :=
  let magnitude : Int := (digits coefficient).length + exponent
  if coefficient = 0 ∨ magnitude < -330 then finite negative 0 leastExponent
  else if 330 < magnitude then infinite negative
  else
    let (up, down) := power 10 exponent
    ofQuotient negative (coefficient * up) down

/-- Whether a number is finite. -/
def isFinite : Binary64 → Bool
  | finite .. => true
  | _ => false

/-- Whether a number differs from zero. -/
def isNonzero : Binary64 → Bool
  | finite _ mantissa _ => mantissa != 0
  | _ => true

/-- A finite number as a quotient of natural numbers, its sign apart. -/
def quotient (mantissa : Nat) (exponent : Int) : Nat × Nat :=
  let (up, down) := power 2 exponent
  (mantissa * up, down)

/-- The product of two finite numbers; a factor that is not finite takes its place. -/
def times : Binary64 → Binary64 → Binary64
  | finite negative mantissa exponent, finite negative' mantissa' exponent' =>
    let (numerator, denominator) := quotient (mantissa * mantissa') (exponent + exponent')
    if numerator = 0 then finite (negative != negative') 0 leastExponent
    else ofQuotient (negative != negative') numerator denominator
  | finite .., factor => factor
  | factor, _ => factor

/-- The whole number nearest to a number, a tie going away from zero, within bounds that
infinite numbers take on; what is no number counts as zero. -/
def toInteger (least greatest : Int) : Binary64 → Int
  | finite negative mantissa exponent =>
    let (numerator, denominator) := quotient mantissa exponent
    let magnitude : Int := (2 * numerator + denominator) / (2 * denominator)
    max least (min greatest (if negative then -magnitude else magnitude))
  | infinite negative => if negative then least else greatest
  | nan => 0

/-- Whether a decimal lies among the numbers that are taken to the given mantissa and
exponent. All sides are multiplied by four times the denominators. -/
def isTakenTo (mantissa : Nat) (exponent : Int) (coefficient : Nat) (tens : Int) : Bool :=
  let lowest := if mantissa = leastFull ∧ leastExponent < exponent then 4 * mantissa - 1
    else 4 * mantissa - 2
  let highest := 4 * mantissa + 2
  let (p, q) := power 2 exponent
  let (s, t) := power 10 tens
  let point := 4 * coefficient * s * q
  let low := lowest * p * t
  let high := highest * p * t
  if mantissa % 2 = 0 then low ≤ point && point ≤ high else low < point && point < high

/-- The multiple of a power of ten next to a quotient that is taken to the given number,
if one of its two neighbours is; of two the nearer one, and of two equally near ones the
greater. -/
def neighbour? (mantissa : Nat) (exponent tens : Int) : Option Nat :=
  let (numerator, denominator) := quotient mantissa exponent
  let (up, down) := power 10 tens
  let n := numerator * down
  let d := denominator * up
  let below := n / d
  let belowHits := isTakenTo mantissa exponent below tens
  let aboveHits := isTakenTo mantissa exponent (below + 1) tens
  match belowHits, aboveHits with
  | false, false => none
  | true, false => some below
  | false, true => some (below + 1)
  | true, true => if 2 * (n % d) < d then some below else some (below + 1)

/-- The decimal with the fewest digits that is taken to a positive finite number, sought
on finer and finer grids of multiples of powers of ten. -/
def shortest (mantissa : Nat) (exponent : Int) : Nat × Int :=
  let (numerator, denominator) := quotient mantissa exponent
  let magnitude : Int :=
    if denominator ≤ numerator then (digits (numerator / denominator)).length
    else 1 - ((digits (denominator / numerator)).length : Int)
  let grids : List Int := (List.range 20).map fun (n : Nat) => magnitude + 1 - (n : Int)
  let found := grids.findSome? fun tens =>
    (neighbour? mantissa exponent tens).bind fun c => if c = 0 then none else some (c, tens)
  found.getD (0, 0)

/-- A decimal without exponent: digits, and a point where there is a fraction. -/
def positional (coefficient : Nat) (tens : Int) : List Char :=
  let ds := digits coefficient
  if 0 ≤ tens then ds ++ List.replicate tens.natAbs '0'
  else
    let places := tens.natAbs
    let padded := List.replicate (places + 1 - ds.length) '0' ++ ds
    padded.take (padded.length - places) ++ '.' :: padded.drop (padded.length - places)

/-- The text of a number. -/
def text : Binary64 → List Char
  | nan => "NaN".toList
  | infinite negative => if negative then "-inf".toList else "inf".toList
  | finite negative mantissa exponent =>
    let unsigned :=
      if mantissa = 0 then ['0']
      else
        let (coefficient, tens) := shortest mantissa exponent
        positional coefficient tens
    if negative then '-' :: unsigned else unsigned

/-- Reads the words for infinity and for what is no number, in any case. -/
def readWord? (negative : Bool) (text : List Char) : Option Binary64 :=
  match String.ofList (text.map Char.toLower) with
  | "inf" | "infinity" => some (infinite negative)
  | "nan" => some nan
  | _ => none

/-- Reads an unsigned number: digits with at most one point among them, at least one
digit, and perhaps an exponent; or a word. -/
def readUnsigned? (negative : Bool) (text : List Char) : Option Binary64 :=
  let (whole, rest) := takeDigits text.length text
  let (fraction, rest) := match rest with
    | '.' :: rest => takeDigits rest.length rest
    | rest => ([], rest)
  let number (exponent : Int) : Option Binary64 :=
    if whole = [] ∧ fraction = [] then none
    else some (ofDecimal negative (numberOfDigits 10 (whole ++ fraction))
      (exponent - fraction.length))
  match rest with
  | [] => number 0
  | c :: rest =>
    if (c = 'e' ∨ c = 'E') ∧ ¬(whole = [] ∧ fraction = []) then (readInteger? rest).bind number
    else readWord? negative text

/-- Reads a number with an optional sign. -/
def ofText? : List Char → Option Binary64
  | '-' :: rest => readUnsigned? true rest
  | '+' :: rest => readUnsigned? false rest
  | text => readUnsigned? false text

end Binary64

end Procurement
