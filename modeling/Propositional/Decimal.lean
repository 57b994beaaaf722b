import Propositional.Text

/-! Numbers in double precision, written in decimal. A finite number is a whole number times a power
of two, and every real nearer to it than to any other such number reads back as it; a real halfway
between two of them reads back as the even one. A number is written with the fewest digits that
read back, and of two such decimals as the nearer, or else the even one. -/
namespace Propositional

/-- A positive finite number: a significand times a power of two, counted from the least power. -/
structure Binary where
  significand : Nat
  power : Nat
  /-- Whether the next smaller number is only half as far away as the next greater one. -/
  isNarrow : Bool
deriving DecidableEq

/-- Digits with the place of the last of them, counted from the place of the least unit. -/
structure Decimal where
  digits : Nat
  place : Nat
deriving DecidableEq

namespace Binary

/-- The number that sixty-four bits stand for, without its sign. -/
def ofBits (bits : UInt64) : Binary :=
  let exponent := ((bits >>> 52) &&& 0x7FF).toNat
  let fraction := (bits &&& 0xFFFFFFFFFFFFF).toNat
  if exponent = 0 then ⟨fraction, 0, false⟩
  else ⟨Nat.pow 2 52 + fraction, exponent - 1, fraction = 0 && 1 < exponent⟩

/-- The decimal places that reach every number and every halfway point exactly. -/
def places : Nat := 1076

/-- A number of quarters of the last binary digit, in units of the last decimal place. -/
def quarters (x : Binary) (n : Nat) : Nat := n * Nat.pow 2 x.power * Nat.pow 5 places

/-- The number itself, in units of the last decimal place. -/
def units (x : Binary) : Nat := x.quarters (4 * x.significand)

/-- Whether a number of units reads back as this number. -/
def readsBack (x : Binary) (n : Nat) : Bool :=
  let low := x.quarters (4 * x.significand - if x.isNarrow then 1 else 2)
  let high := x.quarters (4 * x.significand + 2)
  if x.significand % 2 = 0 then low ≤ n && n ≤ high else low < n && n < high

/-- The decimal of so many digits that reads back, if there is one. -/
def withDigits? (x : Binary) (count : Nat) : Option Decimal :=
  let place := (Text.ofNat x.units).length - count
  let unit := Nat.pow 10 place
  let below := x.units / unit
  match x.readsBack (below * unit), x.readsBack ((below + 1) * unit) with
  | false, false => none
  | true, false => some ⟨below, place⟩
  | false, true => some ⟨below + 1, place⟩
  | true, true =>
    let belowIsNearer :=
      match compare (2 * x.units) ((2 * below + 1) * unit) with
      | .lt => true
      | .eq => below % 2 = 0
      | .gt => false
    some ⟨if belowIsNearer then below else below + 1, place⟩

/-- The shortest decimal that reads back; seventeen digits are always enough. -/
def shortest (x : Binary) : Decimal :=
  ((List.range 17).findSome? fun n => x.withDigits? (n + 1)).getD ⟨x.units, 0⟩

end Binary

namespace Decimal

/-- Digits with a point behind the one of the given exponent, which counts from the first digit. At
least one digit stands on either side. -/
def positional (digits : Text) (exponent : Int) : Text :=
  let padded := List.replicate (-exponent).toNat '0' ++ digits
  let whole := padded.take (exponent.toNat + 1)
  let fraction := padded.drop (exponent.toNat + 1)
  whole ++ List.replicate (exponent.toNat + 1 - whole.length) '0' ++
    '.' :: if fraction.isEmpty then ['0'] else fraction

/-- Digits with a point behind the first, and the power of ten of that digit. -/
def scientific (digits : Text) (exponent : Int) : Text :=
  let mantissa :=
    match digits with
    | first :: second :: rest => first :: '.' :: second :: rest
    | _ => digits
  let shown := Text.ofNat exponent.natAbs
  mantissa ++ 'e' :: (if exponent < 0 then '-' else '+') ::
    List.replicate (2 - shown.length) '0' ++ shown

/-- A decimal without needless zeros: positional from one ten-thousandth up to 10¹⁶. -/
def shown (d : Decimal) : Text :=
  let digits := Text.ofNat d.digits
  let exponent : Int := digits.length - 1 + d.place - Binary.places
  let significant := (digits.reverse.dropWhile (· == '0')).reverse
  if exponent < -4 || 16 ≤ exponent then scientific significant exponent
  else positional significant exponent

/-- A number in double precision as text. -/
def ofFloat (x : Float) : Text :=
  if x.isNaN then "nan".toList
  else
    let sign := if x.toBits >>> 63 = 1 then ['-'] else []
    sign ++ if x.isInf then "inf".toList
      else if x == 0 then "0.0".toList
      else (Binary.ofBits x.toBits).shortest.shown

end Decimal

end Propositional
