/-!
# EdmCommands.Decimal

The shortest decimal that reads back to a binary floating point number, written without an
exponent. The digits are chosen by exact arithmetic on the two parts of the number: a decimal
reads back when it lies between the midpoints to the two neighbours.

* `Binary`: a finite non-negative number `m * 2^q`.
* `Binary.readsBack`: whether a decimal lies in the rounding interval of the number.
* `Binary.shortest`: the first grid of powers of ten that meets the interval, and the nearer of
  its points there.
* `floatText`: the positional text, always with a decimal point.
-/

namespace EdmCommands
namespace Decimal

/-- A finite non-negative number `m * 2^q`. -/
structure Binary where
  m : Nat
  q : Int
  /-- The neighbour below is half as far away as the one above. -/
  narrowBelow : Bool
deriving Repr, DecidableEq

/-- The number with the given bits, which are neither infinite nor NaN; the sign is dropped. -/
def Binary.ofBits (bits : UInt64) : Binary :=
  let biased := ((bits >>> 52) &&& 0x7FF).toNat
  let fraction := (bits &&& 0xFFFFFFFFFFFFF).toNat
  if biased == 0 then ⟨fraction, -1074, false⟩
  else ⟨Nat.pow 2 52 + fraction, (biased : Int) - 1075, fraction == 0 && biased > 1⟩

/-- A decimal `digits * 10^exponent`. -/
structure Digits where
  digits : Nat
  exponent : Int
deriving Repr, DecidableEq

/-- Compares `a * 10^i` with `b * 2^j`. -/
def compareScaled (a : Nat) (i : Int) (b : Nat) (j : Int) : Ordering :=
  compare (a * Nat.pow 10 i.toNat * Nat.pow 2 (-j).toNat)
    (b * Nat.pow 2 j.toNat * Nat.pow 10 (-i).toNat)

/-- Whether the decimal is rounded to the number; the ends of the interval belong to it exactly
when `m` is even. -/
def Binary.readsBack (x : Binary) (d : Digits) : Bool :=
  let low := if x.narrowBelow then 4 * x.m - 1 else 4 * x.m - 2
  let closed := x.m % 2 == 0
  let atLow := compareScaled d.digits d.exponent low (x.q - 2)
  let atHigh := compareScaled d.digits d.exponent (4 * x.m + 2) (x.q - 2)
  (atLow == .gt || (closed && atLow == .eq)) && (atHigh == .lt || (closed && atHigh == .eq))

/-- The least power of ten above a number that is not zero. -/
def Binary.scale (x : Binary) : Int :=
  let found := (List.range 640).find? fun (k : Nat) =>
    compareScaled 1 (Int.ofNat k - 325) x.m x.q == .gt
  Int.ofNat (found.getD 640) - 325

/-- The point of the grid `10^exponent` that reads back and is nearest to the number; the upper
one of two that are equally near. -/
def Binary.nearestOn (x : Binary) (exponent : Int) : Option Digits :=
  let numerator := x.m * Nat.pow 2 x.q.toNat * Nat.pow 10 (-exponent).toNat
  let denominator := Nat.pow 2 (-x.q).toNat * Nat.pow 10 exponent.toNat
  let below := numerator / denominator
  let lower : Digits := ⟨below, exponent⟩
  let upper : Digits := ⟨below + 1, exponent⟩
  let upperIsNear := (2 * below + 1) * denominator ≤ 2 * numerator
  match x.readsBack lower, x.readsBack upper with
  | true, true => some (if upperIsNear then upper else lower)
  | true, false => some lower
  | false, true => some upper
  | false, false => none

/-- The decimal with the fewest digits that reads back to the number. -/
def Binary.shortest (x : Binary) : Digits :=
  if x.m == 0 then ⟨0, 0⟩
  else
    let top := x.scale
    match (List.range 17).findSome? fun (n : Nat) => x.nearestOn (top - Int.ofNat n - 1) with
    | some d => d
    | none => ⟨x.m * Nat.pow 2 x.q.toNat * Nat.pow 5 (-x.q).toNat, min x.q 0⟩

/-- The digits of a fraction without the zeros at their end. -/
def stripZeros (cs : List Char) : List Char :=
  (cs.reverse.dropWhile (· == '0')).reverse

/-- The decimal written without an exponent and with at least one digit on each side of the
point. -/
def Digits.positional (d : Digits) : String :=
  let written := Nat.toDigits 10 d.digits
  if 0 ≤ d.exponent then
    String.ofList (written ++ List.replicate d.exponent.toNat '0') ++ ".0"
  else
    let places := (-d.exponent).toNat
    let padded := List.replicate (places + 1 - written.length) '0' ++ written
    let whole := padded.take (padded.length - places)
    let fraction := stripZeros (padded.drop (padded.length - places))
    String.ofList whole ++ "." ++ (if fraction.isEmpty then "0" else String.ofList fraction)

/-- The text of a floating point number: its shortest decimal, without an exponent. -/
def floatText (x : Float) : String :=
  if x.isNaN then "NaN"
  else
    let sign := if x.toBits >>> 63 == 1 then "-" else ""
    if x.isInf then sign ++ "inf"
    else sign ++ (Binary.ofBits x.toBits).shortest.positional

end Decimal
end EdmCommands
