import SemanticHighlight.Number.Binary64
import SemanticHighlight.Text.Basic

/-!
# The shortest decimal that reads back

A floating point number is written with the fewest decimal digits that are read as that number
again, and of the candidates with that many digits the nearest. For one, two, … seventeen digits
the two neighbours of the number among the decimals with that many digits are tested in whole
numbers; the first length with a hit wins.
-/

namespace SemanticHighlight

structure Decimal where
  digits : Nat
  scale : Int
  deriving DecidableEq, Repr

namespace Decimal

def compareBinary (d : Decimal) (n : Nat) (exponent : Int) : Ordering :=
  compare (d.digits * Nat.pow 10 d.scale.toNat * Nat.pow 2 (-exponent).toNat)
    (n * Nat.pow 2 exponent.toNat * Nat.pow 10 (-d.scale).toNat)

/-- Whether a decimal is read as `mantissa * 2 ^ exponent`: it lies between the midpoints to the
two neighbouring numbers, or on one of them if the mantissa is even. Below a power of two the
neighbours stand at half the distance. -/
def readsBack (mantissa : Nat) (exponent : Int) (d : Decimal) : Bool :=
  let narrow := mantissa == Nat.pow 2 52 && Binary64.leastExponent < exponent
  let low := d.compareBinary (if narrow then 4 * mantissa - 1 else 4 * mantissa - 2) (exponent - 2)
  let high := d.compareBinary (4 * mantissa + 2) (exponent - 2)
  let closed := mantissa % 2 == 0
  (low == .gt || (closed && low == .eq)) && (high == .lt || (closed && high == .eq))

/-- The whole part of `mantissa * 2 ^ exponent / 10 ^ scale`. -/
def wholePart (mantissa : Nat) (exponent scale : Int) : Nat :=
  let numerator := mantissa * Nat.pow 2 exponent.toNat * Nat.pow 10 (-scale).toNat
  let denominator := Nat.pow 2 (-exponent).toNat * Nat.pow 10 scale.toNat
  numerator / denominator

/-- The power of ten of the leading digit of a positive number. -/
def leadingPower (mantissa : Nat) (exponent : Int) : Int :=
  let numerator := mantissa * Nat.pow 2 exponent.toNat
  let denominator := Nat.pow 2 (-exponent).toNat
  if denominator ≤ numerator then
    ((Nat.toDigits 10 (numerator / denominator)).length : Int) - 1
  else
    let digits := (Nat.toDigits 10 (denominator / numerator)).length
    let isPower := denominator = numerator * Nat.pow 10 (digits - 1)
    if isPower then -((digits - 1 : Nat) : Int) else -(digits : Int)

/-- Of the two decimals around the number that end at `10 ^ scale`, one that reads back; of two, the
nearer, and of two equally near the even one. -/
def neighbour? (mantissa : Nat) (exponent scale : Int) : Option Decimal :=
  let low : Decimal := ⟨wholePart mantissa exponent scale, scale⟩
  let high : Decimal := ⟨low.digits + 1, scale⟩
  match readsBack mantissa exponent low, readsBack mantissa exponent high with
  | true, false => some low
  | false, true => some high
  | false, false => none
  | true, true =>
    match (⟨5 * (2 * low.digits + 1), scale - 1⟩ : Decimal).compareBinary mantissa exponent with
    | .lt => some high
    | .gt => some low
    | .eq => some (if low.digits % 2 = 0 then low else high)

/-- The shortest decimal that is read as a positive number `mantissa * 2 ^ exponent`. -/
def shortest (mantissa : Nat) (exponent : Int) : Decimal :=
  let leading := leadingPower mantissa exponent
  let found := (List.range 17).findSome? fun (n : Nat) =>
    neighbour? mantissa exponent (leading - n)
  found.getD ⟨wholePart mantissa exponent (leading - 17), leading - 17⟩

end Decimal

namespace Binary64

/-- Digits without a point, and the power of ten of a point in front of them; trailing zeros are
gone. -/
def significant (d : Decimal) : Text × Int :=
  let digits := Text.ofNat d.digits
  let kept : Text := (digits.reverse.dropWhile (· == ('0' : CodePoint))).reverse
  (kept, d.scale + digits.length)

/-- Positional notation, always with a point, for numbers from `0.0001` to below `10 ^ 16`, and
otherwise an exponent of at least two digits with its sign. -/
def notationOf (digits : Text) (point : Int) : Text :=
  let zeros (n : Int) : Text := List.replicate n.toNat ('0' : CodePoint)
  if -4 < point ∧ point ≤ 16 then
    if point ≤ 0 then "0." ++ zeros (-point) ++ digits
    else if digits.length ≤ point then digits ++ zeros (point - digits.length) ++ ".0"
    else digits.take point.toNat ++ "." ++ digits.drop point.toNat
  else
    let exponent := point - 1
    let fraction : Text := digits.drop 1
    let size := Text.ofNat exponent.natAbs
    let pointed : Text := if fraction = [] then [] else "." ++ fraction
    let sign : Text := if exponent < 0 then "-" else "+"
    digits.take 1 ++ pointed ++ "e" ++ sign ++ zeros (2 - size.length) ++ size

def toText (x : Binary64) : Text :=
  let sign (negative : Bool) : Text := if negative then "-" else ""
  match x with
  | nan => "nan"
  | infinite negative => sign negative ++ "inf"
  | finite negative 0 _ => sign negative ++ "0.0"
  | finite negative m e =>
    let (digits, point) := significant (Decimal.shortest m e)
    sign negative ++ notationOf digits point

end Binary64

end SemanticHighlight
