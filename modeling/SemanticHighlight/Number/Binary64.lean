/-!
# Floating point numbers

A configuration document may hold numbers with a fraction. They are kept as 64-bit floating point
numbers, exactly: a sign, a whole mantissa below `2 ^ 53` and a power of two. Reading a decimal
rounds it to the nearest such number, to the even mantissa if two are equally near.
-/

namespace SemanticHighlight

inductive Binary64 where
  | nan
  | infinite (negative : Bool)
  /-- The number `± mantissa * 2 ^ exponent`; a zero keeps its sign. -/
  | finite (negative : Bool) (mantissa : Nat) (exponent : Int)
  deriving DecidableEq, Repr

namespace Binary64

def leastExponent : Int := -1074

def greatestExponent : Int := 971

def zero (negative : Bool) : Binary64 := .finite negative 0 leastExponent

/-- The whole part of `numerator / (denominator * 2 ^ exponent)`, rounded to even. -/
def roundQuotient (numerator denominator : Nat) (exponent : Int) : Nat :=
  let n := numerator * Nat.pow 2 (-exponent).toNat
  let d := denominator * Nat.pow 2 exponent.toNat
  let q := n / d
  let twice := 2 * (n % d)
  if d < twice ∨ (twice = d ∧ q % 2 = 1) then q + 1 else q

/-- The power of two that gives the quotient 53 binary digits, or as many as the smallest numbers
have. -/
def exponentFor (numerator denominator : Nat) : Int :=
  let guess : Int := (numerator.log2 : Int) - denominator.log2 - 53
  let wide :=
    Nat.pow 2 53 * (denominator * Nat.pow 2 guess.toNat) ≤ numerator * Nat.pow 2 (-guess).toNat
  max leastExponent (if wide then guess + 1 else guess)

/-- The number nearest to a positive quotient. -/
def ofQuotient (negative : Bool) (numerator denominator : Nat) : Binary64 :=
  let e := exponentFor numerator denominator
  let m := roundQuotient numerator denominator e
  let (m, e) := if m = Nat.pow 2 53 then (Nat.pow 2 52, e + 1) else (m, e)
  if greatestExponent < e then .infinite negative else .finite negative m e

def ofDecimal (negative : Bool) (digits : Nat) (scale : Int) : Binary64 :=
  if digits = 0 then zero negative
  else
    let magnitude : Int := (Nat.toDigits 10 digits).length + scale
    if magnitude < -330 then zero negative
    else if 330 < magnitude then .infinite negative
    else ofQuotient negative (digits * Nat.pow 10 scale.toNat) (Nat.pow 10 (-scale).toNat)

def ofInt (i : Int) : Binary64 :=
  if i = 0 then zero false else ofQuotient (decide (i < 0)) i.natAbs 1

/-- The whole number that this is, if it is one. -/
def toInt? : Binary64 → Option Int
  | finite negative m e =>
    let d := Nat.pow 2 (-e).toNat
    if m % d = 0 then
      let n : Int := (m * Nat.pow 2 e.toNat / d : Nat)
      some (if negative then -n else n)
    else none
  | _ => none

def neg : Binary64 → Binary64
  | nan => nan
  | infinite negative => infinite !negative
  | finite negative m e => finite (!negative) m e

/-- A number as a fraction, the denominator positive. -/
def toQuotient? : Binary64 → Option (Int × Nat)
  | finite negative m e =>
    let n : Int := (m * Nat.pow 2 e.toNat : Nat)
    some (if negative then -n else n, Nat.pow 2 (-e).toNat)
  | _ => none

end Binary64

end SemanticHighlight
