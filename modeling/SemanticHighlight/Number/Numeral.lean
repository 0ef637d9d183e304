import SemanticHighlight.Text.Blank

/-!
# Whole numbers as they are typed

A whole number may have blanks around it, a sign, and single underscores between its digits. Digits
may come from any script that writes numbers in tens. In bases two, eight and sixteen a mark of the
base may stand in front.
-/

namespace SemanticHighlight

namespace CodePoint

/-- The zeros of all scripts, each followed by its other nine digits, in the fourteenth edition of
the character database. -/
def zeros : List Nat :=
  [
    0x30, 0x660, 0x6F0, 0x7C0, 0x966, 0x9E6, 0xA66, 0xAE6, 0xB66, 0xBE6, 0xC66, 0xCE6, 0xD66,
    0xDE6, 0xE50, 0xED0, 0xF20, 0x1040, 0x1090, 0x17E0, 0x1810, 0x1946, 0x19D0, 0x1A80, 0x1A90,
    0x1B50, 0x1BB0, 0x1C40, 0x1C50, 0xA620, 0xA8D0, 0xA900, 0xA9D0, 0xA9F0, 0xAA50, 0xABF0,
    0xFF10, 0x104A0, 0x10D30, 0x11066, 0x110F0, 0x11136, 0x111D0, 0x112F0, 0x11450, 0x114D0,
    0x11650, 0x116C0, 0x11730, 0x118E0, 0x11950, 0x11C50, 0x11D50, 0x11DA0, 0x16A60, 0x16AC0,
    0x16B50, 0x1D7CE, 0x1D7D8, 0x1D7E2, 0x1D7EC, 0x1D7F6, 0x1E140, 0x1E2F0, 0x1E950, 0x1FBF0]

/-- The value of a decimal digit of any script. -/
def decimal? (c : CodePoint) : Option Nat :=
  (zeros.find? fun first => first ≤ c.val && c.val < first + 10).map (c.val - ·)

/-- A decimal digit of any script as one of `0` to `9`; everything else stays. -/
def plainDigit (c : CodePoint) : CodePoint :=
  match c.decimal? with
  | some digit => ofNat (0x30 + digit)
  | none => c

/-- The blanks that may stand around a number: all but the four separators of ASCII. -/
def isNumberBlank (c : CodePoint) : Bool := c.isBlank && !(0x1C ≤ c.val && c.val ≤ 0x1F)

end CodePoint

namespace Text

def plainNumber (t : Text) : Text :=
  let start : Text := t.dropWhile CodePoint.isNumberBlank
  let bare : Text := (start.reverse.dropWhile CodePoint.isNumberBlank).reverse
  bare.map CodePoint.plainDigit

/-- The text behind its sign, and whether that is a minus. -/
def unsigned : Text → Bool × Text
  | c :: rest => if c = '-' then (true, rest) else if c = '+' then (false, rest) else (false, c :: rest)
  | [] => (false, [])

end Text

inductive NumeralProblem where
  | malformed
  /-- There are more digits than a number may have. -/
  | tooLong (digits : Nat)
  deriving DecidableEq, Repr

namespace Numeral

/-- No number in base ten has more digits than this. -/
def maxDigits : Nat := 4300

def mark? (base : Nat) : Option CodePoint :=
  match base with
  | 2 => some 'b'
  | 8 => some 'o'
  | 16 => some 'x'
  | _ => none

/-- What stands behind the mark of the base, if that is there; an underscore may follow it. -/
def unmarked (base : Nat) (t : Text) : Text :=
  match t with
  | zero :: letter :: rest =>
    if zero = '0' && mark? base = some letter.lowerAscii then
      if rest.head? = some ('_' : CodePoint) then rest.drop 1 else rest
    else t
  | _ => t

def isDigitIn (base : Nat) (c : CodePoint) : Bool :=
  (c.hexValue?.map fun n => decide (n < base)).getD false

/-- Whether underscores stand between digits only, one at a time. -/
def isSpaced (t : Text) : Bool := (t.splitOn '_').all fun digits => digits ≠ []

def value (base : Nat) (t : Text) : Nat :=
  (t.filterMap CodePoint.hexValue?).foldl (fun n digit => base * n + digit) 0

def readDigits (base : Nat) (t : Text) : Except NumeralProblem Nat :=
  let run := t.takeWhile fun c => isDigitIn base c || c = '_'
  let count := (run.filter (isDigitIn base)).length
  if !isSpaced run then .error .malformed
  else if base = 10 ∧ maxDigits < count then .error (.tooLong count)
  else if run.length < t.length then .error .malformed
  else .ok (value base run)

/-- The whole number that a text stands for in a base up to sixteen. -/
def read (base : Nat) (t : Text) : Except NumeralProblem Int := do
  let (negative, rest) := t.plainNumber.unsigned
  let n ← readDigits base (unmarked base rest)
  return if negative then -n else n

end Numeral

def Text.readInt? (t : Text) : Option Int := (Numeral.read 10 t).toOption

end SemanticHighlight
