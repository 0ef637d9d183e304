import SemanticHighlight.Number.Binary64
import SemanticHighlight.Number.Numeral
import SemanticHighlight.Text.Lowercase
import SemanticHighlight.Yaml.Basic
import SemanticHighlight.Yaml.Complaint

/-!
# Literals

How scalars spell truth values, numbers, bytes and points in time. Numbers may hold underscores and
may be written in base sixty, their parts between colons.
-/

namespace SemanticHighlight

namespace Binary64

def ofFraction (numerator : Int) (denominator : Nat) : Binary64 :=
  if numerator = 0 then zero false
  else ofQuotient (decide (numerator < 0)) numerator.natAbs denominator

def isNegative : Binary64 → Bool
  | nan => false
  | infinite negative => negative
  | finite negative _ _ => negative

/-- The rounded sum; a zero comes out positive. -/
def add (a b : Binary64) : Binary64 :=
  match a, b with
  | infinite s, infinite t => if s = t then a else nan
  | infinite _, finite .. => a
  | finite .., infinite _ => b
  | _, _ =>
    match a.toQuotient?, b.toQuotient? with
    | some (n, d), some (m, e) => ofFraction (n * e + m * d) (d * e)
    | _, _ => nan

def mul (a b : Binary64) : Binary64 :=
  match a.toQuotient?, b.toQuotient? with
  | some (n, d), some (m, e) => ofFraction (n * m) (d * e)
  | some (0, _), none | none, some (0, _) => nan
  | _, _ => if a = nan ∨ b = nan then nan else infinite (a.isNegative != b.isNegative)

end Binary64

namespace Yaml

def truthWords : List (Text × Bool) :=
  [("yes", true), ("no", false), ("true", true), ("false", false), ("on", true), ("off", false)]

def readTruth (t : Text) : Except Fault Bool :=
  let word := t.lower
  match truthWords.lookup word with
  | some b => .ok b
  | none => .error (.notATruthValue word)

def withoutUnderscores (t : Text) : Text := t.filter (· != ('_' : CodePoint))

/-- A whole number in a base, with a sign of its own if it has one. -/
def wholeIn (base : Nat) (t : Text) : Except Fault Int :=
  (Numeral.read base t).mapError fun
    | .malformed => .notAnInteger base t
    | .tooLong count => .tooManyDigits (some count)

/-- Parts of a number in base sixty, added up from the right. -/
def baseSixty (parts : List Int) : Int := parts.foldl (fun n part => 60 * n + part) 0

/-- A whole number behind its sign: binary, hexadecimal, octal behind a zero, base sixty or
decimal. -/
def readMagnitude (t : Text) : Except Fault Int :=
  if t = "0" then .ok 0
  else
    match Text.after? "0b" t, Text.after? "0x" t, t with
    | some digits, _, _ => wholeIn 2 digits
    | none, some digits, _ => wholeIn 16 digits
    | none, none, [] => .error .noDigits
    | none, none, c :: _ =>
      if c = '0' then wholeIn 8 t
      else if t.contains ':' then return baseSixty (← (t.splitOn ':').mapM (wholeIn 10))
      else wholeIn 10 t

def readInteger (t : Text) : Except Fault Int := do
  let t := withoutUnderscores t
  if t = [] then throw .noDigits
  let (negative, rest) := t.unsigned
  let n ← readMagnitude rest
  return if negative then -n else n

def decimal? (negative : Bool) (t : Text) : Option Binary64 := do
  let whole := t.takeWhile CodePoint.isDigit
  let rest := t.drop whole.length
  let (fraction, rest) :=
    match rest with
    | c :: rest =>
      if c = '.' then
        let fraction := rest.takeWhile CodePoint.isDigit
        (fraction, rest.drop fraction.length)
      else ([], c :: rest)
    | [] => ([], [])
  if whole = [] ∧ fraction = [] then none
  let exponent ←
    match rest with
    | [] => some (0 : Int)
    | e :: rest =>
      let (negative, digits) := Text.unsigned rest
      if isOneOf "eE" e then
        if digits ≠ [] ∧ digits.all CodePoint.isDigit then
          let n : Int := Text.toNat digits
          some (if negative then -n else n)
        else none
      else none
  return Binary64.ofDecimal negative (Text.toNat (whole ++ fraction)) (exponent - fraction.length)

def realOf (t : Text) : Except Fault Binary64 :=
  let (negative, rest) := t.plainNumber.unsigned
  let word := rest.lowerAscii
  if word = "inf" ∨ word = "infinity" then .ok (.infinite negative)
  else if word = "nan" then .ok .nan
  else
    match decimal? negative rest with
    | some x => .ok x
    | none => .error (.notAReal t)

/-- Parts of a floating point number in base sixty, the last one first, added to a total. A part
counts `weight` times. -/
def realBaseSixty (total : Binary64) (weight : Nat) : List Binary64 → Except Fault Binary64
  | [] => .ok total
  | part :: more =>
    match Binary64.ofInt weight with
    | .infinite _ => .error .tooGreat
    | factor => realBaseSixty (total.add (part.mul factor)) (60 * weight) more

/-- A floating point number without underscores and in lower case, behind its sign. -/
def realSpelling (t : Text) : Bool × Text := (withoutUnderscores t).lower.unsigned

/-- Whether a scalar says in so many words that it is no number. -/
def spellsNan (t : Text) : Bool := (realSpelling t).2 = ".nan"

def readReal (t : Text) : Except Fault Binary64 := do
  if withoutUnderscores t = [] then throw .noDigits
  let (negative, rest) := realSpelling t
  let x ←
    if rest = ".inf" then pure (Binary64.infinite false)
    else if rest = ".nan" then pure Binary64.nan
    else if rest.contains ':' then do
      realBaseSixty (.zero false) 1 (← (rest.splitOn ':').mapM realOf).reverse
    else realOf rest
  return if negative then x.neg else x

/-! ## Bytes -/

def base64Value? (c : CodePoint) : Option Nat :=
  if 0x41 ≤ c.val ∧ c.val ≤ 0x5A then some (c.val - 0x41)
  else if 0x61 ≤ c.val ∧ c.val ≤ 0x7A then some (c.val - 0x61 + 26)
  else if c.isDigit then some (c.digitValue + 52)
  else if c = '+' then some 62
  else if c = '/' then some 63
  else none

/-- Bytes in base 64. `count` characters of the current group of four were read and have `bits` left
over; a group is complete, or padded up to four. Other characters are passed over. Without bytes, the
answer is how many characters the last group has. -/
def base64From (count bits pads : Nat) : Text → Except Nat Octets
  | [] => if count = 0 then .ok [] else .error count
  | c :: rest =>
    if c = '=' then
      if 2 ≤ count then
        if 4 ≤ count + pads + 1 then .ok [] else base64From count bits (pads + 1) rest
      else base64From count bits pads rest
    else
      match base64Value? c with
      | none => base64From count bits pads rest
      | some n =>
        let byte (b : Nat) := (UInt8.ofNat b :: ·)
        match count with
        | 0 => base64From 1 n 0 rest
        | 1 => (base64From 2 (n % 16) 0 rest).map (byte (bits * 4 + n / 16))
        | 2 => (base64From 3 (n % 4) 0 rest).map (byte (bits * 16 + n / 4))
        | _ => (base64From 0 0 0 rest).map (byte (bits * 64 + n))

def readBytes (t : Text) : Except Text Octets :=
  match (t.stretches fun c => !c.isAscii).head? with
  | some e =>
    .error ("failed to convert base64 data into ascii: 'ascii' codec can't encode " ++ e.place ++
      ": ordinal not in range(128)")
  | none =>
    match base64From 0 0 0 t with
    | .ok bytes => .ok bytes
    | .error 1 =>
      let count := (t.filter fun c => (base64Value? c).isSome).length
      .error ("failed to decode base64 data: Invalid base64-encoded string: number of data characters (" ++
        Text.ofNat count ++ ") cannot be 1 more than a multiple of 4")
    | .error _ => .error "failed to decode base64 data: Incorrect padding"

/-! ## Points in time -/

def digits? (least most : Nat) (t : Text) : Option (Nat × Text) :=
  let digits := (t.take most).takeWhile CodePoint.isDigit
  if digits.length < least then none else some (Text.toNat digits, t.drop digits.length)

def past? (c : CodePoint) : Text → Option Text
  | d :: rest => if d = c then some rest else none
  | [] => none

def zone? (t : Text) : Option (Option Int) :=
  match t.dropWhile isBlank with
  | [] => if t = [] then some none else none
  | c :: rest =>
    if c = 'Z' then (if rest = [] then some (some 0) else none)
    else if isOneOf "+-" c then do
      let (hours, rest) ← digits? 1 2 rest
      let minutes ←
        match rest with
        | [] => some 0
        | _ => do
          let (minutes, rest) ← digits? 2 2 (← past? ':' rest)
          if rest = [] then some minutes else none
      let offset : Int := 60 * hours + minutes
      return some (if c = '-' then -offset else offset)
    else none

/-- The first six digits behind the point of a second, as millionths, and what follows them all. -/
def fraction (t : Text) : Nat × Text :=
  match t with
  | c :: rest =>
    if c = '.' then
      let digits := rest.takeWhile CodePoint.isDigit
      let kept := digits.take 6
      (Text.toNat kept * Nat.pow 10 (6 - kept.length), rest.drop digits.length)
    else (0, t)
  | [] => (0, t)

def moment? (date : Date) (t : Text) : Option Moment := do
  let t ← match t with
    | c :: rest =>
      if isOneOf "Tt" c then some rest
      else if isBlank c then some (rest.dropWhile isBlank)
      else none
    | [] => none
  let (hour, t) ← digits? 1 2 t
  let (minute, t) ← digits? 2 2 (← past? ':' t)
  let (second, t) ← digits? 2 2 (← past? ':' t)
  let (microsecond, t) := fraction t
  return ⟨date, hour, minute, second, microsecond, ← zone? t⟩

/-- A date, with a time of day or without; its parts are not yet checked. -/
def timestamp? (t : Text) : Option (Date × Option Moment) := do
  let (year, t) ← digits? 4 4 t
  let (month, t) ← digits? 1 2 (← past? '-' t)
  let (day, t) ← digits? 1 2 (← past? '-' t)
  let date : Date := ⟨year, month, day⟩
  match t with
  | [] => return (date, none)
  | _ => return (date, some (← moment? date t))

def withoutFinalBreak (t : Text) : Text :=
  if t.getLast? = some CodePoint.newline then t.dropLast else t

end Yaml

end SemanticHighlight
