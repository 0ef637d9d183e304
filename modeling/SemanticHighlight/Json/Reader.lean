import SemanticHighlight.Json.Basic

/-!
# Reading JSON

The reader takes standard JSON and, beside it, `NaN`, `Infinity` and `-Infinity`. A lone surrogate
may be written as an escape; two escapes that make a pair are one code point.
-/

namespace SemanticHighlight.Json

def isBlank (c : CodePoint) : Bool :=
  c.val == 0x20 || c.val == 0x9 || c.val == 0xA || c.val == 0xD

def skipBlank (t : Text) : Text := t.dropWhile isBlank

def hex4? : Text → Option (Nat × Text)
  | a :: b :: c :: d :: rest => do
    let a ← a.hexValue?
    let b ← b.hexValue?
    let c ← c.hexValue?
    let d ← d.hexValue?
    return (((a * 16 + b) * 16 + c) * 16 + d, rest)
  | _ => none

/-- The second half of a surrogate pair, if an escape for one follows. -/
def lowHalf? (t : Text) : Option (Nat × Text) := do
  let rest ← Text.after? "\\u" t
  let (low, rest) ← hex4? rest
  if 0xDC00 ≤ low ∧ low < 0xE000 then some (low, rest) else none

def escape? : Text → Option (CodePoint × Text)
  | [] => none
  | c :: rest =>
    match Char.ofNat c.val with
    | '"' => some ('"', rest)
    | '\\' => some ('\\', rest)
    | '/' => some ('/', rest)
    | 'b' => some (.ofNat 0x8, rest)
    | 'f' => some (.ofNat 0xC, rest)
    | 'n' => some (.ofNat 0xA, rest)
    | 'r' => some (.ofNat 0xD, rest)
    | 't' => some (.ofNat 0x9, rest)
    | 'u' => do
      let (high, rest) ← hex4? rest
      if 0xD800 ≤ high ∧ high < 0xDC00 then
        match lowHalf? rest with
        | some (low, rest) =>
          some (.ofNat (0x10000 + (high - 0xD800) * 0x400 + (low - 0xDC00)), rest)
        | none => some (.ofNat high, rest)
      else some (.ofNat high, rest)
    | _ => none

/-- The rest of a string after its opening quote, and what follows it. -/
def string? : (fuel : Nat) → Text → Option (Text × Text)
  | 0, _ => none
  | _ + 1, [] => none
  | fuel + 1, c :: rest =>
    if c = '"' then some ([], rest)
    else if c = '\\' then do
      let (c, rest) ← escape? rest
      let (t, rest) ← string? fuel rest
      return (c :: t, rest)
    else if c.val < 0x20 then none
    else do
      let (t, rest) ← string? fuel rest
      return (c :: t, rest)

def digits (t : Text) : Text × Text := (t.takeWhile CodePoint.isDigit, t.dropWhile CodePoint.isDigit)

/-- Digits after a point, if there is one with digits behind it. -/
def fraction (t : Text) : Text × Text :=
  match t with
  | [] => ([], t)
  | c :: rest =>
    let (ds, rest) := digits rest
    if c = '.' ∧ ds ≠ [] then (ds, rest) else ([], t)

/-- A power of ten, if there is one that is complete. -/
def power (t : Text) : Option Int × Text :=
  match t with
  | [] => (none, t)
  | c :: rest =>
    if c = 'e' ∨ c = 'E' then
      let (negative, rest) :=
        match rest with
        | [] => (false, rest)
        | s :: after =>
          if s = '-' then (true, after) else if s = '+' then (false, after) else (false, rest)
      let (ds, rest) := digits rest
      if ds = [] then (none, t)
      else
        let n : Int := Text.toNat ds
        (some (if negative then -n else n), rest)
    else (none, t)

def number? (negative : Bool) (t : Text) : Option (Json × Text) :=
  let (whole, rest) :=
    match t with
    | [] => digits t
    | c :: rest => if c = '0' then ([c], rest) else digits t
  if whole = [] then none
  else
    let (part, rest) := fraction rest
    let (exponent, rest) := power rest
    if part = [] ∧ exponent = none then
      let n : Int := Text.toNat whole
      some (.int (if negative then -n else n), rest)
    else
      some (.real (Binary64.ofDecimal negative (Text.toNat (whole ++ part))
        (exponent.getD 0 - part.length)), rest)

/-- The words that stand for values, with the rest of the text after one of them. -/
def word? (t : Text) : Option (Json × Text) :=
  let words : List (Text × Json) :=
    [("null", .null), ("true", .bool true), ("false", .bool false), ("NaN", .real .nan),
      ("Infinity", .real (.infinite false)), ("-Infinity", .real (.infinite true))]
  words.findSome? fun (word, value) => (Text.after? word t).map fun rest => (value, rest)

mutual

/-- A value and what follows it; `fuel` bounds the number of steps. -/
def value? : (fuel : Nat) → Text → Option (Json × Text)
  | 0, _ => none
  | _ + 1, [] => none
  | fuel + 1, c :: rest =>
    if c = '"' then do
      let (t, rest) ← string? fuel rest
      return (.text t, rest)
    else if c = '[' then do
      match skipBlank rest with
      | [] => none
      | d :: after =>
        if d = ']' then some (.list [], after)
        else
          let (xs, rest) ← items? fuel (d :: after)
          return (.list xs, rest)
    else if c = '\x7b' then do
      match skipBlank rest with
      | [] => none
      | d :: after =>
        if d = '\x7d' then some (.object [], after)
        else
          let (ms, rest) ← members? fuel [] (d :: after)
          return (.object ms, rest)
    else
      match word? (c :: rest) with
      | some found => some found
      | none => if c = '-' then number? true rest else number? false (c :: rest)

def items? : (fuel : Nat) → Text → Option (List Json × Text)
  | 0, _ => none
  | fuel + 1, t => do
    let (x, rest) ← value? fuel (skipBlank t)
    match skipBlank rest with
    | [] => none
    | c :: rest =>
      if c = ']' then some ([x], rest)
      else if c = ',' then
        let (xs, rest) ← items? fuel rest
        return (x :: xs, rest)
      else none

def members? : (fuel : Nat) → List (Text × Json) → Text → Option (List (Text × Json) × Text)
  | 0, _, _ => none
  | fuel + 1, known, t => do
    match skipBlank t with
    | [] => none
    | quote :: rest =>
      if quote ≠ '"' then none
      else
        let (name, rest) ← string? fuel rest
        match skipBlank rest with
        | [] => none
        | colon :: rest =>
          if colon ≠ ':' then none
          else
            let (x, rest) ← value? fuel (skipBlank rest)
            let known := insert known name x
            match skipBlank rest with
            | [] => none
            | c :: rest =>
              if c = '\x7d' then some (known, rest)
              else if c = ',' then members? fuel known rest
              else none

end

/-- The value that a text holds, with nothing but blanks around it. -/
def read? (t : Text) : Option Json := do
  let (j, rest) ← value? (2 * t.length + 2) (skipBlank t)
  if skipBlank rest = [] then some j else none

end SemanticHighlight.Json
