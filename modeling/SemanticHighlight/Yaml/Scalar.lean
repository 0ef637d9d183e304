import SemanticHighlight.Yaml.Basic
import SemanticHighlight.Yaml.Complaint

/-!
# Scalars

The five styles of a scalar: plain, in single or double quotes, and the literal and folded blocks.
Each reader returns what the scalar says and what follows it. Across lines a single break becomes a
space, and of several the first is dropped.
-/

namespace SemanticHighlight.Yaml

/-- Why a reader stops. A problem is found in front of the rest of the text. -/
inductive Halt where
  | problem (activity : Activity) (problem : Problem) (rest : Text)
  | noCodePoint (n : Nat)
  deriving Repr

/-- A line break and the breaks of the empty lines after it, as part of a flowing text. -/
def folded (first : CodePoint) (breaks : Text) : Text :=
  if first ≠ CodePoint.newline then first :: breaks else if breaks = [] then " " else breaks

/-! ## Quotes -/

def escapes : List (CodePoint × Nat) :=
  [('0', 0), ('a', 7), ('b', 8), ('t', 9), ('\t', 9), ('n', 10), ('v', 11), ('f', 12), ('r', 13),
    ('e', 0x1B), (' ', 0x20), (Text.doubleQuote, 0x22), ('\\', 0x5C), ('/', 0x2F), ('N', 0x85),
    ('_', 0xA0), ('L', 0x2028), ('P', 0x2029)]

def numericEscapes : List (CodePoint × Nat) := [('x', 2), ('u', 4), ('U', 8)]

def hexNumber? (digits : Text) : Option Nat :=
  (digits.mapM CodePoint.hexValue?).map fun ds => ds.foldl (fun n d => 16 * n + d) 0

inductive QuoteMode where
  /-- On a line, after blanks that count only if the line goes on. -/
  | onLine (blanks : Text)
  /-- After a line break, which counts unless it was escaped, and the breaks of empty lines. -/
  | afterBreak (first : Option CodePoint) (breaks : Text) (atStart : Bool)

namespace QuoteMode

def owed : QuoteMode → Text
  | onLine blanks => blanks
  | afterBreak (some first) breaks _ => folded first breaks
  | afterBreak none breaks _ => breaks

def isAtStart : QuoteMode → Bool
  | afterBreak _ _ true => true
  | _ => false

def blank (c : CodePoint) : QuoteMode → QuoteMode
  | onLine blanks => onLine (blanks ++ [c])
  | afterBreak first breaks _ => afterBreak first breaks false

def break_ (c : CodePoint) : QuoteMode → QuoteMode
  | onLine _ => afterBreak (some (lineBreak c)) [] true
  | afterBreak first breaks _ => afterBreak first (breaks ++ [lineBreak c]) true

end QuoteMode

def codePoint? (n : Nat) : Except Halt CodePoint :=
  if h : n < 0x110000 then .ok ⟨n, h⟩ else .error (.noCodePoint n)

def hexEscape (width : Nat) (t : Text) : Except Halt (CodePoint × Text) := do
  let digits := t.takeWhile fun c => c.hexValue?.isSome
  if digits.length < width then
    let what : Text := "escape sequence of " ++ Text.ofNat width ++ " hexadecimal numbers"
    throw (.problem .doubleQuoted (.expected what (t.drop digits.length).head?) t)
  return (← codePoint? ((hexNumber? (t.take width)).getD 0), t.drop width)

def quotedRest (double : Bool) : (fuel : Nat) → QuoteMode → Text → Except Halt (Text × Text)
  | 0, _, t => .error (.problem .quoted .endOfStream t)
  | fuel + 1, mode, t =>
    let say (said rest : Text) : Except Halt (Text × Text) := do
      let (value, rest) ← quotedRest double fuel (.onLine []) rest
      return (mode.owed ++ said ++ value, rest)
    if mode.isAtStart && isSeparator t then .error (.problem .quoted .separator t)
    else
      match t with
      | [] => .error (.problem .quoted .endOfStream [])
      | c :: rest =>
        if isBlank c then quotedRest double fuel (mode.blank c) rest
        else if isBreak c then quotedRest double fuel (mode.break_ c) rest
        else if !double && c = Text.apostrophe then
          if rest.head? = some Text.apostrophe then say [c] (rest.drop 1) else .ok (mode.owed, rest)
        else if double && c = Text.doubleQuote then .ok (mode.owed, rest)
        else if double && c = '\\' then
          match rest with
          | [] => .error (.problem .doubleQuoted (.unknownEscape none) [])
          | e :: after =>
            if isBreak e then do
              let (value, rest) ← quotedRest double fuel (.afterBreak none [] true) after
              return (mode.owed ++ value, rest)
            else
              match escapes.lookup e, numericEscapes.lookup e with
              | some n, _ => say [.ofNat n] after
              | none, some width => do
                let (c, rest) ← hexEscape width after
                say [c] rest
              | none, none => .error (.problem .doubleQuoted (.unknownEscape (some e)) rest)
        else say [c] rest

def quotedScalar (double : Bool) (t : Text) : Except Halt (Text × Text) :=
  quotedRest double (t.length + 1) (.onLine []) t

/-! ## Blocks -/

inductive Chomping where
  | strip
  | clip
  | keep
  deriving DecidableEq, Repr

/-- The breaks of empty lines, with at most `limit` spaces taken from each line; also the column
reached. -/
def blockBreaks (limit column : Nat) : Text → Text × Nat × Text
  | [] => ([], column, [])
  | c :: rest =>
    if c = ' ' && column < limit then blockBreaks limit (column + 1) rest
    else if isBreak c then
      let (breaks, column, rest) := blockBreaks limit 0 rest
      (lineBreak c :: breaks, column, rest)
    else ([], column, c :: rest)

/-- The widest indentation of the lines up to the first that is not empty. -/
def blockIndentation (column widest : Nat) : Text → Nat
  | [] => widest
  | c :: rest =>
    if c = ' ' then blockIndentation (column + 1) (max widest (column + 1)) rest
    else if isBreak c then blockIndentation 0 widest rest
    else widest

/-- The lines of a block: what they say, the last break, the breaks after it and the rest. -/
def blockLines (fold : Bool) (indent : Nat) :
    (fuel : Nat) → (breaks : Text) → (column : Nat) → Text → Text × Text × Text × Text
  | 0, breaks, _, t => ([], [], breaks, t)
  | fuel + 1, breaks, column, t =>
    if column = indent ∧ t ≠ [] then
      let line := t.takeWhile fun c => !isBreak c
      let ending := ((t.drop line.length).take 1).map lineBreak
      let (more, column, rest) := blockBreaks indent 0 (t.drop (line.length + 1))
      if column = indent ∧ rest ≠ [] then
        let flows := !isGap t.head? && !(rest.head?.map isBlank).getD false
        let joint : Text :=
          if fold && flows && ending = [CodePoint.newline] then (if more = [] then " " else [])
          else ending
        let (value, last, trailing, rest) := blockLines fold indent fuel more column rest
        (breaks ++ line ++ joint ++ value, last, trailing, rest)
      else (breaks ++ line, ending, more, rest)
    else ([], [], breaks, t)

/-- The marks behind `|` or `>`: chomping and indentation in either order. -/
def blockMarks (t : Text) : Except Halt (Chomping × Option Nat × Text) :=
  let chomping? (t : Text) : Option Chomping × Text :=
    match t with
    | c :: rest => if c = '+' then (some .keep, rest) else if c = '-' then (some .strip, rest) else (none, t)
    | [] => (none, t)
  let indent? (t : Text) : Except Halt (Option Nat × Text) :=
    match t with
    | c :: rest =>
      if c = '0' then .error (.problem .block .noIndentation t)
      else if c.isDigit then .ok (some c.digitValue, rest)
      else .ok (none, t)
    | [] => .ok (none, t)
  do
    let (first, rest) := chomping? t
    let (indent, rest) ← indent? rest
    let (second, rest) := if first.isNone && indent.isSome then chomping? rest else (none, rest)
    return ((first.or second).getD .clip, indent, rest)

def ignoredLine (activity : Activity) (t : Text) : Except Halt Text :=
  let t := t.dropWhile (· == (' ' : CodePoint))
  let t := if t.head? = some ('#' : CodePoint) then t.dropWhile fun c => !isBreak c else t
  if isLineEnd t.head? then .ok (t.drop 1)
  else .error (.problem activity (.expected "a comment or a line break" t.head?) t)

/-- A block, read from behind `|` or `>`, inside a collection indented by `outer`. -/
def blockScalar (fold : Bool) (outer : Int) (t : Text) : Except Halt (Text × Text) := do
  let (chomping, given, t) ← blockMarks t
  if !isSpaceOrEnd t.head? then
    throw (.problem .block (.expected "chomping or indentation indicators" t.head?) t)
  let t ← ignoredLine .block t
  let least := max 1 (outer + 1).toNat
  let indent :=
    match given with
    | some n => least + n - 1
    | none => max least (blockIndentation 0 0 t)
  let (breaks, column, rest) := blockBreaks indent 0 t
  let (value, last, trailing, rest) := blockLines fold indent (rest.length + 1) breaks column rest
  let tail : Text :=
    match chomping with
    | .strip => []
    | .clip => last
    | .keep => last ++ trailing
  return (value ++ tail, rest)

/-! ## Plain scalars -/

def endsPlain (inFlow : Bool) (c : CodePoint) (next : Option CodePoint) : Bool :=
  isBlank c || isBreak c || (inFlow && isOneOf ",?[]\x7b\x7d" c) ||
    (c = ':' && (isGap next || (inFlow && (next.map (isOneOf ",[]\x7b\x7d")).getD false)))

/-- The characters of a plain scalar up to the next gap or its end. -/
def plainChunk (inFlow : Bool) : Text → Text × Text
  | [] => ([], [])
  | c :: rest =>
    if endsPlain inFlow c rest.head? then ([], c :: rest)
    else let (chunk, rest) := plainChunk inFlow rest; (c :: chunk, rest)

/-- The breaks of empty lines and the column reached, or nothing in front of a separator. -/
def plainBreaks (column : Nat) : Text → Option Text × Nat × Text
  | [] => (some [], column, [])
  | c :: rest =>
    if c = ' ' then plainBreaks (column + 1) rest
    else if isBreak c then
      if isSeparator rest then (none, 0, rest)
      else
        let (breaks, column, rest) := plainBreaks 0 rest
        (breaks.map (lineBreak c :: ·), column, rest)
    else (some [], column, c :: rest)

structure PlainGap where
  text : Text
  /-- The column reached, if there was a line break. -/
  column : Option Nat
  rest : Text

def plainGap (t : Text) : PlainGap :=
  let spaces := t.takeWhile (· == (' ' : CodePoint))
  match t.drop spaces.length with
  | [] => ⟨spaces, none, []⟩
  | c :: rest =>
    if isBreak c then
      if isSeparator rest then ⟨[], some 0, rest⟩
      else
        let (breaks, column, rest) := plainBreaks 0 rest
        ⟨(breaks.map (folded (lineBreak c))).getD [], some column, rest⟩
    else ⟨spaces, none, c :: rest⟩

/-- A plain scalar from `t` on, inside a collection indented by `outer`. The flag says whether the
reader is at the beginning of a line, blanks aside. -/
def plainRest (inFlow : Bool) (outer : Int) :
    (fuel : Nat) → (gap : Text) → (newLine : Bool) → Text → Text × Bool × Text
  | 0, _, newLine, t => ([], newLine, t)
  | fuel + 1, gap, newLine, t =>
    let (chunk, rest) := plainChunk inFlow t
    if chunk = [] then ([], newLine, t)
    else
      let next := plainGap rest
      let newLine := next.column.isSome
      let outdented := !inFlow && (next.column.map fun c => decide ((c : Int) ≤ outer)).getD false
      if next.text = [] ∨ next.rest.head? = some ('#' : CodePoint) ∨ outdented then
        (gap ++ chunk, newLine, next.rest)
      else
        let (value, newLine, rest) := plainRest inFlow outer fuel next.text newLine next.rest
        (gap ++ chunk ++ value, newLine, rest)

def plainScalar (inFlow : Bool) (outer : Int) (t : Text) : Text × Bool × Text :=
  plainRest inFlow outer (t.length + 1) [] false t

end SemanticHighlight.Yaml
