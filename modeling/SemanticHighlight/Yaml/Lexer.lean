import SemanticHighlight.Yaml.Lexeme
import SemanticHighlight.Yaml.Source

/-!
# From text to lexemes

A mapping in block style shows itself only at the colon behind its first key, so the lexer remembers
where a key may have begun and puts the marks in there afterwards. A key of this kind stays on one
line and is at most 1024 characters long. When the text goes wrong, the lexemes that were settled
before still count: whoever reads them may find something else wrong first.
-/

namespace SemanticHighlight.Yaml

structure Cursor where
  rest : Text
  index : Nat
  mark : Mark

namespace Cursor

/-- A byte order mark takes no column. -/
def next (c : Cursor) : Cursor :=
  match c.rest with
  | [] => c
  | x :: rest =>
    if isBreak x then ⟨rest, c.index + 1, c.mark.line + 1, 0⟩
    else
      let width := if x.val = 0xFEFF then 0 else 1
      ⟨rest, c.index + 1, c.mark.line, c.mark.column + width⟩

def skip : Nat → Cursor → Cursor
  | 0, c => c
  | n + 1, c => skip n c.next

def reach (c : Cursor) (rest : Text) : Cursor := c.skip (c.rest.length - rest.length)

end Cursor

/-- Where a key may have begun. A key that the indentation asks for is required. -/
structure KeyStart where
  /-- The number of lexemes in front of it. -/
  place : Nat
  required : Bool
  index : Nat
  mark : Mark

structure LexerState where
  cursor : Cursor
  lexemes : Array Placed := #[]
  /-- How deep flow collections are nested; a bracket too many is left to be found later. -/
  flowDepth : Int := 0
  /-- The column of the innermost block collection, and those of the outer ones. -/
  indent : Int := -1
  outer : List Int := []
  /-- Whether a key may begin here. -/
  keyAllowed : Bool := true
  /-- Where keys may have begun, by flow depth. -/
  keys : List (Int × KeyStart) := []
  /-- Why nothing can be read behind the text, if it does not end there. -/
  beyond : Option Fault := none

abbrev Lexing := StateT LexerState (Except Fault)

namespace Lexing

def mark : Lexing Mark := return (← get).cursor.mark

def fail {α : Type} (problem : Problem) : Lexing α := do throw (.plain problem (← mark))

def emit (l : Lexeme) (start : Mark) : Lexing Unit :=
  modify fun s => { s with lexemes := s.lexemes.push ⟨l, start, s.cursor.mark⟩ }

def allowKey (allowed : Bool) : Lexing Unit := modify fun s => { s with keyAllowed := allowed }

/-- Where the text comes to its end, there may be more that cannot be read. -/
def lookAhead (rest : Text) : Lexing Unit := do
  match rest, (← get).beyond with
  | [], some fault => throw fault
  | _, _ => return

def moveTo (rest : Text) : Lexing Unit := do
  modify fun s => { s with cursor := s.cursor.reach rest }
  lookAhead rest

/-- A lexeme of `width` characters that stands for itself. -/
def sign (l : Lexeme) (width : Nat) : Lexing Unit := do
  let start ← mark
  moveTo ((← get).cursor.rest.drop width)
  emit l start

def missingColon {α : Type} (key : KeyStart) : Lexing α := do
  throw (.while_ .simpleKey key.mark .noColon (← mark))

def dropKey : Lexing Unit := do
  let s ← get
  match s.keys.lookup s.flowDepth with
  | none => return
  | some key =>
    if key.required then missingColon key
    set { s with keys := s.keys.filter fun k => k.1 ≠ s.flowDepth }

def noteKey : Lexing Unit := do
  let s ← get
  if s.keyAllowed then
    dropKey
    let required := s.flowDepth = 0 && s.indent = s.cursor.mark.column
    let key : KeyStart := ⟨s.lexemes.size, required, s.cursor.index, s.cursor.mark⟩
    modify fun s => { s with keys := s.keys ++ [(s.flowDepth, key)] }

/-- Forgets the keys that would not stand on one line or are too long. -/
def forgetStaleKeys : Lexing Unit := do
  let s ← get
  let isStale (key : KeyStart) : Bool :=
    key.mark.line ≠ s.cursor.mark.line || 1024 < s.cursor.index - key.index
  match s.keys.find? fun k => isStale k.2 && k.2.required with
  | some key => missingColon key.2
  | none => set { s with keys := s.keys.filter fun k => !isStale k.2 }

/-- The collections left when indentation falls back to `column`, and how many end. -/
def unwound (column : Int) : Int → List Int → Int × List Int × Nat
  | indent, [] => (indent, [], 0)
  | indent, outer :: rest =>
    if column < indent then
      let (indent, rest, closed) := unwound column outer rest
      (indent, rest, closed + 1)
    else (indent, outer :: rest, 0)

/-- Closes the block collections that are indented more than `column`. -/
def unwind (column : Int) : Lexing Unit :=
  modify fun s =>
    if s.flowDepth ≠ 0 then s
    else
      let (indent, outer, closed) := unwound column s.indent s.outer
      let ends := Array.replicate closed ⟨.blockEnd, s.cursor.mark, s.cursor.mark⟩
      { s with indent, outer, lexemes := s.lexemes ++ ends }

def openBlock (start : Mark) (place : Nat) (l : Lexeme) : Lexing Unit :=
  modify fun s =>
    if s.indent < (start.column : Int) then
      { s with
        indent := start.column
        outer := s.indent :: s.outer
        lexemes := s.lexemes.insertIdxIfInBounds place ⟨l, start, start⟩ }
    else s

/-- In block style a key or an item may stand only where a key may begin, and opens a collection. -/
def openHere (l : Lexeme) (problem : Problem) : Lexing Unit := do
  let s ← get
  if s.flowDepth = 0 then
    if !s.keyAllowed then fail problem
    openBlock s.cursor.mark s.lexemes.size l

def closeDocument : Lexing Unit := do
  unwind (-1)
  dropKey
  allowKey false

def openFlow (l : Lexeme) : Lexing Unit := do
  noteKey
  modify fun s => { s with flowDepth := s.flowDepth + 1 }
  allowKey true
  sign l 1

def closeFlow (l : Lexeme) : Lexing Unit := do
  dropKey
  modify fun s => { s with flowDepth := s.flowDepth - 1 }
  allowKey false
  sign l 1

/-- A colon: the key in front of it, if there may be one, gets its mark now. -/
def valueSign : Lexing Unit := do
  let s ← get
  match s.keys.lookup s.flowDepth with
  | some key =>
    set { s with
      keys := s.keys.filter fun k => k.1 ≠ s.flowDepth
      lexemes := s.lexemes.insertIdxIfInBounds key.place ⟨.key, key.mark, key.mark⟩
      keyAllowed := false }
    if s.flowDepth = 0 then openBlock key.mark key.place .blockMapping
  | none =>
    openHere .blockMapping .valuesNotAllowed
    allowKey (s.flowDepth = 0)
    dropKey
  sign .value 1

def read {α : Type} (width : Nat) (reader : Reader α) : Lexing α := do
  let s ← get
  match reader (s.cursor.rest.drop width) with
  | .ok (a, rest) => moveTo rest; return a
  | .error (.problem activity problem rest) =>
    lookAhead (if problem.lacksText then [] else rest)
    throw (.while_ activity s.cursor.mark problem (s.cursor.reach rest).mark)
  | .error (.noCodePoint n) => throw (.noCodePoint n)

def lexemeOf {α : Type} (width : Nat) (reader : Reader α) (l : α → Lexeme) : Lexing Unit := do
  let start ← mark
  emit (l (← read width reader)) start

def keyed {α : Type} (width : Nat) (reader : Reader α) (l : α → Lexeme) : Lexing Unit := do
  noteKey
  allowKey false
  lexemeOf width reader l

def block (fold : Bool) : Lexing Unit := do
  allowKey true
  dropKey
  let outer := (← get).indent
  lexemeOf 1 (blockScalar fold outer) fun t => .scalar t false

def plain : Lexing Unit := do
  noteKey
  allowKey false
  let s ← get
  let (value, newLine, rest) := plainScalar (s.flowDepth ≠ 0) s.indent s.cursor.rest
  moveTo rest
  if newLine then allowKey true
  emit (.scalar value true) s.cursor.mark

/-- Whether a line ended in front of the first character from which something can be read, comments
left out, and the text from there on. -/
def afterGap (inComment newLine : Bool) : Text → Bool × Text
  | [] => (newLine, [])
  | c :: rest =>
    if isBreak c then afterGap false true rest
    else if inComment then afterGap true newLine rest
    else if c = ' ' then afterGap false newLine rest
    else if c = '#' then afterGap true newLine rest
    else (newLine, c :: rest)

def approach : Lexing Unit := do
  let s ← get
  let (newLine, rest) := afterGap false false s.cursor.rest
  moveTo rest
  if newLine && s.flowDepth = 0 then allowKey true
  forgetStaleKeys
  unwind (← mark).column

/-- Whether a plain scalar may begin with a character, given the next one. -/
def startsPlain (inFlow : Bool) (c : CodePoint) (next : Option CodePoint) : Bool :=
  !(isBlank c || isBreak c || isOneOf "-?:,[]\x7b\x7d#&*!|>'\"%@`" c) ||
    (!isGap next && (c = '-' || (!inFlow && isOneOf "?:" c)))

def lexeme (c : CodePoint) (next : Option CodePoint) : Lexing Unit := do
  let s ← get
  let inFlow := s.flowDepth ≠ 0
  let opensLine := s.cursor.mark.column = 0
  if c = '%' && opensLine then
    closeDocument
    lexemeOf 1 readDirective id
  else if opensLine && isSeparator s.cursor.rest then
    closeDocument
    sign (if c = '-' then .documentStart else .documentEnd) 3
  else if c = '[' then openFlow .flowSequence
  else if c.val = 0x7B then openFlow .flowMapping
  else if c = ']' then closeFlow .flowSequenceEnd
  else if c.val = 0x7D then closeFlow .flowMappingEnd
  else if c = ',' then
    allowKey true
    dropKey
    sign .comma 1
  else if c = '-' && isGap next then
    openHere .blockSequence .itemsNotAllowed
    allowKey true
    dropKey
    sign .item 1
  else if c = '?' && (inFlow || isGap next) then
    openHere .blockMapping .keysNotAllowed
    allowKey (!inFlow)
    dropKey
    sign .key 1
  else if c = ':' && (inFlow || isGap next) then valueSign
  else if c = '*' then keyed 1 (readAnchor .alias_) .alias_
  else if c = '&' then keyed 1 (readAnchor .anchor) .anchor
  else if c = '!' then keyed 0 readTag .tag
  else if c = '|' && !inFlow then block false
  else if c = '>' && !inFlow then block true
  else if c = Text.apostrophe then keyed 1 (quotedScalar false) fun t => .scalar t false
  else if c = Text.doubleQuote then keyed 1 (quotedScalar true) fun t => .scalar t false
  else if startsPlain inFlow c next then plain
  else throw (.complaint (.problem (some .nextLexeme) none (.noLexeme c) s.cursor.mark))

def step : Lexing Bool := do
  approach
  match (← get).cursor.rest with
  | [] =>
    closeDocument
    sign .streamEnd 0
    return true
  | c :: rest =>
    lookAhead rest
    lexeme c rest.head?
    forgetStaleKeys
    return false

end Lexing

/-- The lexemes of a text that may be relied on, and what is wrong behind them, if anything is. -/
structure Lexed where
  lexemes : List Placed
  fault : Option Fault

namespace Lexed

/-- Where a key may have begun, nothing is settled yet. -/
def settled (s : LexerState) : List Placed :=
  (s.keys.foldl (fun n k => min n k.2.place) s.lexemes.size |> s.lexemes.toList.take)

/-- Reads lexemes to the end; each takes at least one character, which `fuel` counts. -/
def run : (fuel : Nat) → LexerState → Lexed
  | 0, s => ⟨settled s, none⟩
  | fuel + 1, s =>
    match Lexing.step.run s with
    | .error f => ⟨settled s, some f⟩
    | .ok (true, s) => ⟨s.lexemes.toList, none⟩
    | .ok (false, s) => run fuel s

/-- The lexemes of a text. A byte order mark at the beginning is no part of the document. -/
def ofSource (source : Source) : Lexed :=
  let t := if source.text.head?.map (Fin.val ·) = some 0xFEFF then source.text.drop 1 else source.text
  run (t.length + 1) { cursor := ⟨t, 0, 0, 0⟩, beyond := source.beyond }

end Lexed

end SemanticHighlight.Yaml
