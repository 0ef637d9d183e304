import SemanticHighlight.Text.Utf8
import SemanticHighlight.Yaml.Scalar

/-!
# Lexemes

Lexemes are the smallest parts of a document, together with the brackets that indentation stands
for. Here are their kinds, and the readers of names, tags and directives.
-/

namespace SemanticHighlight.Yaml

/-- A tag as written: a handle, unless the tag is verbatim, and a suffix. -/
structure TagName where
  handle : Option Text
  suffix : Text
  deriving DecidableEq, Repr

inductive Lexeme where
  | version (major : Nat)
  | tagHandle (handle expansion : Text)
  | otherDirective
  | documentStart
  | documentEnd
  | blockSequence
  | blockMapping
  | blockEnd
  | flowSequence
  | flowSequenceEnd
  | flowMapping
  | flowMappingEnd
  | item
  | comma
  | key
  | value
  | alias_ (name : Text)
  | anchor (name : Text)
  | tag (name : TagName)
  | scalar (t : Text) (plain : Bool)
  | streamEnd
  deriving DecidableEq, Repr

namespace Lexeme

def name : Lexeme → Text
  | version _ | tagHandle .. | otherDirective => "<directive>"
  | documentStart => "<document start>"
  | documentEnd => "<document end>"
  | blockSequence => "<block sequence start>"
  | blockMapping => "<block mapping start>"
  | blockEnd => "<block end>"
  | flowSequence => "["
  | flowSequenceEnd => "]"
  | flowMapping => "\x7b"
  | flowMappingEnd => "\x7d"
  | item => "-"
  | comma => ","
  | key => "?"
  | value => ":"
  | alias_ _ => "<alias>"
  | anchor _ => "<anchor>"
  | tag _ => "<tag>"
  | scalar .. => "<scalar>"
  | streamEnd => "<stream end>"

def isDirective : Lexeme → Bool
  | version _ | tagHandle .. | otherDirective => true
  | _ => false

end Lexeme

structure Placed where
  lexeme : Lexeme
  start : Mark
  stop : Mark
  deriving DecidableEq, Repr

abbrev Reader (α : Type) := Text → Except Halt (α × Text)

def Halt.expected {α : Type} (activity : Activity) (what : Text) (t : Text) : Except Halt α :=
  .error (.problem activity (.expected what t.head?) t)

def readWord (activity : Activity) : Reader Text := fun t =>
  let word := t.takeWhile isWordChar
  if word = [] then Halt.expected activity "alphabetic or numeric character" t
  else .ok (word, t.drop word.length)

def readAnchor (activity : Activity) : Reader Text := fun t => do
  let (name, rest) ← readWord activity t
  if isGap rest.head? || (rest.head?.map (isOneOf "?:,]\x7d%@`")).getD false then
    return (name, rest)
  Halt.expected activity "alphabetic or numeric character" rest

def tagEscapes (activity : Activity) : Text → Except Halt (Octets × Text)
  | p :: rest =>
    if p = '%' then
      match rest with
      | a :: b :: rest => do
        match a.hexValue?, b.hexValue? with
        | some high, some low =>
          let (bytes, rest) ← tagEscapes activity rest
          return (UInt8.ofNat (16 * high + low) :: bytes, rest)
        | some _, none => .error (.problem activity (wrong (some b)) (a :: b :: rest))
        | none, _ => .error (.problem activity (wrong (some a)) (a :: b :: rest))
      | [a] => .error (.problem activity (wrong (if a.hexValue?.isSome then none else some a)) [a])
      | [] => .error (.problem activity (wrong none) [])
    else .ok ([], p :: rest)
  | [] => .ok ([], [])
where
  wrong (found : Option CodePoint) : Problem :=
    .expected "URI escape sequence of 2 hexadecimal numbers" found

def isTagChar (c : CodePoint) : Bool := isWordChar c || isOneOf ";/?:@&=+$,.!~*'()[]%" c

/-- The characters of a tag; escaped bytes have to make up characters. -/
def readTagText (activity : Activity) : (fuel : Nat) → Reader Text
  | 0, t => .ok ([], t)
  | fuel + 1, t => do
    let plain := t.takeWhile fun c => isTagChar c && c ≠ '%'
    let rest := t.drop plain.length
    if rest.head? = some ('%' : CodePoint) then
      let (bytes, after) ← tagEscapes activity rest
      let escaped ← (Text.decode? false bytes).mapError fun e =>
        Halt.problem activity (.undecodable e.message) rest
      let (more, after) ← readTagText activity fuel after
      return (plain ++ escaped ++ more, after)
    return (plain, rest)

def readTagSuffix (activity textActivity : Activity) : Reader Text := fun t =>
  if (t.head?.map isTagChar).getD false then readTagText activity (t.length + 1) t
  else Halt.expected textActivity "URI" t

/-- A tag handle: one exclamation mark, or a word between two. -/
def readHandle (activity : Activity) : Reader Text := fun t =>
  match t with
  | c :: rest =>
    if c ≠ '!' then Halt.expected activity "'!'" t
    else if rest.head? = some (' ' : CodePoint) then .ok ([c], rest)
    else
      let word := rest.takeWhile isWordChar
      let rest := rest.drop word.length
      if rest.head? = some ('!' : CodePoint) then .ok (c :: word ++ "!", rest.drop 1)
      else Halt.expected activity "'!'" rest
  | [] => Halt.expected activity "'!'" t

def readTag : Reader TagName := fun t => do
  let body := t.drop 1
  let suffix := readTagSuffix .tag .tagText
  let (name, rest) ←
    if body.head? = some ('<' : CodePoint) then do
      let (suffix, rest) ← suffix (body.drop 1)
      if rest.head? ≠ some ('>' : CodePoint) then Halt.expected .tagText "'>'" rest
      pure ((⟨none, suffix⟩ : TagName), rest.drop 1)
    else if isGap body.head? then pure ((⟨none, "!"⟩ : TagName), body)
    else do
      let word := body.takeWhile fun c => !isSpaceOrEnd (some c)
      if word.contains ('!' : CodePoint) then
        let (handle, rest) ← readHandle .tag t
        let (suffix, rest) ← suffix rest
        pure ((⟨some handle, suffix⟩ : TagName), rest)
      else
        let (suffix, rest) ← suffix body
        pure ((⟨some "!", suffix⟩ : TagName), rest)
  if isSpaceOrEnd rest.head? then return (name, rest)
  Halt.expected .tag "' '" rest

def skipSpaces (t : Text) : Text := t.dropWhile (· == (' ' : CodePoint))

def readNumber : Reader Nat := fun t =>
  let digits := t.takeWhile CodePoint.isDigit
  if digits = [] then Halt.expected .directive "a digit" t
  else .ok (Text.toNat digits, t.drop digits.length)

/-- A directive, read from behind its percent sign, with the rest of its line. -/
def readDirective : Reader Lexeme := fun t => do
  let (name, rest) ← readWord .directive t
  if !isSpaceOrEnd rest.head? then
    Halt.expected .directive "alphabetic or numeric character" rest
  let (directive, rest) ←
    if name = "YAML" then do
      let (major, rest) ← readNumber (skipSpaces rest)
      if rest.head? ≠ some ('.' : CodePoint) then Halt.expected .directive "a digit or '.'" rest
      let (_, rest) ← readNumber (rest.drop 1)
      if !isSpaceOrEnd rest.head? then Halt.expected .directive "a digit or ' '" rest
      pure (Lexeme.version major, rest)
    else if name = "TAG" then do
      let (handle, rest) ← readHandle .directive (skipSpaces rest)
      if rest.head? ≠ some (' ' : CodePoint) then Halt.expected .directive "' '" rest
      let (expansion, rest) ← readTagSuffix .directive .directiveText (skipSpaces rest)
      if !isSpaceOrEnd rest.head? then Halt.expected .directive "' '" rest
      pure (Lexeme.tagHandle handle expansion, rest)
    else pure (Lexeme.otherDirective, rest.dropWhile fun c => !isBreak c)
  return (directive, ← ignoredLine .directive rest)

end SemanticHighlight.Yaml
