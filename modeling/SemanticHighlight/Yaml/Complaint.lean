import SemanticHighlight.Number.Calendar
import SemanticHighlight.Number.Numeral
import SemanticHighlight.Text.Quoted
import SemanticHighlight.Text.Utf8

/-!
# Complaints

A complaint about a document says what was being read and since where, what is wrong and where.
Places are counted from zero and told from one. Scalars can also be wrong in ways of their own,
which have no place.
-/

namespace SemanticHighlight.Yaml

structure Mark where
  line : Nat
  column : Nat
  deriving DecidableEq, Repr

inductive Activity where
  | nextLexeme
  | simpleKey
  | directive
  | alias_
  | anchor
  | tag
  | tagText
  | directiveText
  | block
  | doubleQuoted
  | quoted
  | node
  | blockNode
  | flowNode
  | blockCollection
  | blockMapping
  | flowSequence
  | flowMapping
  | singleDocument
  | firstAnchor (name : Text)
  | mapping
  | orderedMap
  | pairs
  deriving DecidableEq, Repr

namespace Activity

def words : Activity → Text
  | nextLexeme => "while scanning for the next token"
  | simpleKey => "while scanning a simple key"
  | directive => "while scanning a directive"
  | alias_ => "while scanning an alias"
  | anchor => "while scanning an anchor"
  | tag => "while scanning a tag"
  | tagText => "while parsing a tag"
  | directiveText => "while parsing a directive"
  | block => "while scanning a block scalar"
  | doubleQuoted => "while scanning a double-quoted scalar"
  | quoted => "while scanning a quoted scalar"
  | node => "while parsing a node"
  | blockNode => "while parsing a block node"
  | flowNode => "while parsing a flow node"
  | blockCollection => "while parsing a block collection"
  | blockMapping => "while parsing a block mapping"
  | flowSequence => "while parsing a flow sequence"
  | flowMapping => "while parsing a flow mapping"
  | singleDocument => "expected a single document in the stream"
  | firstAnchor name => "found duplicate anchor " ++ name.quoted ++ "; first occurrence"
  | mapping => "while constructing a mapping"
  | orderedMap => "while constructing an ordered map"
  | pairs => "while constructing pairs"

end Activity

inductive Problem where
  /-- Something else stands where one thing has to come; nothing stands at the end. -/
  | expected (what : Text) (found : Option CodePoint)
  | expectedLexeme (what found : Text)
  | gotLexeme (what found : Text)
  | expectedKind (what found : Text)
  | noLexeme (c : CodePoint)
  | noColon
  | itemsNotAllowed
  | keysNotAllowed
  | valuesNotAllowed
  | noIndentation
  | unknownEscape (found : Option CodePoint)
  | endOfStream
  | separator
  | undecodable (reason : Text)
  | secondVersion
  | incompatibleVersion
  | secondHandle (handle : Text)
  | undefinedHandle (handle : Text)
  | undefinedAlias (name : Text)
  | anotherDocument
  | secondAnchor
  | unknownTag (name : Text)
  | unhashableKey
  | severalItems (count : Nat)
  | notBase64 (reason : Text)
  deriving DecidableEq, Repr

namespace Problem

def lacksText : Problem → Bool
  | expected _ none | unknownEscape none => true
  | _ => false

/-- A character in quotes; the end of a text counts as a zero. -/
def shown (found : Option CodePoint) : Text := Text.quoted [found.getD (CodePoint.ofNat 0)]

def words : Problem → Text
  | expected what found => "expected " ++ what ++ ", but found " ++ shown found
  | expectedLexeme what found => "expected " ++ what ++ ", but found " ++ found.quoted
  | gotLexeme what found => "expected " ++ what ++ ", but got " ++ found.quoted
  | expectedKind what found => "expected " ++ what ++ ", but found " ++ found
  | noLexeme c => "found character " ++ shown (some c) ++ " that cannot start any token"
  | noColon => "could not find expected ':'"
  | itemsNotAllowed => "sequence entries are not allowed here"
  | keysNotAllowed => "mapping keys are not allowed here"
  | valuesNotAllowed => "mapping values are not allowed here"
  | noIndentation => "expected indentation indicator in the range 1-9, but found 0"
  | unknownEscape found => "found unknown escape character " ++ shown found
  | endOfStream => "found unexpected end of stream"
  | separator => "found unexpected document separator"
  | undecodable reason => reason
  | secondVersion => "found duplicate YAML directive"
  | incompatibleVersion => "found incompatible YAML document (version 1.* is required)"
  | secondHandle handle => "duplicate tag handle " ++ handle.quoted
  | undefinedHandle handle => "found undefined tag handle " ++ handle.quoted
  | undefinedAlias name => "found undefined alias " ++ name.quoted
  | anotherDocument => "but found another document"
  | secondAnchor => "second occurrence"
  | unknownTag name => "could not determine a constructor for the tag " ++ name.quoted
  | unhashableKey => "found unhashable key"
  | severalItems count => "expected a single mapping item, but found " ++ Text.ofNat count ++ " items"
  | notBase64 reason => reason

end Problem

inductive Complaint where
  /-- A character that no document may hold, by its place among all characters. -/
  | character (c : CodePoint) (index : Nat)
  /-- Something wrong at a place, while something was being read since another place. -/
  | problem (activity : Option Activity) (since : Option Mark) (problem : Problem) (place : Mark)
  deriving DecidableEq, Repr

namespace Complaint

def placeText (file : Text) (m : Mark) : Text :=
  "  in \"" ++ file ++ "\", line " ++ Text.ofNat (m.line + 1) ++ ", column " ++
    Text.ofNat (m.column + 1)

/-- The complaint on lines of its own; the place since when is told unless it is the same. -/
def message (file : Text) : Complaint → Text
  | character c index =>
    "unacceptable character #x" ++ Text.ofHex 4 c.val ++ ": special characters are not allowed\n" ++
      "  in \"" ++ file ++ "\", position " ++ Text.ofNat index
  | problem activity since found place =>
    let doing := (activity.map Activity.words).toList
    let since := ((since.filter (· ≠ place)).map (placeText file)).toList
    Text.join "\n" (doing ++ since ++ [found.words, placeText file place])

end Complaint

inductive Fault where
  | complaint (c : Complaint)
  /-- The bytes of a file are no text. -/
  | undecodable (e : Utf8Error)
  /-- An escape sequence has a number that no code point has. -/
  | noCodePoint (n : Nat)
  /-- A scalar is tagged as a number and has no digits. -/
  | noDigits
  | notAnInteger (base : Nat) (t : Text)
  /-- A number has more digits than can be read, or written if their count is not given. -/
  | tooManyDigits (count : Option Nat)
  | notAReal (t : Text)
  /-- A part of a number in base sixty counts for more than a floating point number can be. -/
  | tooGreat
  | notATruthValue (t : Text)
  | notATimestamp
  /-- A point in time is asked of something that is no scalar. -/
  | notAText
  | calendar (problem : CalendarProblem)
  /-- A scalar stands for itself. -/
  | endless
  deriving DecidableEq, Repr

namespace Fault

/-- A literal that is told up to its two hundredth character. -/
def shortened (t : Text) : Text := t.quoted.take 200

def digitsMessage (count : Option Nat) : Text :=
  let told : Text := (count.map fun n => ": value has " ++ Text.ofNat n ++ " digits").getD []
  "Exceeds the limit (" ++ Text.ofNat Numeral.maxDigits ++
    " digits) for integer string conversion" ++ told ++
    "; use sys.set_int_max_str_digits() to increase the limit"

def message (file : Text) : Fault → Text
  | complaint c => c.message file
  | undecodable e => e.message
  | noCodePoint n =>
    if n < 0x80000000 then "chr() arg not in range(0x110000)"
    else "Python int too large to convert to C int"
  | noDigits => "string index out of range"
  | notAnInteger base t =>
    "invalid literal for int() with base " ++ Text.ofNat base ++ ": " ++ shortened t
  | tooManyDigits count => digitsMessage count
  | notAReal t => "could not convert string to float: " ++ t.quoted
  | tooGreat => "int too large to convert to float"
  | notATruthValue t => t
  | notATimestamp => "'NoneType' object has no attribute 'groupdict'"
  | notAText => "expected string or bytes-like object, got 'list'"
  | calendar problem => problem.message
  | endless => "maximum recursion depth exceeded"

def plain (problem : Problem) (place : Mark) : Fault :=
  complaint (.problem none none problem place)

def while_ (activity : Activity) (since : Mark) (problem : Problem) (place : Mark) : Fault :=
  complaint (.problem (some activity) (some since) problem place)

end Fault

end SemanticHighlight.Yaml
