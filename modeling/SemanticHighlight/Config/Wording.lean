import SemanticHighlight.Config.Value
import SemanticHighlight.Number.Shortest
import SemanticHighlight.Text.Quoted

/-!
# How values are worded

Messages show a value the way it would be written as a literal, with texts in quotes. Where a value
is part of a place in the document it stands plain.
-/

namespace SemanticHighlight

/-- A collection that is being shown already. -/
def Brackets.literal : Brackets → Text
  | square => "[...]"
  | round => "(...)"
  | curly => "\x7b...\x7d"

namespace Value

def boolText (b : Bool) : Text := if b then "True" else "False"

def escapeByte (quote : Nat) (b : UInt8) : Text :=
  let n := b.toNat
  if n = quote ∨ n = 0x5C then "\\" ++ [CodePoint.ofNat n]
  else if n = 10 then "\\n"
  else if n = 13 then "\\r"
  else if n = 9 then "\\t"
  else if 0x20 ≤ n ∧ n < 0x7F then [CodePoint.ofNat n]
  else "\\x" ++ Text.ofHex 2 n

def bytesLiteral (b : Octets) : Text :=
  let quote := if b.contains 0x27 && !b.contains 0x22 then 0x22 else 0x27
  "b" ++ [CodePoint.ofNat quote] ++ b.flatMap (escapeByte quote) ++ [CodePoint.ofNat quote]

mutual

def literal : Value → Text
  | null => "None"
  | bool b => boolText b
  | int i => Text.ofInt i
  | real x => x.toText
  | notANumber _ => "nan"
  | text t => t.quoted
  | bytes b => bytesLiteral b
  | date d => d.literal
  | moment m => m.literal
  | list items => "[" ++ Text.join ", " (literals items) ++ "]"
  | pair a b => "(" ++ literal a ++ ", " ++ literal b ++ ")"
  | set [] => "set()"
  | set members => "\x7b" ++ Text.join ", " (literals members) ++ "\x7d"
  | table entries => "\x7b" ++ Text.join ", " (entryLiterals entries) ++ "\x7d"
  | knot brackets _ => brackets.literal

def literals : List Value → List Text
  | [] => []
  | v :: rest => literal v :: literals rest

def entryLiterals : List (Value × Value) → List Text
  | [] => []
  | (name, value) :: rest => (literal name ++ ": " ++ literal value) :: entryLiterals rest

end

/-- A value without quotes. -/
def plain : Value → Text
  | text t => t
  | date d => d.toText
  | moment m => m.toText
  | v => v.literal

def kindName : Value → Text
  | null => "NoneType"
  | bool _ => "bool"
  | int _ => "int"
  | real _ | notANumber _ => "float"
  | text _ => "str"
  | bytes _ => "bytes"
  | date _ => "datetime.date"
  | moment _ => "datetime.datetime"
  | list _ | knot .square _ => "list"
  | pair .. | knot .round _ => "tuple"
  | set _ => "set"
  | table _ | knot .curly _ => "dict"

end Value

end SemanticHighlight
