import SemanticHighlight.Text.Basic

/-!
# The configuration language of files

A configuration file is one YAML document, version 1.1, with the tags of that version and no others.
Its text is read in three steps: lexemes, which know the indentation; nodes, which know the nesting;
and the values that the nodes stand for. This module holds the characters that matter.
-/

namespace SemanticHighlight.Yaml

def isOneOf (listed : Text) (c : CodePoint) : Bool := listed.contains c

def isBlank (c : CodePoint) : Bool := c.val = 0x20 || c.val = 0x9

/-- The line breaks that are left once the ends of lines are made one. -/
def isBreak (c : CodePoint) : Bool :=
  c.val = 0xA || c.val = 0x85 || c.val = 0x2028 || c.val = 0x2029

/-- What a line break contributes to a scalar: the two Unicode separators stay as they are. -/
def lineBreak (c : CodePoint) : CodePoint :=
  if c.val = 0x85 then CodePoint.newline else c

/-- A blank, a line break or the end of the text. -/
def isGap : Option CodePoint → Bool
  | none => true
  | some c => isBlank c || isBreak c

def isLineEnd : Option CodePoint → Bool
  | none => true
  | some c => isBreak c

def isSpaceOrEnd : Option CodePoint → Bool
  | none => true
  | some c => c.val = 0x20 || isBreak c

def isWordChar (c : CodePoint) : Bool :=
  c.isDigit || (0x41 ≤ c.val && c.val ≤ 0x5A) || (0x61 ≤ c.val && c.val ≤ 0x7A) ||
    isOneOf "-_" c

/-- Whether a line begins with `---` or `...` as a word of its own. -/
def isSeparator : Text → Bool
  | a :: b :: c :: rest => a = b && b = c && isOneOf "-." a && isGap rest.head?
  | _ => false

def isAllowed (c : CodePoint) : Bool :=
  c.val = 0x9 || c.val = 0xA || c.val = 0xD || (0x20 ≤ c.val && c.val ≤ 0x7E) || c.val = 0x85 ||
    (0xA0 ≤ c.val && c.val ≤ 0xD7FF) || (0xE000 ≤ c.val && c.val ≤ 0xFFFD) || 0x10000 ≤ c.val

end SemanticHighlight.Yaml
