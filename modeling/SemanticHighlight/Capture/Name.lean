import SemanticHighlight.Language.Config
import SemanticHighlight.Log
import SemanticHighlight.Text.Quoted
import SemanticHighlight.Token.Legend

/-!
# Capture names

A capture name such as `string.escape` is a base type followed by modifiers. A mapping table may put
something else in their place, for the full name or else for the base type; what the legend does not
know is then left out.
-/

namespace SemanticHighlight

/-- A capture name without a base type. -/
structure InvalidCapture where
  name : Text
  deriving DecidableEq, Repr

namespace InvalidCapture

def message (e : InvalidCapture) : Text := "Invalid capture name: " ++ e.name.quoted

end InvalidCapture

/-- A token that has no range yet. -/
structure Candidate where
  type : Text
  modifiers : List Text
  deriving DecidableEq, Repr

namespace Candidate

def ofName (name : Text) : Except InvalidCapture Candidate :=
  match name.splitOn '.' with
  | base :: modifiers => if base = [] then .error ⟨name⟩ else .ok ⟨base, modifiers⟩
  | [] => .error ⟨name⟩

def ofMapping (mapping : TypeMapping) : Candidate := ⟨mapping.type, mapping.modifiers⟩

def mappingEntry (what name : Text) (mapping : TypeMapping) : LogEntry :=
  let modifiers : Text :=
    if mapping.modifiers = [] then [] else " with modifiers: " ++ Text.join ", " mapping.modifiers
  ⟨.debug, .captures,
    "Applied type mapping for " ++ what ++ ": " ++ name ++ " -> " ++ mapping.type ++ modifiers⟩

/-- What a capture name stands for under a mapping table. -/
def ofCapture (name : Text) (table : MappingTable) : Except InvalidCapture (Candidate × Log) := do
  let candidate ← ofName name
  match table.lookup name with
  | some mapping => return (ofMapping mapping, [mappingEntry "original name" name mapping])
  | none =>
    match table.lookup candidate.type with
    | some mapping =>
      return (ofMapping mapping, [mappingEntry "base type" candidate.type mapping])
    | none => return (candidate, [])

/-- The part of a candidate that a legend knows; nothing if it does not know the type. -/
def restrict (legend : Legend) (candidate : Candidate) : Option Candidate :=
  if legend.hasType candidate.type then
    some { candidate with modifiers := candidate.modifiers.filter legend.hasModifier }
  else none

end Candidate

end SemanticHighlight
