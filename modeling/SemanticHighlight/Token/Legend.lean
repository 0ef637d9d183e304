import SemanticHighlight.Text.Basic

/-!
# Legends

A legend is the closed vocabulary of token types and modifiers that a renderer is told once.
Afterwards a type is spoken of by its place and a modifier by the bit at its place, so no word may
occur twice.
-/

namespace SemanticHighlight

structure Legend where
  types : List Text
  modifiers : List Text
  types_nodup : types.Nodup
  modifiers_nodup : modifiers.Nodup
  deriving DecidableEq, Repr

inductive RepeatedWord where
  | type
  | modifier
  deriving DecidableEq, Repr

namespace RepeatedWord

def message : RepeatedWord → Text
  | type => "Token types must be unique"
  | modifier => "Token modifiers must be unique"

end RepeatedWord

namespace Legend

def standardTypes : List Text :=
  ["namespace", "class", "enum", "interface", "struct", "typeParameter", "type", "parameter",
    "variable", "property", "enumMember", "decorator", "event", "function", "method", "macro",
    "label", "comment", "string", "keyword", "number", "regexp", "operator"]

def standardModifiers : List Text :=
  ["declaration", "definition", "readonly", "static", "deprecated", "abstract", "async",
    "modification", "documentation", "defaultLibrary"]

/-- The legend of two vocabularies, the standard one for each that is not given. -/
def ofVocabulary? (types modifiers : Option (List Text)) : Except RepeatedWord Legend :=
  let types := types.getD standardTypes
  let modifiers := modifiers.getD standardModifiers
  if ht : types.Nodup then
    if hm : modifiers.Nodup then .ok ⟨types, modifiers, ht, hm⟩ else .error .modifier
  else .error .type

def standard : Legend :=
  ⟨standardTypes, standardModifiers, by decide +kernel, by decide +kernel⟩

instance : Inhabited Legend := ⟨standard⟩

def hasType (legend : Legend) (type : Text) : Bool := legend.types.contains type

def hasModifier (legend : Legend) (modifier : Text) : Bool := legend.modifiers.contains modifier

def typeIndex? (legend : Legend) (type : Text) : Option Nat := legend.types.idxOf? type

/-- A number with the bit of each known modifier set. -/
def modifierMask (legend : Legend) (modifiers : List Text) : Nat :=
  modifiers.foldl
    (fun mask modifier =>
      match legend.modifiers.idxOf? modifier with
      | some index => mask ||| 1 <<< index
      | none => mask) 0

def summary (legend : Legend) : Text :=
  "TokenLegend(types=" ++ Text.ofNat legend.types.length ++ ", modifiers=" ++
    Text.ofNat legend.modifiers.length ++ ")"

end Legend

end SemanticHighlight
