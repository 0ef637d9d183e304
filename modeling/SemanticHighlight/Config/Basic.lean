import SemanticHighlight.Config.Schema
import SemanticHighlight.Language.Config

/-!
# Configurations

What a configuration document says about the highlighter: the vocabulary of the legend, how deep
injections may nest, and an entry for each language.
-/

namespace SemanticHighlight

structure Config where
  debug : Bool := false
  tokenTypes : Option (List Text) := none
  tokenModifiers : Option (List Text) := none
  maxDepth : Nat := 16
  languages : List LanguageConfig := []
  /-- A document may always inject at least one level. -/
  maxDepth_pos : 0 < maxDepth := by decide
  deriving Repr

namespace Config

def nonEmptyText : Schema := .text true

def vocabularySchema : Schema := .list nonEmptyText true

def mappingSchema : Schema :=
  .record [("targetTokenType", nonEmptyText), ("targetTokenModifiers", .list (.text false) false)]
    ["targetTokenType"]

def languageSchema : Schema :=
  .record
    [("lang", nonEmptyText), ("parser", nonEmptyText), ("parserSymbol", nonEmptyText),
      ("highlights", nonEmptyText), ("injections", nonEmptyText), ("injectionOnly", .boolean),
      ("semanticTokenTypeMappings", .table mappingSchema)]
    ["lang", "parser", "highlights"]

/-- What a configuration document has to look like. -/
def schema : Schema :=
  .record
    [("debug", .boolean), ("tokenTypes", vocabularySchema), ("tokenModifiers", vocabularySchema),
      ("maxInjectionDepth", .integer 1), ("languageConfigs", .list languageSchema false)]
    []

end Config

/-! ## Reading what conforms

A document that conforms to the schema is read, unless a text in it is no Unicode text, a name in a
mapping table is no text, or the nesting depth is a floating point number past 64 bits.
-/

/-- A text without halves of surrogate pairs. -/
def Value.wholeText? (v : Value) : Option Text :=
  v.text?.filter fun t => !t.any CodePoint.isSurrogate

namespace Config

/-- The value of a name, which is left out or has to be readable. -/
def optional (read : Value → Option α) (v : Value) (name : Text) : Option (Option α) :=
  match v.field? name with
  | none => some none
  | some x => (read x).map some

def readTexts? (v : Value) : Option (List Text) := do (← v.items?).mapM Value.wholeText?

/-- A name of a mapping table; bytes that are a text count as that text. -/
def readName? : Value → Option Text
  | .bytes b => (Text.decode? false b).toOption
  | v => v.wholeText?

def readMapping? (v : Value) : Option TypeMapping := do
  let type ← (← v.field? "targetTokenType").wholeText?
  let modifiers ← optional readTexts? v "targetTokenModifiers"
  return ⟨type, modifiers.getD []⟩

def readTable? (v : Value) : Option MappingTable := do
  (← v.entries?).foldlM (fun table (name, x) => do
    return Json.insert table (← readName? name) (← readMapping? x)) []

def readLanguage? (v : Value) : Option LanguageConfig := do
  return {
    lang := ← (← v.field? "lang").wholeText?
    parser := ← (← v.field? "parser").wholeText?
    highlights := ← (← v.field? "highlights").wholeText?
    injections := ← optional Value.wholeText? v "injections"
    injectionOnly := (← optional Value.bool? v "injectionOnly").getD false
    mappings := ← optional readTable? v "semanticTokenTypeMappings"
    parserSymbol := ← optional Value.wholeText? v "parserSymbol" }

/-- A floating point depth has to fit 64 bits, a whole number may have any size. -/
def readDepth? (v : Value) : Option Nat := do
  let depth ← v.integer?
  match v with
  | .real _ => if depth < 0x8000000000000000 then some depth.toNat else none
  | _ => some depth.toNat

def ofValue? (v : Value) : Option Config := do
  let debug := (← optional Value.bool? v "debug").getD false
  let tokenTypes ← optional readTexts? v "tokenTypes"
  let tokenModifiers ← optional readTexts? v "tokenModifiers"
  let depth := (← optional readDepth? v "maxInjectionDepth").getD 16
  let languages := (← optional (fun l => do (← l.items?).mapM readLanguage?) v "languageConfigs").getD []
  if h : 0 < depth then some ⟨debug, tokenTypes, tokenModifiers, depth, languages, h⟩ else none

end Config

end SemanticHighlight
