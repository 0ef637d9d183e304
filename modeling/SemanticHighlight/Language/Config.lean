import SemanticHighlight.Files.Path

/-!
# Language entries

What a configuration says about one language: where its grammar and its queries are, and how its
capture names are to be read.
-/

namespace SemanticHighlight

/-- What a capture is to become instead of what its name says. -/
structure TypeMapping where
  type : Text
  modifiers : List Text
  deriving DecidableEq, Repr

/-- Mappings by full capture name or by base type. -/
abbrev MappingTable := List (Text × TypeMapping)

structure LanguageConfig where
  lang : Text
  /-- A grammar library, or a grammar package behind `module:`. -/
  parser : Text
  highlights : Text
  injections : Option Text
  /-- Reached through injections only, never for a whole document. -/
  injectionOnly : Bool
  mappings : Option MappingTable
  /-- What the grammar library exports, if its name does not tell. -/
  parserSymbol : Option Text
  deriving DecidableEq, Repr

namespace LanguageConfig

def packageMark : Text := "module:"

def package? (config : LanguageConfig) : Option Text := Text.after? packageMark config.parser

end LanguageConfig

/-- The entry that counts for a language: the first one. -/
def findConfig? (configs : List LanguageConfig) (lang : Text) : Option LanguageConfig :=
  configs.find? fun config => config.lang = lang

/-- The languages that are offered for whole documents. -/
def documentLanguages (configs : List LanguageConfig) : List Text :=
  (configs.filter fun config => !config.injectionOnly).map LanguageConfig.lang

end SemanticHighlight
