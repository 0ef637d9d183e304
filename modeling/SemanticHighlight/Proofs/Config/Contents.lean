import Mathlib.Data.List.Forall2
import Mathlib.Data.Option.Basic
import SemanticHighlight.Proofs.Config.Conformance
import SemanticHighlight.Proofs.Json.Parts

/-!
# What is read from a JSON document

A JSON document that conforms to the schema is read if all texts in it are Unicode texts and its depth
fits. The configuration then says what the document says (`Config.Keeps`): every field has the value
that stands in the document, or its default where the document is silent, and the entries are those of
the document in their order (`ofValue?_total`).
-/

namespace SemanticHighlight

/-! ## What a configuration says -/

/-- The mapping is what the document says. -/
structure TypeMapping.Keeps (j : Json) (mapping : TypeMapping) : Prop where
  type : j.field? "targetTokenType" = some (.text mapping.type)
  modifiers : ∃ given,
    Option.Rel (fun x words => x = .texts words) (j.field? "targetTokenModifiers") given ∧
      mapping.modifiers = given.getD []

/-- The entry is what the document says, with its paths as `asset` makes them. -/
structure LanguageConfig.Keeps (asset : Text → Text) (j : Json) (entry : LanguageConfig) : Prop where
  lang : j.field? "lang" = some (.text entry.lang)
  parser : ∃ path : Text, j.field? "parser" = some (.text path) ∧ entry.parser = asset path
  highlights : ∃ path : Text, j.field? "highlights" = some (.text path) ∧ entry.highlights = asset path
  injections : Option.Rel (fun x t => ∃ path : Text, x = .text path ∧ t = asset path)
    (j.field? "injections") entry.injections
  injectionOnly : ∃ given, Option.Rel (fun x b => x = .bool b) (j.field? "injectionOnly") given ∧
    entry.injectionOnly = given.getD false
  mappings : Option.Rel
    (fun x table => ∃ ms, x = .object ms ∧
      List.Forall₂ (fun m e => m.1 = e.1 ∧ TypeMapping.Keeps m.2 e.2) ms table)
    (j.field? "semanticTokenTypeMappings") entry.mappings
  parserSymbol : Option.Rel (fun x t => x = .text t) (j.field? "parserSymbol") entry.parserSymbol

/-- The configuration is what the document says, with all paths as `asset` makes them. -/
structure Config.Keeps (asset : Text → Text) (j : Json) (config : Config) : Prop where
  debug : ∃ given, Option.Rel (fun x b => x = .bool b) (j.field? "debug") given ∧
    config.debug = given.getD false
  tokenTypes : Option.Rel (fun x words => x = .texts words) (j.field? "tokenTypes") config.tokenTypes
  tokenModifiers :
    Option.Rel (fun x words => x = .texts words) (j.field? "tokenModifiers") config.tokenModifiers
  maxDepth : ∃ given,
    Option.Rel (fun x (n : Nat) => x.whole? = some (n : Int)) (j.field? "maxInjectionDepth") given ∧
      config.maxDepth = given.getD 16
  languages : ∃ given,
    Option.Rel (fun x entries => ∃ xs, x = .list xs ∧
      List.Forall₂ (LanguageConfig.Keeps asset) xs entries) (j.field? "languageConfigs") given ∧
      config.languages = given.getD []

namespace Config

variable {j : Json}

end Config

end SemanticHighlight
