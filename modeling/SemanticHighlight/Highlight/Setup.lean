import SemanticHighlight.Config.Basic
import SemanticHighlight.Engine.Host
import SemanticHighlight.Highlight.Document

/-!
# Providers of a configuration

A configuration fixes the legend and the nesting depth of a provider, and the languages that its
first session starts with.
-/

namespace SemanticHighlight

def Platform.provider {Packages Process Library Grammar Query : Type}
    (platform : Platform Packages Process Library Grammar Query) (engine : Engine Grammar Query)
    (legend : Legend) (maxDepth : Nat) :
    Provider (Machine Packages Process Library) Grammar Query :=
  ⟨engine, platform.loadLanguage, legend, maxDepth⟩

abbrev HostProvider := Provider Host Grammar PatternQuery

abbrev HostSession := Session Host Grammar PatternQuery

abbrev HostBinding := Binding Grammar PatternQuery

namespace Config

def legend (config : Config) : Except RepeatedWord Legend :=
  Legend.ofVocabulary? config.tokenTypes config.tokenModifiers

/-- The provider of a configuration; there is none if its vocabulary has a word twice. -/
def provider (config : Config) : Except RepeatedWord HostProvider := do
  return Host.platform.provider patternEngine (← config.legend) config.maxDepth

def session (config : Config) (host : Host) : HostSession := .ofConfigs host config.languages

end Config

end SemanticHighlight
