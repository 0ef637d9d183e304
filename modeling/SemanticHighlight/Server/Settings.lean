import SemanticHighlight.Config.Value

/-!
# Settings of an editor

An editor may hand over settings of its own. Only two of them concern the server: the languages to
use in place of those of the configuration file, and whether to log everything.
-/

namespace SemanticHighlight

structure ClientSettings where
  languages : Option Value
  debug : Option Value
  deriving Repr

namespace ClientSettings

def ofOptions (options : Json) : ClientSettings :=
  ⟨(options.field? "languageConfigs").map Value.ofJson, (options.field? "debug").map Value.ofJson⟩

def isEmpty (s : ClientSettings) : Bool := s.languages.isNone && s.debug.isNone

/-- The settings as a configuration document. -/
def document (s : ClientSettings) : Value :=
  let entry (name : Text) (value : Value) : Value × Value := (.text name, value)
  .table ((s.languages.map (entry "languageConfigs")).toList ++
    (s.debug.map (entry "debug")).toList)

end ClientSettings

end SemanticHighlight
