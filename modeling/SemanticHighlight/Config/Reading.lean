import SemanticHighlight.Config.Assets
import SemanticHighlight.Config.Services

/-!
# Reading a configuration document

A document is checked against the schema, read, and the paths in it are made absolute. What goes
wrong on the way is the document's fault, except for a home directory that is not known and for
faults between which there is no choice.
-/

namespace SemanticHighlight

inductive ConfigError where
  | notFound (path : Path)
  /-- The file is not a document of the configuration language. -/
  | malformed (path : Path) (complaint : Yaml.Complaint)
  | invalid (finding : Finding)
  /-- The document conforms to the schema and still cannot be read. -/
  | unreadable
  | noRoot (path : Text)
  deriving Repr

namespace ConfigError

/-- What is said of every malformed file. -/
def malformedText (path : Path) : Text := "Invalid YAML in " ++ path.toText

def noRootWording (path : Text) : Text :=
  "Cannot resolve relative path '" ++ path ++ "': no workspace root is available"

def message : ConfigError → Text
  | notFound path => "Treelight config not found at " ++ path.toText
  | malformed path complaint => malformedText path ++ ": " ++ complaint.message path.toText
  | invalid finding =>
    let location := finding.location
    let suffix : Text := if location = [] then [] else " at '" ++ location ++ "'"
    "Invalid treelight config" ++ suffix ++ ": " ++ finding.violation.message
  | unreadable => "Invalid treelight config: model validation failed"
  | noRoot path => noRootWording path

end ConfigError

inductive ReadingError where
  | config (e : ConfigError)
  | dilemma (e : Dilemma)
  | unknownHome (e : UnknownHome)
  deriving Repr

namespace ReadingError

def ofAsset : AssetError → ReadingError
  | .noRoot path => config (.noRoot path)
  | .unknownHome e => unknownHome e

def message : ReadingError → Text
  | config e => e.message
  | dilemma e => e.message
  | unknownHome e => e.message

end ReadingError

namespace Config

def resolve (homes : Homes) (root : Option Path) (config : Config) : Except ReadingError Config := do
  let languages ←
    (config.languages.mapM (LanguageConfig.resolve homes root)).mapError ReadingError.ofAsset
  return { config with languages }

variable [Services]

/-- The configuration that a document holds, with the paths as they are written. Nothing that conforms
to the schema contains itself. -/
def draft (document : Content) : Except ReadingError Config :=
  match Services.check document with
  | .error e => .error (.dilemma e)
  | .ok (some finding) => .error (.config (.invalid finding))
  | .ok none =>
    match ofValue? document.root with
    | none => .error (.config .unreadable)
    | some config => .ok config

def read (homes : Homes) (root : Option Path) (document : Content) : Except ReadingError Config := do
  (← draft document).resolve homes root

end Config

end SemanticHighlight
