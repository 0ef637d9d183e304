import SemanticHighlight.Config.Reading
import SemanticHighlight.Files.Tree
import SemanticHighlight.Log

/-!
# Loading a configuration file

The file is the one that is asked for, else the one that the environment names, else `treelight.yml`
in the working directory. Paths in it are seen from the root of the workspace, if there is one, and
otherwise from where the file is.
-/

namespace SemanticHighlight

inductive LoadingError where
  | reading (e : ReadingError)
  | unreadable (e : ReadError)
  | fault (fault : Yaml.Fault)
  deriving Repr

namespace LoadingError

def message : LoadingError → Text
  | reading e => e.message
  | unreadable e => e.message
  | fault f => f.message []

/-- What is wrong with the configuration, if it is the configuration that is wrong. -/
def config? : LoadingError → Option ConfigError
  | reading (.config e) => some e
  | _ => none

end LoadingError

namespace Config

def usualPath : Text := "treelight.yml"

def findPath (asked environment : Option Text) : Path :=
  Path.ofText ((asked.or environment).getD usualPath)

/-- The root that paths of a configuration file are seen from. -/
def rootOf (files : FileTree) (path : Path) (root : Option Path) : Path :=
  root.getD (path.resolve ⟨.root, files.working⟩).parent

/-- A file without a document is an empty configuration. -/
def filled (document : Content) : Content :=
  if document.root.isNull then .ofValue (.table []) else document

section

variable [Services]

def readFile (files : FileTree) (path : Path) : Except LoadingError Content := do
  let bytes ← (files.readBytes path).mapError .unreadable
  match Services.readYaml bytes with
  | .ok document => return document
  | .error (.complaint c) => throw (.reading (.config (.malformed path c)))
  | .error fault => throw (.fault fault)

/-- The document of a configuration file, and how it is told. -/
def find (files : FileTree) (path : Path) : Except LoadingError (Content × Text) := do
  if !(← (files.isFile path).mapError .unreadable) then throw (.reading (.config (.notFound path)))
  let document ← readFile files path
  return (document, ← (Services.tell document).mapError .fault)

/-- A configuration from a file, and what there is to say about it. -/
def load (homes : Homes) (files : FileTree) (path : Path) (root : Option Path) :
    Except LoadingError Config × Log :=
  let looking : LogEntry :=
    ⟨.debug, .configuration, "Looking for treelight config at: " ++ path.toText⟩
  match find files path with
  | .error e => (.error e, [looking])
  | .ok (document, told) =>
    let loaded : LogEntry :=
      ⟨.debug, .configuration, "Loaded treelight config from file: " ++ told⟩
    ((read homes (some (rootOf files path root)) (filled document)).mapError .reading,
      [looking, loaded])

end

end Config

end SemanticHighlight
