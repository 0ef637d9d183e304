import SemanticHighlight.Engine.Pattern
import SemanticHighlight.Engine.Platform

/-!
# A scripted platform

On this platform a grammar is a JSON description, packages are listed with the grammars that their
functions give, and a library file lists the grammars that it exports. A process goes on with what it
has once opened under a path.
-/

namespace SemanticHighlight

structure Grammar where
  /-- The version of the interface the grammar was made for. -/
  abi : Int
  /-- Whether parsing with it gives a tree. -/
  hasTree : Bool
  deriving DecidableEq, Repr

namespace Grammar

/-- A grammar from its description, or why the engine refuses it. -/
def ofJson : Json → Except (Fault Text) Grammar
  | .object members =>
    let description := Json.object members
    .ok ⟨((description.field? "abi").bind Json.int?).getD 15,
      !((description.field? "no_tree").bind Json.bool?).getD false⟩
  | .text reason => .error (.foreseen reason)
  | _ => .error (.escaped "TypeError" "not a language")

def abiText (g : Grammar) : Text := if g.abi = 0 then "None" else Text.ofInt g.abi

end Grammar

/-- Grammars by the name of the function that gives them. -/
abbrev Exports := List (Text × Json)

/-- The installed packages, and as its process the libraries opened so far. -/
abbrev Host := Machine (List (Text × Exports)) (List (Text × Exports)) Exports

namespace Host

def ofFiles (files : FileTree) (packages : List (Text × Exports)) : Host :=
  ⟨files, packages, [], [], []⟩

def readLibrary? (files : FileTree) (path : Path) : Option Exports := do
  let content ← (files.readBytes path).toOption
  let t ← (Text.decode? false content).toOption
  let library ← Json.read? t
  match library.field? "symbols" with
  | some (.object symbols) => some symbols
  | _ => none

/-- A package takes every refusal for a fault of its own. -/
def packageGrammar (packages : List (Text × Exports)) (package function : Text) :
    Except (Fault PackageProblem) Grammar :=
  if package = [] then .error (.foreseen .emptyName)
  else
    match packages.lookup package with
    | none => .error (.foreseen (.missing package))
    | some functions =>
      match functions.lookup function with
      | none => .error (.foreseen (.missingFunction package function))
      | some description =>
        (Grammar.ofJson description).mapError fun
          | .foreseen reason => .foreseen (.refused reason)
          | .escaped _ text => .foreseen (.refused text)

def openLibrary (files : FileTree) (path : Text) :
    StateM (List (Text × Exports)) (Except (Fault Text) Exports) := do
  let opened ← get
  match opened.lookup path with
  | some symbols => return .ok symbols
  | none =>
    match readLibrary? files (.ofText path) with
    | none => return .error (.foreseen "not a grammar library")
    | some symbols =>
      set ((path, symbols) :: opened)
      return .ok symbols

def exportedGrammar (symbols : Exports) (symbol : Text) : Except (Fault SymbolProblem) Grammar :=
  match symbols.lookup symbol with
  | none => .error (.foreseen .missing)
  | some description =>
    (Grammar.ofJson description).mapError fun
      | .foreseen reason => .foreseen (.refused reason)
      | .escaped kind text => .escaped kind text

def platform :
    Platform (List (Text × Exports)) (List (Text × Exports)) Exports Grammar PatternQuery where
  importGrammar packages package function := return packageGrammar packages package function
  openLibrary := openLibrary
  grammarOf := exportedGrammar
  versionText := Grammar.abiText
  compile _ source := (PatternQuery.compile source).mapError .foreseen

abbrev files (host : Host) : FileTree := Machine.files host

def defaultSymbol (path : Path) : Text := LanguageConfig.defaultSymbol path

def loadGrammar (config : LanguageConfig) : StateM Host (Except LoadError Grammar × Log) :=
  platform.loadGrammar config

def loadLanguage (config : LanguageConfig) :
    StateM Host (Except LoadError (Binding Grammar PatternQuery) × Log) :=
  platform.loadLanguage config

end Host

def patternEngine : Engine Grammar PatternQuery :=
  .ofNodes ⟨fun grammar _ => grammar.hasTree, fun query _ source => query.search source⟩

end SemanticHighlight
