import SemanticHighlight.Language.Binding
import SemanticHighlight.Language.LoadFailure
import SemanticHighlight.Log

/-!
# Where grammars come from

Grammars come from packages that are imported and from libraries that the system opens; queries are
compiled for a grammar. All of this is a service of the platform that a program runs on, with a state of
its own, the process. The program keeps the libraries that it has opened, by the text of their paths,
and asks the platform for each of them once; a package is asked for anew each time.
-/

namespace SemanticHighlight

/-- Something that was asked for or loaded from outside. -/
inductive Provenance where
  | package (name : Text)
  | library (path : Text)
  deriving DecidableEq, Repr

namespace Provenance

def name : Provenance → Text
  | package name => name
  | library path => path

def package? : Provenance → Option Text
  | package name => some name
  | library _ => none

end Provenance

/-- Why a service failed: in a way that one is prepared for, or in another. -/
inductive Fault (Problem : Type) where
  | foreseen (problem : Problem)
  | escaped (kind text : Text)
  deriving DecidableEq, Repr

/-- Why the function of a library gives no grammar. -/
inductive SymbolProblem where
  | missing
  | refused (text : Text)
  deriving DecidableEq, Repr

structure Platform (Packages Process Library Grammar Query : Type) where
  /-- The grammar that a function of a package gives. -/
  importGrammar : Packages → (package function : Text) →
    StateM Process (Except (Fault PackageProblem) Grammar)
  openLibrary : FileTree → (path : Text) → StateM Process (Except (Fault Text) Library)
  /-- The grammar that a function of a library gives. -/
  grammarOf : Library → (symbol : Text) → Except (Fault SymbolProblem) Grammar
  versionText : Grammar → Text
  compile : Grammar → (source : Text) → Except (Fault QueryProblem) Query

/-- What a program finds around it, and the libraries that it keeps. -/
structure Machine (Packages Process Library : Type) where
  files : FileTree
  packages : Packages
  process : Process
  /-- The libraries that are kept, by path. -/
  libraries : List (Text × Library)
  /-- The packages asked for and the libraries opened so far. -/
  loads : List Provenance
  deriving Repr

def Fault.load {Problem : Type} (lang : Text) (wrap : Problem → LoadProblem) :
    Fault Problem → LoadError
  | foreseen problem => .failure ⟨lang, wrap problem⟩
  | escaped kind text => .escaped kind text

namespace LanguageConfig

def packageFunction (reference : Text) : Text :=
  match (reference.cut ':').2 with
  | some function => if function = [] then "language" else function
  | none => "language"

/-- The beginnings of library names that are not part of what the library exports. -/
def libraryMarks : List Text :=
  ["libtree-sitter-", "libtree_sitter_", "tree-sitter-", "tree_sitter_"]

/-- The function a grammar library exports, judging by its file name. -/
def defaultSymbol (path : Path) : Text :=
  let stem := (path.name.cut '.').1
  let plain := (libraryMarks.findSome? fun mark => Text.after? mark stem).getD stem
  let symbol : Text := plain.map fun (c : CodePoint) => if c = '-' then ('_' : CodePoint) else c
  "tree_sitter_" ++ symbol

def symbol (config : LanguageConfig) (path : Path) : Text :=
  match config.parserSymbol with
  | some symbol => if symbol = [] then defaultSymbol path else symbol
  | none => defaultSymbol path

/-- The library that an entry names, if it is a file that can be a library. -/
def library (config : LanguageConfig) (files : FileTree) : Except LoadError Path :=
  let path := Path.ofText config.parser
  if path.suffix = ".wasm" then .error (.failure ⟨config.lang, .webAssembly path⟩)
  else
    match files.isFile path with
    | .error e => .error (.unreadable e)
    | .ok false => .error (.failure ⟨config.lang, .libraryMissing path⟩)
    | .ok true => .ok path

end LanguageConfig

namespace Platform

variable {Packages Process Library Grammar Query : Type}
  (platform : Platform Packages Process Library Grammar Query)

/-- The grammar of a package, which is asked for anew. -/
def loadPackage (lang reference : Text) :
    StateM (Machine Packages Process Library) (Except LoadError Grammar) := do
  let package := (reference.cut ':').1
  let machine ← get
  let (outcome, process) := (platform.importGrammar machine.packages package
    (LanguageConfig.packageFunction reference)).run machine.process
  set { machine with process, loads := machine.loads ++ [Provenance.package package] }
  return outcome.mapError (Fault.load lang (.package reference))

/-- The library of a path, opened unless it is kept already. -/
def library (path : Path) :
    StateM (Machine Packages Process Library) (Except (Fault Text) Library) := do
  let machine ← get
  let key := path.toText
  match machine.libraries.lookup key with
  | some library => return .ok library
  | none =>
    let (outcome, process) := (platform.openLibrary machine.files key).run machine.process
    match outcome with
    | .error e =>
      set { machine with process }
      return .error e
    | .ok library =>
      set { machine with
        process
        libraries := machine.libraries ++ [(key, library)]
        loads := machine.loads ++ [Provenance.library key] }
      return .ok library

def libraryGrammar (config : LanguageConfig) (path : Path) (library : Except (Fault Text) Library) :
    Except LoadError Grammar := do
  let library ← library.mapError (Fault.load config.lang (.libraryRefused path))
  let symbol := config.symbol path
  (platform.grammarOf library symbol).mapError (Fault.load config.lang fun
    | .missing => .symbolMissing path symbol
    | .refused text => .libraryRefused path text)

def loadLibrary (config : LanguageConfig) :
    StateM (Machine Packages Process Library) (Except LoadError Grammar) := do
  match config.library (← get).files with
  | .error e => return .error e
  | .ok path => return platform.libraryGrammar config path (← platform.library path)

def versionLog (lang : Text) : Except LoadError Grammar → Log
  | .error _ => []
  | .ok grammar =>
    [⟨.debug, .engine,
      "Tree-sitter ABI version for " ++ lang ++ " is " ++ platform.versionText grammar ++ "."⟩]

def loadGrammar (config : LanguageConfig) :
    StateM (Machine Packages Process Library) (Except LoadError Grammar × Log) := do
  let outcome ←
    match config.package? with
    | some reference => platform.loadPackage config.lang reference
    | none => platform.loadLibrary config
  return (outcome, platform.versionLog config.lang outcome)

def loadQuery (files : FileTree) (lang : Text) (grammar : Grammar) (path : Text) :
    Except LoadError Query := do
  let source ← (files.readText (Path.ofText path)).mapError fun
    | .badName problem => .unreadable (.badName problem)
    | e => .failure ⟨lang, .queryUnreadable path e⟩
  (platform.compile grammar source).mapError (Fault.load lang .queryInvalid)

/-- The binding of a grammar with its queries, the injections only if there are any. -/
def bindingOf (files : FileTree) (config : LanguageConfig) (grammar : Grammar) :
    Except LoadError (Binding Grammar Query) := do
  let highlights ← platform.loadQuery files config.lang grammar config.highlights
  let injections ← config.injections.mapM (platform.loadQuery files config.lang grammar)
  return ⟨config.lang, grammar, highlights, injections, config.mappings⟩

/-- Loads a language: the grammar first, then the queries. -/
def loadLanguage (config : LanguageConfig) :
    StateM (Machine Packages Process Library) (Except LoadError (Binding Grammar Query) × Log) := do
  let (outcome, log) ← platform.loadGrammar config
  let machine ← get
  return (outcome.bind (platform.bindingOf machine.files config), log)

end Platform

end SemanticHighlight
