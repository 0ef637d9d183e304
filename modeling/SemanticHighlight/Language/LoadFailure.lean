import SemanticHighlight.Files.Tree

/-!
# Why a language cannot be loaded

A language needs a grammar and queries, and each of them can be missing or broken in its own way.
Whoever loads languages is prepared for that; a few faults lie deeper and end everything that was
under way.
-/

namespace SemanticHighlight

inductive PackageProblem where
  | emptyName
  | missing (package : Text)
  | missingFunction (package function : Text)
  | refused (text : Text)
  deriving DecidableEq, Repr

namespace PackageProblem

def message : PackageProblem → Text
  | emptyName => "Empty module name"
  | missing package => "No module named '" ++ package ++ "'"
  | missingFunction package function =>
    "module '" ++ package ++ "' has no attribute '" ++ function ++ "'"
  | refused text => text

end PackageProblem

inductive QueryProblem where
  | notAList
  | badPattern (index : Nat)
  | refused (text : Text)
  deriving DecidableEq, Repr

namespace QueryProblem

def message : QueryProblem → Text
  | notAList => "bad query"
  | badPattern index => "bad pattern " ++ Text.ofNat index
  | refused text => text

end QueryProblem

inductive LoadProblem where
  | package (reference : Text) (problem : PackageProblem)
  | libraryMissing (path : Path)
  | webAssembly (path : Path)
  | symbolMissing (path : Path) (symbol : Text)
  | libraryRefused (path : Path) (text : Text)
  | queryUnreadable (path : Text) (e : ReadError)
  | queryInvalid (problem : QueryProblem)
  deriving DecidableEq, Repr

namespace LoadProblem

def message : LoadProblem → Text
  | package reference problem =>
    "cannot load grammar package '" ++ reference ++ "': " ++ problem.message
  | libraryMissing path => "grammar library not found at '" ++ path.toText ++ "'"
  | webAssembly path =>
    "'" ++ path.toText ++ "' is a WebAssembly grammar; build it as a shared library instead"
  | symbolMissing path symbol => "'" ++ path.toText ++ "' does not export '" ++ symbol ++ "'"
  | libraryRefused path text => "cannot load '" ++ path.toText ++ "': " ++ text
  | queryUnreadable path e => "cannot read query file '" ++ path ++ "': " ++ e.message
  | queryInvalid problem => "invalid query: " ++ problem.message

end LoadProblem

/-- A language that was not loaded, and why. -/
structure LoadFailure where
  lang : Text
  problem : LoadProblem
  deriving DecidableEq, Repr

namespace LoadFailure

def wording (lang reason : Text) : Text :=
  "Failed to load language '" ++ lang ++ "': " ++ reason

def message (e : LoadFailure) : Text := wording e.lang e.problem.message

end LoadFailure

/-- Why a load comes to nothing. -/
inductive LoadError where
  /-- The language is set up wrongly. -/
  | failure (e : LoadFailure)
  /-- Something outside failed in a way that nobody is prepared for. -/
  | escaped (kind text : Text)
  /-- The system has no use for a file name. -/
  | unreadable (e : ReadError)
  deriving DecidableEq, Repr

namespace LoadError

def message : LoadError → Text
  | failure e => e.message
  | escaped _ text => text
  | unreadable e => e.message

/-- What is wrong with a language, if that is why it was not loaded. -/
def failure? : LoadError → Option LoadFailure
  | failure e => some e
  | _ => none

end LoadError

end SemanticHighlight
