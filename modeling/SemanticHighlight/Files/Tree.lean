import SemanticHighlight.Files.Path
import SemanticHighlight.Text.Lines
import SemanticHighlight.Text.Quoted
import SemanticHighlight.Text.Utf8

/-!
# File trees

A file tree holds the content of every file by its place below the root, the directories there are,
the working directory and what is closed to the program: a file that may not be read, or a directory
that may not be entered. Looking something up walks down part by part, so that `..` needs the directory
before it. A part that is longer than any name can be ends the walk where it is reached.
-/

namespace SemanticHighlight

structure FileTree where
  files : List (List Text × Octets)
  directories : List (List Text)
  working : List Text
  closed : List (List Text)
  deriving Repr

/-- What stands at the end of a path. -/
inductive FileEntry where
  | file (content : Octets)
  | closedFile
  | directory
  | missing
  | throughFile
  | nameTooLong
  /-- A directory on the way may not be entered. -/
  | forbidden
  deriving DecidableEq, Repr

def FileEntry.isFile : FileEntry → Bool
  | .file _ | .closedFile => true
  | _ => false

inductive ReadError where
  | missing (path : Path)
  | directory (path : Path)
  | throughFile (path : Path)
  | nameTooLong (path : Path)
  | forbidden (path : Path)
  | badName (problem : NameProblem)
  | undecodable (e : Utf8Error)
  deriving DecidableEq, Repr

namespace ReadError

def message : ReadError → Text
  | missing path => "[Errno 2] No such file or directory: " ++ path.toText.quoted
  | directory path => "[Errno 21] Is a directory: " ++ path.toText.quoted
  | throughFile path => "[Errno 20] Not a directory: " ++ path.toText.quoted
  | nameTooLong path => "[Errno 36] File name too long: " ++ path.toText.quoted
  | forbidden path => "[Errno 13] Permission denied: " ++ path.toText.quoted
  | badName problem => problem.message
  | undecodable e => e.message

end ReadError

namespace FileTree

/-- The root and every directory on the way to a place, the place included. -/
def ancestry (place : List Text) : List (List Text) :=
  (List.range (place.length + 1)).map fun n => place.take n

/-- A tree with nothing but the directories down to the working directory. -/
def empty (working : List Text) : FileTree := ⟨[], ancestry working, working, []⟩

def content? (tree : FileTree) (place : List Text) : Option Octets := tree.files.lookup place

def hasDirectory (tree : FileTree) (place : List Text) : Bool :=
  place = [] || tree.directories.contains place

def isClosed (tree : FileTree) (place : List Text) : Bool := tree.closed.contains place

def insertDirectory (tree : FileTree) (place : List Text) : FileTree :=
  { tree with
    directories := tree.directories ++
      (ancestry place).filter fun d => !tree.directories.contains d }

def insert (tree : FileTree) (place : List Text) (content : Octets) : FileTree :=
  { tree.insertDirectory place.dropLast with
    files := (place, content) :: tree.files.filter fun f => f.1 ≠ place }

def erase (tree : FileTree) (place : List Text) : FileTree :=
  { tree with files := tree.files.filter fun f => f.1 ≠ place }

def close (tree : FileTree) (place : List Text) : FileTree :=
  { tree with closed := place :: tree.closed }

/-- Walks from `directory` down the remaining parts. -/
def walk (tree : FileTree) (directory : List Text) : List Text → FileEntry
  | [] => .directory
  | part :: rest =>
    if tree.isClosed directory then .forbidden
    else if part = ".." then walk tree directory.dropLast rest
    else if NameProblem.maxLength < NameProblem.length part then .nameTooLong
    else
      let next := directory ++ [part]
      if tree.hasDirectory next then walk tree next rest
      else
        match tree.content? next with
        | none => .missing
        | some content =>
          if rest ≠ [] then .throughFile
          else if tree.isClosed next then .closedFile
          else .file content

def entry (tree : FileTree) (path : Path) : FileEntry :=
  if NameProblem.maxPathLength < NameProblem.length path.toText then .nameTooLong
  else tree.walk (if path.isAbsolute then [] else tree.working) path.parts

def readBytes (tree : FileTree) (path : Path) : Except ReadError Octets :=
  match NameProblem.ofText? path.toText with
  | some problem => .error (.badName problem)
  | none =>
    match tree.entry path with
    | .file content => .ok content
    | .directory => .error (.directory path)
    | .missing => .error (.missing path)
    | .throughFile => .error (.throughFile path)
    | .nameTooLong => .error (.nameTooLong path)
    | .closedFile | .forbidden => .error (.forbidden path)

/-- Whether there is a file. Nobody can say so of a name that is too long, or behind a directory that
may not be entered. -/
def isFile (tree : FileTree) (path : Path) : Except ReadError Bool :=
  match NameProblem.ofText? path.toText with
  | some _ => .ok false
  | none =>
    match tree.entry path with
    | .file _ | .closedFile => .ok true
    | .directory | .missing | .throughFile => .ok false
    | .nameTooLong => .error (.nameTooLong path)
    | .forbidden => .error (.forbidden path)

/-- A file as text, its line ends made one. -/
def readText (tree : FileTree) (path : Path) : Except ReadError Text := do
  let content ← tree.readBytes path
  let t ← (Text.decode? false content).mapError .undecodable
  return t.unifyLineEnds

end FileTree

end SemanticHighlight
