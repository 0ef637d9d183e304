import SemanticHighlight.Command.Program

/-!
# Command line

Looks up what the command may ask for, runs it and writes what it has to say. No grammar packages
are installed, and the transport of a server is not part of the program, so that a server stops as
soon as it is started.
-/

namespace SemanticHighlight.CommandLine

def bytesOf (content : ByteArray) : Octets := content.toList

/-- Adds a file, which is closed if it cannot be read. -/
def addFile (tree : FileTree) (place : List Text) (found : String) : IO FileTree := do
  try return tree.insert place (bytesOf (← IO.FS.readBinFile found))
  catch _ => return (tree.insert place []).close place

def look (tree : FileTree) (path : Text) : IO FileTree := do
  let place := (Path.ofText path).resolve ⟨.root, tree.working⟩
  try
    let found ← IO.FS.realPath (Path.toText place).toString
    if ← found.isDir then return tree.insertDirectory place.parts
    if ← found.pathExists then addFile tree place.parts found.toString
    else return tree
  catch _ => return tree

/-- The paths that a word may name: itself, or what follows an equals sign. -/
def pathsOf (word : Text) : List Text := word :: (word.cut '=').2.toList

def settingNames : List String := ["TREELIGHT_CONFIG", "TREELIGHT_DEBUG"]

def environment : IO (List (Text × Text)) :=
  settingNames.filterMapM fun name => do
    return (← IO.getEnv name).map fun value => ((name : Text), (value : Text))

def surroundings (words : List Text) : IO Command.Surroundings := do
  let here : Text := (← IO.currentDir).toString
  let home : Text := (← IO.getEnv "HOME").getD "/"
  let environment ← environment
  let paths := Config.usualPath :: environment.map Prod.snd ++ words.flatMap pathsOf
  let files ← paths.foldlM look (.empty (Path.ofText here).parts)
  return ⟨.ofFiles files [], ⟨home, []⟩, environment, .finished⟩

end SemanticHighlight.CommandLine

open SemanticHighlight CommandLine

def main (args : List String) : IO UInt32 := do
  let words := args.map Text.ofString
  let s ← surroundings words
  let files ← (Command.assetPaths s words).foldlM look s.host.files
  let outcome := Command.run { s with host := .ofFiles files [] } words
  IO.print outcome.console.output.toString
  IO.eprint outcome.console.errors.toString
  return UInt32.ofNat outcome.status
