import SemanticHighlight.Text.Basic

/-!
# What a command takes

A command takes options, each with a value or without one, and words that belong to no option.
-/

namespace SemanticHighlight.Command

inductive ValueKind where
  /-- There is no value. -/
  | flag
  | text
  | integer
  /-- A path that leads to no directory. -/
  | file
  /-- A path that leads to no file. -/
  | directory
  deriving DecidableEq, Repr

structure OptionSpec where
  name : Text
  kind : ValueKind
  isRequired : Bool
  help : Text
  deriving DecidableEq, Repr

/-- The words that belong to no option. -/
inductive Operands where
  | none
  /-- The path of a file that exists. -/
  | file (name : Text)
  /-- The name of a command and its words. -/
  | command
  deriving DecidableEq, Repr

structure Spec where
  /-- The words by which the command is called. -/
  path : Text
  description : Text
  options : List OptionSpec
  operands : Operands
  deriving DecidableEq, Repr

def helpName : Text := "--help"

/-- Every command tells about itself if asked to. -/
def helpOption : OptionSpec := ⟨helpName, .flag, false, "Show this message and exit."⟩

namespace Spec

def allOptions (spec : Spec) : List OptionSpec := spec.options ++ [helpOption]

def option? (spec : Spec) (name : Text) : Option OptionSpec :=
  spec.allOptions.find? fun o => o.name = name

/-- Whether options may stand among the other words; those of a command among commands may not. -/
def isInterspersed (spec : Spec) : Bool := spec.operands ≠ .command

end Spec

/-! ## The commands there are -/

def programName : Text := "treelight"

def programVersion : Text := "0.1.0"

def versionName : Text := "--version"

def flag (name help : Text) : OptionSpec := ⟨name, .flag, false, help⟩

def configOption : OptionSpec :=
  ⟨"--config", .file, false,
    "Configuration file (defaults to $TREELIGHT_CONFIG or ./treelight.yml)"⟩

def workspaceOption (more : Text) : OptionSpec :=
  ⟨"--workspace", .directory, false, "Root for relative grammar and query paths" ++ more⟩

def jsonOption : OptionSpec := flag "--json-output" "Output in JSON format"

def debugOption : OptionSpec := flag "--debug" "Show detailed debug information"

def program : Spec where
  path := programName
  description := "Treelight CLI"
  options := [flag versionName "Show the version and exit."]
  operands := .command

def highlightSpec : Spec where
  path := programName ++ " highlight"
  description := "Highlight a file and print its semantic tokens."
  options := [⟨"--lang", .text, true, "Language identifier of the file"⟩, configOption,
    workspaceOption [], jsonOption, debugOption]
  operands := .file "FILE"

def validateSpec : Spec where
  path := programName ++ " validate"
  description := "Validate the configuration and load every configured language."
  options := [configOption, workspaceOption [], jsonOption, debugOption]
  operands := .none

def serveSpec : Spec where
  path := programName ++ " lsp"
  description := "Start the treelight LSP server for semantic highlighting."
  options := [configOption, workspaceOption " (defaults to the client's workspace)",
    ⟨"--port", .integer, false, "Port number for LSP server (defaults to 3000)"⟩,
    ⟨"--host", .text, false, "Host to bind to when using TCP mode (defaults to localhost)"⟩,
    flag "--tcp" "Use TCP instead of stdio for LSP communication", debugOption]
  operands := .none

end SemanticHighlight.Command
