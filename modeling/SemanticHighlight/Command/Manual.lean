import SemanticHighlight.Command.Words

/-!
# What a command says about itself

The line that shows how a command is called, the page that lists its options, and what is said when
it is called the wrong way.
-/

namespace SemanticHighlight.Command

namespace Spec

def operandsText (spec : Spec) : Text :=
  match spec.operands with
  | .none => ""
  | .file name => " " ++ name
  | .command => " [COMMAND] [ARGS]..."

def usage (spec : Spec) : Text := "Usage: " ++ spec.path ++ " [OPTIONS]" ++ spec.operandsText

def advice (spec : Spec) : Text :=
  spec.usage ++ "\nTry '" ++ spec.path ++ " " ++ helpName ++ "' for help.\n\n"

/-- What is said when a command is called the wrong way. An option that was written wrongly says
nothing about the command. -/
def complaint (spec : Spec) (problem : UsageProblem) : Text :=
  (if problem.isAboutWriting then [] else spec.advice) ++ "Error: " ++ problem.message ++ "\n"

end Spec

def ValueKind.placeholder : ValueKind → Text
  | .flag => ""
  | .text => " TEXT"
  | .integer => " INTEGER"
  | .file => " FILE"
  | .directory => " DIRECTORY"

/-- Terms on the left, all of one width, and what they mean on the right. -/
def definitions (rows : List (Text × Text)) : List Text :=
  let width := (rows.map fun row => row.1.length).foldl max 0
  rows.map fun (term, meaning) => "  " ++ Text.padRight (width + 2) term ++ meaning

/-- A titled part of a page, which is left out if it is empty. -/
def listing (title : Text) (rows : List (Text × Text)) : List Text :=
  let heading : Text := title ++ ":"
  if rows.isEmpty then [] else [[], heading] ++ definitions rows

def Spec.optionRows (spec : Spec) : List (Text × Text) :=
  spec.allOptions.map fun o =>
    let required : Text := if o.isRequired then "  [required]" else ""
    (o.name ++ o.kind.placeholder, o.help ++ required)

def Spec.manual (spec : Spec) (commands : List (Text × Text)) : Text :=
  let description : Text := "  " ++ spec.description
  Text.join "\n" ([spec.usage, [], description] ++ listing "Options" spec.optionRows ++
    listing "Commands" commands) ++ "\n"

end SemanticHighlight.Command
