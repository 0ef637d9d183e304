import SemanticHighlight.Command.Spec
import SemanticHighlight.Text.Quoted
import SemanticHighlight.Text.Similarity

/-!
# Words of a command line

A word that begins with a dash names an option, whose value follows an equals sign or is the next
word. Two dashes end the options. All other words are operands.
-/

namespace SemanticHighlight.Command

inductive ValueProblem where
  | absent (path : Text)
  | unreadable (path : Text)
  | aDirectory (path : Text)
  | aFile (path : Text)
  | notAnInteger (t : Text)
  deriving DecidableEq, Repr

namespace ValueProblem

def message : ValueProblem → Text
  | absent path => "File " ++ path.quoted ++ " does not exist."
  | unreadable path => "File " ++ path.quoted ++ " is not readable."
  | aDirectory path => "File " ++ path.quoted ++ " is a directory."
  | aFile path => "Directory " ++ path.quoted ++ " is a file."
  | notAnInteger t => t.quoted ++ " is not a valid integer."

end ValueProblem

inductive UsageProblem where
  | unknownOption (name : Text) (similar : List Text)
  | unknownCommand (name : Text) (similar : List Text)
  | needsValue (option : Text)
  | takesNoValue (option : Text)
  | missingOption (name : Text)
  | missingOperand (name : Text)
  | invalid (parameter : Text) (problem : ValueProblem)
  | extraOperands (first : Text) (more : List Text)
  deriving DecidableEq, Repr

namespace UsageProblem

/-- Names that may have been meant. -/
def suggestion : List Text → Text
  | [] => []
  | [name] => " Did you mean " ++ name.quoted ++ "?"
  | names => " (Did you mean one of: " ++ Text.join ", " (names.map Text.quoted) ++ "?)"

def message : UsageProblem → Text
  | unknownOption name similar => "No such option " ++ name.quoted ++ "." ++ suggestion similar
  | unknownCommand name similar => "No such command " ++ name.quoted ++ "." ++ suggestion similar
  | needsValue option => "Option " ++ option.quoted ++ " requires an argument."
  | takesNoValue option => "Option " ++ option.quoted ++ " does not take a value."
  | missingOption name => "Missing option '" ++ name ++ "'."
  | missingOperand name => "Missing argument '" ++ name ++ "'."
  | invalid parameter problem => "Invalid value for '" ++ parameter ++ "': " ++ problem.message
  | extraOperands first [] => "Got unexpected extra argument (" ++ first ++ ")"
  | extraOperands first more =>
    "Got unexpected extra arguments (" ++ Text.join " " (first :: more) ++ ")"

/-- Whether a problem lies in how an option was written, and not in what the command takes. -/
def isAboutWriting : UsageProblem → Bool
  | needsValue _ | takesNoValue _ => true
  | _ => false

end UsageProblem

/-- The options given, in order and with their values, and the other words. -/
structure Words where
  given : List (OptionSpec × Text)
  operands : List Text
  deriving Repr

namespace Words

def addOption (option : OptionSpec) (value : Text) (w : Words) : Words :=
  { w with given := (option, value) :: w.given }

def addOperand (word : Text) (w : Words) : Words := { w with operands := word :: w.operands }

/-- A single dash is a word like any other. -/
def isOption (word : Text) : Bool := word.startsWith "-" && 1 < word.length

def unknown (spec : Spec) (word name : Text) : UsageProblem :=
  if word.startsWith "--" then
    .unknownOption name (Text.similar name (spec.allOptions.map OptionSpec.name))
  else .unknownOption (word.take 2) []

def ofList (spec : Spec) : List Text → Except UsageProblem Words
  | [] => .ok ⟨[], []⟩
  | word :: rest =>
    if word = "--" then .ok ⟨[], rest⟩
    else if isOption word then
      let (name, attached) := word.cut '='
      match spec.option? name with
      | none => .error (unknown spec word name)
      | some option =>
        if option.kind = .flag then
          if attached.isSome then .error (.takesNoValue name)
          else (ofList spec rest).map (addOption option [])
        else
          match attached, rest with
          | some value, rest => (ofList spec rest).map (addOption option value)
          | none, value :: rest => (ofList spec rest).map (addOption option value)
          | none, [] => .error (.needsValue name)
    else if spec.isInterspersed then (ofList spec rest).map (addOperand word)
    else .ok ⟨[], word :: rest⟩

/-- The value given last for an option. -/
def value? (w : Words) (name : Text) : Option Text :=
  (w.given.reverse.find? fun g => g.1.name = name).map Prod.snd

def has (w : Words) (name : Text) : Bool := (w.value? name).isSome

end Words

end SemanticHighlight.Command
