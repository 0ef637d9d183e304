import SemanticHighlight.Command.Words
import SemanticHighlight.Files.Tree
import SemanticHighlight.Number.Numeral

/-!
# Parameters of a command

Parameters are looked at in the order in which they were given, operands after the options, and
those that were not given last; the first that is missing or not as it should be is complained
about. Words that are left over come after everything else.
-/

namespace SemanticHighlight.Command

/-- What stands at a path as it was typed: behind a slash or a point at the end there is no file. -/
def entryAt (files : FileTree) (t : Text) : FileEntry :=
  if t = [] then .missing
  else
    let last := (t.splitOn Path.slash).getLastD []
    let found := files.entry (.ofText t)
    if found.isFile ∧ (last = [] ∨ last = ".") then .throughFile else found

def ValueKind.check (files : FileTree) (kind : ValueKind) (t : Text) : Except ValueProblem Unit :=
  match kind with
  | .flag | .text => .ok ()
  | .integer => if (Text.readInt? t).isSome then .ok () else .error (.notAnInteger t)
  | .file =>
    match entryAt files t with
    | .directory => .error (.aDirectory t)
    | .closedFile => .error (.unreadable t)
    | _ => .ok ()
  | .directory => if (entryAt files t).isFile then .error (.aFile t) else .ok ()

def checkFile (files : FileTree) (t : Text) : Except ValueProblem Unit :=
  match entryAt files t with
  | .file _ => .ok ()
  | .closedFile => .error (.unreadable t)
  | .directory => .error (.aDirectory t)
  | _ => .error (.absent t)

namespace Words

/-- The options given, each once and in the order in which they first came. -/
def named (w : Words) : List OptionSpec :=
  w.given.foldl (fun seen g => if seen.contains g.1 then seen else seen ++ [g.1]) []

def checkOption (files : FileTree) (w : Words) (option : OptionSpec) : Except UsageProblem Unit :=
  match w.value? option.name with
  | some value => (option.kind.check files value).mapError (.invalid option.name)
  | none => if option.isRequired then .error (.missingOption option.name) else .ok ()

def checkOperand (files : FileTree) (w : Words) : Operands → Except UsageProblem Unit
  | .file name =>
    match w.operands with
    | [] => .error (.missingOperand name)
    | path :: _ => (checkFile files path).mapError (.invalid name)
  | _ => .ok ()

/-- The operands that a command has no use for. -/
def extra (w : Words) : Operands → List Text
  | .none => w.operands
  | .file _ => w.operands.drop 1
  | .command => []

def check (files : FileTree) (spec : Spec) (w : Words) : Except UsageProblem Unit := do
  let named := w.named
  named.forM (w.checkOption files)
  w.checkOperand files spec.operands
  (spec.options.filter fun o => !named.contains o).forM (w.checkOption files)
  match w.extra spec.operands with
  | [] => return
  | first :: more => throw (.extraOperands first more)

/-- The option that asks for information instead of work, if one does: the first given. -/
def inquiry? (w : Words) : Option Text :=
  (w.given.map fun g => g.1.name).find? fun name => name = helpName ∨ name = versionName

end Words

end SemanticHighlight.Command
