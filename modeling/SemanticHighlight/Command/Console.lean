import SemanticHighlight.Json.Printer
import SemanticHighlight.Report.Failure
import SemanticHighlight.Server.Lifetime

/-!
# The console of a command

What a command has written so far, and which log entries it shows: warnings and errors, or all of
them once it is verbose. Results and records go to standard output, all else to standard error.
-/

namespace SemanticHighlight.Command

structure Console where
  verbose : Bool
  output : Text
  errors : Text
  /-- The transports over which a server was started. -/
  started : List Transport
  deriving Repr

abbrev Shell := StateM Console

abbrev Job := ExceptT Failure Shell

/-- Whether all log entries are to be shown: if a flag or the environment says so. -/
def wantsDebug (flag : Bool) (setting : Option Text) : Bool :=
  flag || (["1", "true", "yes"] : List Text).contains (setting.getD []).lowerAscii

namespace Console

def silent : Console := ⟨false, [], [], []⟩

def written (lines : List Text) : Text := lines.flatMap fun line => line ++ "\n"

def printLines (lines : List Text) : Shell Unit :=
  modify fun c => { c with output := c.output ++ written lines }

def printErrors (lines : List Text) : Shell Unit :=
  modify fun c => { c with errors := c.errors ++ written lines }

def print (line : Text) : Shell Unit := printLines [line]

def printError (line : Text) : Shell Unit := printErrors [line]

def printJson (members : List (Text × Json)) : Shell Unit :=
  print (Json.render (.indented 2) (.object members))

def shows (verbose : Bool) (e : LogEntry) : Bool :=
  verbose || Severity.warning.rank ≤ e.severity.rank

def log (entries : Log) : Shell Unit := do
  let verbose := (← get).verbose
  printErrors ((entries.filter (shows verbose)).map LogEntry.line)

/-- Reports a failure, as a record if that is how results are reported. -/
def fail (asJson : Bool) (e : Failure) : Shell Unit :=
  if asJson then printJson (("status", .text "error") :: e.members)
  else do
    let label : Text := if e.isInternal then "Internal error: " else "Error: "
    printError (label ++ e.message)
    match e.hint with
    | some hint => printError ("Hint: " ++ hint)
    | none => pure ()

/-- Runs a job to the exit status of the command. A failure is reported and aborts the command. -/
def conclude (asJson : Bool) (job : Job Nat) : Shell Nat := do
  match ← job.run with
  | .ok status => return status
  | .error e =>
    fail asJson e
    printError "Aborted!"
    return 1

end Console

end SemanticHighlight.Command
