import SemanticHighlight.Command.Manual
import SemanticHighlight.Command.Jobs

/-!
# The program

The program is a command whose operands name another command and its words. A command that is called
the wrong way says so and does nothing.
-/

namespace SemanticHighlight.Command

structure Outcome where
  status : Nat
  console : Console
  deriving Repr

structure Entry where
  name : Text
  spec : Spec
  job : Surroundings → Words → Job Nat

def commands : List Entry :=
  [⟨"highlight", highlightSpec, highlight⟩, ⟨"lsp", serveSpec, serve⟩,
    ⟨"validate", validateSpec, validate⟩]

def commandRows : List (Text × Text) := commands.map fun c => (c.name, c.spec.description)

/-- The command that words call, and its own words. -/
def called? (words : List Text) : Option (Entry × List Text) := do
  let w ← (Words.ofList program words).toOption
  let (name, rest) ← w.operands.head?.map fun name => (name, w.operands.drop 1)
  let command ← commands.find? fun c => c.name = name
  return (command, rest)

/-- The files that the languages of the configuration in use are made of. -/
def assetPaths (s : Surroundings) (words : List Text) : List Text :=
  let config := do
    let (command, rest) ← called? words
    let w ← (Words.ofList command.spec rest).toOption
    let path := Config.findPath w.configPath s.configSetting
    (Config.load s.homes s.host.files path w.workspace).1.toOption
  (config.map Config.languages).getD [] |>.flatMap fun l =>
    l.parser :: l.highlights :: l.injections.toList

def refuse (spec : Spec) (problem : UsageProblem) : Shell Nat := do
  modify fun c => { c with errors := c.errors ++ spec.complaint problem }
  return 2

def inform (spec : Spec) (commands : List (Text × Text)) (inquiry : Text) : Shell Nat := do
  let answer : Text :=
    if inquiry = versionName then programName ++ ", version " ++ programVersion ++ "\n"
    else spec.manual commands
  modify fun c => { c with output := c.output ++ answer }
  return 0

/-- Reads the words of a command and, if they are in order, goes on with them. -/
def withWords (files : FileTree) (spec : Spec) (subcommands : List (Text × Text))
    (words : List Text) (next : Words → Shell Nat) : Shell Nat :=
  match Words.ofList spec words with
  | .error problem => refuse spec problem
  | .ok w =>
    match w.inquiry? with
    | some inquiry => inform spec subcommands inquiry
    | none =>
      match w.check files spec with
      | .error problem => refuse spec problem
      | .ok () => next w

def Entry.run (s : Surroundings) (command : Entry) (words : List Text) : Shell Nat :=
  withWords s.host.files command.spec [] words fun w => do
    modify fun c => { c with verbose := wantsDebug w.debug s.debugSetting }
    Console.conclude w.asJson (command.job s w)

/-- Refuses a command that there is not. Where it looks like an option it may be one, behind the
two dashes that end the options. -/
def refuseCommand (s : Surroundings) (name : Text) (rest : List Text) : Shell Nat :=
  let refusal := refuse program (.unknownCommand name (Text.similar name (commands.map Entry.name)))
  if name.startsWith "-" then
    withWords s.host.files program commandRows (name :: rest) fun _ => refusal
  else refusal

/-- Runs the program; called without a command it tells about itself. -/
def runWords (s : Surroundings) (words : List Text) : Shell Nat :=
  withWords s.host.files program commandRows words fun w =>
    match w.operands with
    | [] => inform program commandRows helpName
    | name :: rest =>
      match commands.find? fun c => c.name = name with
      | some command => command.run s rest
      | none => refuseCommand s name rest

def run (s : Surroundings) (words : List Text) : Outcome :=
  let (status, console) := (runWords s words).run .silent
  ⟨status, console⟩

end SemanticHighlight.Command
