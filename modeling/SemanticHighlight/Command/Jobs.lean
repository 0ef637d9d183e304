import SemanticHighlight.Command.Console
import SemanticHighlight.Command.Parameters
import SemanticHighlight.Highlight.Setup
import SemanticHighlight.Report.Verdict
import SemanticHighlight.Server.Events
import SemanticHighlight.Token.Rows

/-!
# What the commands do

Every command loads a configuration. Then it highlights a file, validates the languages, or serves
an editor.
-/

namespace SemanticHighlight.Command

/-- What a command finds around it. -/
structure Surroundings where
  host : Host
  homes : Homes
  environment : List (Text × Text)
  /-- How the transport of a server comes to its end. -/
  ending : TransportEnd

namespace Surroundings

def setting? (s : Surroundings) (name : Text) : Option Text := s.environment.lookup name

def configSetting (s : Surroundings) : Option Text := s.setting? "TREELIGHT_CONFIG"

def debugSetting (s : Surroundings) : Option Text := s.setting? "TREELIGHT_DEBUG"

end Surroundings

namespace Words

def configPath (w : Words) : Option Text := w.value? "--config"

def workspace (w : Words) : Option Path := (w.value? "--workspace").map Path.ofText

def asJson (w : Words) : Bool := w.has "--json-output"

def debug (w : Words) : Bool := w.has "--debug"

end Words

def throwing (outcome : Except Failure α) : Job α := ExceptT.mk (pure outcome)

/-- The configuration of a command, which may make the command verbose. -/
def loadConfig (s : Surroundings) (w : Words) : Job Config := do
  let path := Config.findPath w.configPath s.configSetting
  let (outcome, entries) := Config.load s.homes s.host.files path w.workspace
  Console.log entries
  let config ← throwing (outcome.mapError .ofLoading)
  if config.debug then modify fun c => { c with verbose := true }
  return config

def setUp (s : Surroundings) (config : Config) : Job (HostProvider × HostSession) := do
  let provider ← throwing (config.provider.mapError .ofVocabulary)
  return (provider, config.session s.host)

def onSession (session : HostSession) (work : Work Host Grammar PatternQuery α) : Shell α := do
  let (answer, session) := work.run { session with log := [] }
  Console.log session.log
  return answer

def recordJson (r : Token.Record) : Json :=
  .object [("line", .int r.line), ("startCharacter", .int r.start), ("endCharacter", .int r.stop),
    ("type", .text r.type), ("modifiers", .texts r.modifiers), ("text", .text r.text)]

/-- Shows the tokens that have any text under them. -/
def showTokens (asJson : Bool) (index : LineIndex) (tokens : List Token) : Shell Unit :=
  let tokens := Token.visible index tokens
  if asJson then
    let records := tokens.map fun t => recordJson (Token.record index t)
    Console.printJson [("status", .text "ok"), ("result", .list records)]
  else Console.printLines (tokens.map (Token.row index))

def highlight (s : Surroundings) (w : Words) : Job Nat := do
  let config ← loadConfig s w
  let (provider, session) ← setUp s config
  Console.log session.log
  let file := Path.ofText (w.operands.headD [])
  let t ← throwing ((s.host.files.readText file).mapError .ofRead)
  let lang := (w.value? "--lang").getD []
  let outcome ← (onSession session (provider.highlight lang t).run : Shell _)
  let tokens ← throwing (outcome.mapError .ofHighlight)
  showTokens w.asJson (LineIndex.ofText t) tokens
  return 0

/-- Validates the languages; the exit status tells whether all of them can be loaded. -/
def validate (s : Surroundings) (w : Words) : Job Nat := do
  let config ← loadConfig s w
  let (provider, session) ← setUp s config
  Console.log session.log
  let outcome ← (onSession session (Session.validate provider).run : Shell _)
  let verdicts ← throwing (outcome.mapError .ofHighlight)
  if w.asJson then
    Console.printJson [("status", .text "ok"), ("result", Verdict.summary verdicts)]
  else Console.print (Verdict.report verdicts)
  return if Verdict.allValid verdicts then 0 else 1

/-- The configuration of a server and the file it comes from. Only a file that was asked for has to
be there; without any the languages come from the editor. -/
def serverConfig (s : Surroundings) (w : Words) : Job (Config × Option Path) := do
  let path := Config.findPath w.configPath s.configSetting
  if ← throwing ((s.host.files.isFile path).mapError .ofRead) then
    return (← loadConfig s w, some path)
  if w.configPath.isSome then throw (.usage "BadParameter" (path.toText ++ " does not exist"))
  return ({}, none)

def transportOf (w : Words) (port : Int) : Transport :=
  if w.has "--tcp" then .socket ((w.value? "--host").getD "localhost") port else .streams

def serve (s : Surroundings) (w : Words) : Job Nat := do
  let (config, configPath) ← serverConfig s w
  let (provider, _) ← setUp s config
  let port := Server.portOf ((w.value? "--port").bind Text.readInt?)
  let server : Server Host Grammar PatternQuery :=
    ⟨provider, Host.files, s.homes, configPath, port⟩
  let state := ServerState.ofConfig server s.host config w.workspace
  Console.log state.session.log
  let transport := transportOf w port
  match transport with
  | .socket host port =>
    Console.printError
      ("Starting treelight LSP server on " ++ host ++ ":" ++ Text.ofInt port)
  | .streams => pure ()
  modify fun c => { c with started := c.started ++ [transport] }
  let state := { state with session := { state.session with log := [] } }
  let (_, state) := (Server.serve transport s.ending).run.run state
  Console.log state.session.log
  match s.ending.failure? with
  | some e => throw e
  | none => return 0

end SemanticHighlight.Command
