import SemanticHighlight.Config.Loading
import SemanticHighlight.Highlight.Document
import SemanticHighlight.Server.Settings
import SemanticHighlight.Server.Uri
import SemanticHighlight.Token.Stream

/-!
# Language servers

A server highlights the documents that an editor has open. Its languages come from a configuration
and may be replaced by the editor; the legend stays the one that was announced.
-/

namespace SemanticHighlight

/-- What a server is built from; none of it changes while it runs. -/
structure Server (World Grammar Query : Type) where
  provider : Provider World Grammar Query
  /-- The files of the surroundings. -/
  files : World → FileTree
  homes : Homes
  /-- The file that the configuration was loaded from, loaded again on a reload. -/
  configPath : Option Path
  port : Int

structure Document where
  lang : Text
  text : Text
  deriving DecidableEq, Repr

structure ServerState (World Grammar Query : Type) where
  session : Session World Grammar Query
  config : Config
  /-- What relative paths in settings are seen from. -/
  root : Option Path
  /-- The settings that were accepted last. -/
  settings : Option ClientSettings
  /-- Whether any settings were accepted. -/
  applied : Bool
  /-- Why settings were rejected, in the order in which that happened. -/
  rejections : List ConfigError
  /-- Whether an editor asked for all log entries. -/
  verbose : Bool
  /-- The open documents by address; there are none before the editor introduces itself. -/
  documents : Option (List (Text × Document))

inductive ServerError where
  | notInitialized
  | address (e : UriError)
  | reading (e : ReadingError)
  | loading (e : LoadingError)
  | highlight (e : HighlightError)
  | unknownType (e : Token.UnknownType)
  deriving Repr

namespace ServerError

def notInitializedText : Text :=
  "The workspace is not available - has the server been initialized?"

end ServerError

variable {World Grammar Query : Type}

/-- Work of a server; what it changed before a failure stays changed. -/
abbrev Serving (World Grammar Query : Type) :=
  ExceptT ServerError (StateM (ServerState World Grammar Query))

namespace Serving

def report (severity : Severity) (source : LogSource) (message : Text) :
    Serving World Grammar Query Unit :=
  modify fun s =>
    { s with session := { s.session with log := s.session.log ++ [⟨severity, source, message⟩] } }

def relay (entries : Log) : Serving World Grammar Query Unit :=
  modify fun s => { s with session := { s.session with log := s.session.log ++ entries } }

def ofAddress (e : Except UriError α) : Serving World Grammar Query α :=
  ExceptT.mk (pure (e.mapError .address))

def onSession (work : Work World Grammar Query α) : Serving World Grammar Query α := do
  let s ← get
  let (answer, session) := work.run s.session
  set { s with session }
  return answer

end Serving

namespace ServerState

def settingsComponent : Text := "Client Settings"

def summary (s : ServerState World Grammar Query) : Text :=
  if s.rejections.isEmpty then "No initialization errors"
  else
    let line (e : ConfigError) : Text := settingsComponent ++ ": " ++ e.message
    "Initialization errors: " ++ Text.join "; " (s.rejections.map line)

/-- A server that has just been built from a configuration. -/
def ofConfig (server : Server World Grammar Query) (world : World) (config : Config)
    (root : Option Path) : ServerState World Grammar Query :=
  let session := Session.ofConfigs world config.languages
  let state : ServerState World Grammar Query := ⟨session, config, root, none, false, [], false, none⟩
  let entries : Log :=
    [⟨.info, .tokenService, "Semantic tokens functionality registered successfully"⟩,
      ⟨.info, .server, "Treelight LSP Server initialized on port " ++ Text.ofInt server.port⟩,
      ⟨.info, .server, state.summary⟩]
  { state with session := { session with log := session.log ++ entries } }

end ServerState

namespace Server

def usualPort : Int := 3000

def portOf (asked : Option Int) : Int :=
  match asked with
  | none => usualPort
  | some 0 => usualPort
  | some port => port

end Server

end SemanticHighlight
