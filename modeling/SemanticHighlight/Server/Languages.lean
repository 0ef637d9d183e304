import SemanticHighlight.Server.Basic

/-!
# Which languages a server serves

Settings of an editor that are in order take the place of the configuration; others are put on
record and change nothing. A reload reads the configuration file again, lets the editor's languages
take precedence and discards every binding.
-/

namespace SemanticHighlight.Server

variable {World Grammar Query : Type} [Config.Services]

def readSettings (server : Server World Grammar Query) (root : Option Path)
    (settings : ClientSettings) : Except ReadingError Config :=
  Config.read server.homes root (.ofValue settings.document)

def reject (e : ConfigError) : Serving World Grammar Query Unit := do
  modify fun s => { s with rejections := s.rejections ++ [e] }
  Serving.report .error .server
    ("Initialization error in " ++ ServerState.settingsComponent ++ ": " ++ e.message)

def accept (settings : ClientSettings) (config : Config) : Serving World Grammar Query Unit := do
  modify fun s => { s with settings := some settings, verbose := s.verbose || config.debug }
  if settings.languages.isSome then
    Serving.onSession (Session.reload (some config.languages))
  modify fun s => { s with applied := true }
  Serving.report .info .server "LSP: Applied client settings"

/-- Uses the settings among the options of an editor if there are any and they are in order. -/
def applyOptions (server : Server World Grammar Query) (options : Json) :
    Serving World Grammar Query Bool := do
  let settings := ClientSettings.ofOptions options
  if settings.isEmpty then return false
  match server.readSettings (← get).root settings with
  | .error (.config e) => reject e; return false
  | .error e => throw (.reading e)
  | .ok config => accept settings config; return true

/-- The languages of the configuration, read again from its file if it has one. A file that is out
of order is passed over. -/
def reloadConfig (server : Server World Grammar Query) :
    Serving World Grammar Query (List LanguageConfig) := do
  let s ← get
  match server.configPath with
  | none => return s.config.languages
  | some path =>
    let (outcome, entries) :=
      Config.load server.homes (server.files s.session.world) path s.root
    Serving.relay entries
    match outcome with
    | .ok config =>
      modify fun s => { s with config }
      return config.languages
    | .error e =>
      match e.config? with
      | some e =>
        Serving.report .error .server ("Keeping previous configuration: " ++ e.message)
        return s.config.languages
      | none => throw (.loading e)

/-- The languages of the accepted settings if these have any, else those given. -/
def overrideLanguages (server : Server World Grammar Query) (configs : List LanguageConfig) :
    Serving World Grammar Query (List LanguageConfig) := do
  let s ← get
  match s.settings.filter (·.languages.isSome) with
  | none => return configs
  | some settings =>
    match server.readSettings s.root settings with
    | .ok config => return config.languages
    | .error (.config e) =>
      Serving.report .error .server ("Ignoring client settings on reload: " ++ e.message)
      return configs
    | .error e => throw (.reading e)

/-- Reads the languages again and discards every binding. -/
def reload (server : Server World Grammar Query) : Serving World Grammar Query Unit := do
  Serving.report .info .tokenService "LSP: Reloading languages"
  let configs ← server.overrideLanguages (← server.reloadConfig)
  Serving.onSession (Session.reload (some configs))

/-- Discards every binding, so that nothing is left if the server is used again. -/
def cleanUp : Serving World Grammar Query Unit := do
  Serving.report .info .server "Cleaning up LSP server resources..."
  Serving.onSession (Session.reload none)
  Serving.report .info .server "LSP server resource cleanup completed"

end SemanticHighlight.Server
