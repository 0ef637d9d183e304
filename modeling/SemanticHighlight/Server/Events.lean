import SemanticHighlight.Server.Highlighting
import SemanticHighlight.Server.Languages

/-!
# Events of a server

What can happen to a server: the messages of an editor, and changes of the surroundings that no
message announces. A run of a server is its state after a list of events.
-/

namespace SemanticHighlight

structure Introduction where
  options : Json
  folders : List Text
  rootUri : Option Text
  rootPath : Option Text
  deriving Repr

namespace Introduction

/-- The root that the editor works in: its first folder, else the root it names. -/
def root? (i : Introduction) : Except UriError (Option Path) := do
  let uri := i.folders.head?.or (i.rootUri.filter fun uri => uri ≠ [])
  let path ← uri.mapM fun uri => return (← Uri.ofText uri).filePath
  return ((path.or i.rootPath).filter fun path => path ≠ []).map Path.ofText

/-- The root that the editor names has to make sense; its folders are looked at later. -/
def check (i : Introduction) : Except UriError Unit :=
  match i.rootUri, i.rootPath with
  | some uri, _ => do let _ ← Uri.ofText uri
  | none, some path => Uri.checkFilePath path
  | none, none => .ok ()

end Introduction

structure Announcement where
  legend : Legend
  /-- Whether tokens are given for whole documents. -/
  full : Bool
  commands : List Text
  deriving Repr

inductive ServerEvent (World : Type) where
  | introduced (introduction : Introduction)
  | ready
  | shutDown
  | exited
  | opened (uri : Text) (document : Document)
  | tokensRequested (uri : Text) (attached : Bool)
  | optionsChanged (options : Json)
  | reloadRequested
  | worldChanged (change : World → World)

inductive ServerReply where
  | nothing
  | announcement (a : Announcement)
  | stream (data : Option (List Int))
  | accepted (accepted : Bool)
  deriving Repr

namespace Server

variable {World Grammar Query : Type}

def reloadCommand : Text := "treelight.reload"

def announcement (server : Server World Grammar Query) : Announcement :=
  ⟨server.provider.legend, true, [reloadCommand]⟩

def isObject : Json → Bool
  | .object _ => true
  | _ => false

section

variable [Config.Services]

/-- Takes over the root of an editor unless there is one, and uses its options. -/
def adopt (server : Server World Grammar Query) (i : Introduction) :
    Serving World Grammar Query Unit := do
  if (← get).root.isNone then
    let root ← Serving.ofAddress i.root?
    modify fun s => { s with root }
  if isObject i.options then
    let _ ← server.applyOptions i.options

/-- Meets an editor: no document is open any more. What cannot be adopted from the editor does not
spoil the introduction. -/
def introduce (server : Server World Grammar Query) (i : Introduction) :
    Serving World Grammar Query Unit := do
  Serving.ofAddress i.check
  modify fun s => { s with documents := some [] }
  tryCatch (server.adopt i) fun _ => pure ()

def handle (server : Server World Grammar Query) :
    ServerEvent World → Serving World Grammar Query ServerReply
  | .introduced i => do
    server.introduce i
    return .announcement server.announcement
  | .ready => do
    Serving.report .info .server "LSP: Server initialized successfully"
    return .nothing
  | .shutDown => do
    Serving.report .info .server "LSP: Handling shutdown request"
    cleanUp
    return .nothing
  | .exited => do
    Serving.report .info .server "LSP: Server exiting"
    return .nothing
  | .opened uri document => do
    openDocument uri document
    return .nothing
  | .tokensRequested uri attached => return .stream (← server.tokens uri attached)
  | .optionsChanged options => return .accepted (← server.applyOptions options)
  | .reloadRequested => do
    server.reload
    return .nothing
  | .worldChanged change => do
    modify fun s => { s with session := { s.session with world := change s.session.world } }
    return .nothing

/-- The answer to an event and the state after it. -/
def step (server : Server World Grammar Query) (s : ServerState World Grammar Query)
    (event : ServerEvent World) : Except ServerError ServerReply × ServerState World Grammar Query :=
  (server.handle event).run.run s

def after (server : Server World Grammar Query) (s : ServerState World Grammar Query)
    (events : List (ServerEvent World)) : ServerState World Grammar Query :=
  events.foldl (fun s event => (server.step s event).2) s

@[simp] theorem after_nil (server : Server World Grammar Query)
    (s : ServerState World Grammar Query) : server.after s [] = s := rfl

@[simp] theorem after_cons (server : Server World Grammar Query)
    (s : ServerState World Grammar Query) (event : ServerEvent World)
    (events : List (ServerEvent World)) :
    server.after s (event :: events) = server.after (server.step s event).2 events := rfl

theorem after_append (server : Server World Grammar Query) (s : ServerState World Grammar Query)
    (first rest : List (ServerEvent World)) :
    server.after s (first ++ rest) = server.after (server.after s first) rest :=
  List.foldl_append

end

end Server

end SemanticHighlight
