import Mathlib.Logic.Relation
import SemanticHighlight.Highlight.Document
import SemanticHighlight.Proofs.Strand.Basic

/-!
# Requests at the same time

A provider works on any number of documents at the same time, and on the regions of a text all at once.
The work on a document is a strand that waits for loads; whoever asks the registry does so at one go
with the look at what is configured. A scene holds the session together with all that is under way: the
loads that have read their files but were not yet taken in, the requests, and the strays that failed
requests left behind. It moves by any turn of any strand and by any load; besides, requests come in,
the surroundings change, and the registry is reloaded.
-/

namespace SemanticHighlight

variable {World Grammar Query α : Type}

/-- A strand of the work on documents, which waits for loads. -/
abbrev Errand (World Grammar Query : Type) :=
  Strand (Session World Grammar Query) Load (Except LoadError (Binding Grammar Query)) HighlightError

def Attempt.ask (lang : Text) : Attempt World Grammar Query (Answer (Binding Grammar Query)) := do
  let s ← get
  let (answer, registry) := s.registry.request lang
  set { s with registry }
  return answer

namespace Provider

/-- The binding of a language that was asked for, after the load if there is one. -/
def settle (lang : Text) : Answer (Binding Grammar Query) →
    Errand World Grammar Query (Except ResolveError (Binding Grammar Query))
  | .cached held => return .ok held.binding
  | .unconfigured => return .error (.unconfigured lang)
  | .waiting load => do return (← Strand.newsOf load).mapError .failed

/-- Asks for the language of the region that a match marks, as `regionOf` does. -/
def askRegion (provider : Provider World Grammar Query) (mayNest : Bool) (found : Match) :
    Attempt World Grammar Query (Option (Text × Capture × Answer (Binding Grammar Query))) := do
  let isConfigured := (← get).registry.isConfigured
  match found.injection? isConfigured with
  | none => return none
  | some (lang, content) =>
    if !isConfigured lang then Attempt.skip (unconfiguredEntry lang content)
    else if !mayNest then throw (.tooDeep lang provider.maxDepth)
    else return some (lang, content, ← Attempt.ask lang)

def settleRegion : Option (Text × Capture × Answer (Binding Grammar Query)) →
    Errand World Grammar Query (Option (Region Grammar Query))
  | none => return none
  | some (lang, content, answer) => do
    let resolved ← settle lang answer
    Strand.sync (regionIn lang content resolved)

def regionErrand (provider : Provider World Grammar Query) (mayNest : Bool) (found : Match) :
    Errand World Grammar Query (Option (Region Grammar Query)) := do
  settleRegion (← Strand.sync (provider.askRegion mayNest found))

def injectionErrand (provider : Provider World Grammar Query)
    (deeper : Option (Binding Grammar Query → Text → Errand World Grammar Query (List Token)))
    (found : Match) : Errand World Grammar Query (Option Injection) := do
  match ← provider.regionErrand deeper.isSome found, deeper with
  | some region, some deeper => return some (region.injection (← deeper region.binding region.content.text))
  | _, _ => return none

/-- The regions of a text are worked on together, in whichever order. -/
def injectionsErrand (provider : Provider World Grammar Query)
    (deeper : Option (Binding Grammar Query → Text → Errand World Grammar Query (List Token)))
    (query : Query) (t : Text) : Errand World Grammar Query (List Injection) := do
  let found ← Strand.sync (Attempt.checked (provider.engine.search query t))
  return (← Strand.forAll found (provider.injectionErrand deeper)).filterMap id

def tokensErrandWith (provider : Provider World Grammar Query)
    (deeper : Option (Binding Grammar Query → Text → Errand World Grammar Query (List Token)))
    (binding : Binding Grammar Query) (t : Text) : Errand World Grammar Query (List Token) := do
  if !provider.engine.parses binding.grammar t then return []
  let tokens ← Strand.sync (provider.ownTokens binding t)
  match binding.injections with
  | none => return tokens
  | some query => return Token.merge tokens (← provider.injectionsErrand deeper query t)

def tokensErrand (provider : Provider World Grammar Query) :
    (budget : Nat) → Binding Grammar Query → Text → Errand World Grammar Query (List Token)
  | 0 => provider.tokensErrandWith none
  | budget + 1 => provider.tokensErrandWith (some (provider.tokensErrand budget))

def askDocument (lang : Text) :
    Attempt World Grammar Query (Answer (Binding Grammar Query)) := do
  if !(← get).registry.isConfigured lang then throw (.unconfigured lang)
  Attempt.ask lang

def documentErrand (provider : Provider World Grammar Query) (lang t : Text) :
    Except ResolveError (Binding Grammar Query) → Errand World Grammar Query (List Token)
  | .error e => .fail (.ofResolve e)
  | .ok binding => do
    let tokens := Token.sort (← provider.tokensErrand provider.maxDepth binding t)
    Strand.sync (Attempt.report [highlightedEntry lang tokens])
    return tokens

def errand (provider : Provider World Grammar Query) (lang t : Text) :
    Errand World Grammar Query (List Token) := do
  let answer ← Strand.sync (askDocument lang)
  provider.documentErrand lang t (← settle lang answer)

end Provider

/-- A request to highlight a document, and what is left to do for it. -/
structure Request (World Grammar Query : Type) where
  lang : Text
  text : Text
  rest : Errand World Grammar Query (List Token)

def Request.answer? (request : Request World Grammar Query) :
    Option (Except HighlightError (List Token)) := request.rest.result?

abbrev LoadOutcomes (Grammar Query : Type) := List (Load × Except LoadError (Binding Grammar Query))

structure Scene (World Grammar Query : Type) where
  session : Session World Grammar Query
  /-- The running loads that have read everything and that the registry has not taken in yet. -/
  read : LoadOutcomes Grammar Query
  /-- The loads that have ended. -/
  ended : LoadOutcomes Grammar Query
  /-- All requests so far, in the order in which they came in. -/
  requests : List (Request World Grammar Query)
  strays : List (Stray (Session World Grammar Query) Load (Except LoadError (Binding Grammar Query))
    HighlightError)

namespace Scene

variable (scene : Scene World Grammar Query)

def ofConfigs (world : World) (configs : List LanguageConfig) : Scene World Grammar Query :=
  ⟨.ofConfigs world configs, [], [], [], []⟩

/-- The news of loads that have ended. -/
def Known (load : Load) (outcome : Except LoadError (Binding Grammar Query)) : Prop :=
  (load, outcome) ∈ scene.ended

/-- A running load reads its files. -/
def reading (provider : Provider World Grammar Query) (load : Load) : Scene World Grammar Query :=
  let ((outcome, entries), world) := (provider.load load.config).run scene.session.world
  { scene with
    session := { scene.session with
      world, log := scene.session.log ++ Registry.beginEntry load :: entries }
    read := (load, outcome) :: scene.read }

/-- The registry takes in what a load came to. -/
def taking (load : Load) (outcome : Except LoadError (Binding Grammar Query)) :
    Scene World Grammar Query :=
  let (registry, entries) := scene.session.registry.finish load outcome
  { scene with
    session := { scene.session with registry, log := scene.session.log ++ entries }
    read := scene.read.filter fun known => known.1 ≠ load
    ended := (load, outcome) :: scene.ended }

@[simp] theorem read_taking (load : Load) (outcome : Except LoadError (Binding Grammar Query)) :
    (scene.taking load outcome).read = scene.read.filter fun known => known.1 ≠ load := rfl

/-- A new request comes in. -/
def asking (provider : Provider World Grammar Query) (lang t : Text) : Scene World Grammar Query :=
  { scene with requests := scene.requests ++ [⟨lang, t, provider.errand lang t⟩] }

def reloaded (given : Option (List LanguageConfig)) : Scene World Grammar Query :=
  { scene with session := ((Session.reload given).run scene.session).2 }

/-- What happens by itself: a strand takes a turn, or a load goes on. -/
inductive Move (provider : Provider World Grammar Query) : Scene World Grammar Query →
    Scene World Grammar Query → Prop where
  | request {scene : Scene World Grammar Query} {i : Nat} {request : Request World Grammar Query}
      {s' : Session World Grammar Query} {rest' : Errand World Grammar Query (List Token)}
      {strays : List (Stray _ _ _ _)} (hrequest : scene.requests[i]? = some request)
      (hadvance : request.rest.Advance scene.Known scene.session s' rest' strays) :
      Move provider scene { scene with
        session := s', requests := scene.requests.set i { request with rest := rest' },
        strays := scene.strays ++ strays }
  | stray {scene : Scene World Grammar Query} {i : Nat} {stray : Stray _ _ _ _}
      {s' : Session World Grammar Query} {rest' : Errand World Grammar Query stray.1}
      {strays : List (Stray _ _ _ _)} (hstray : scene.strays[i]? = some stray)
      (hadvance : stray.2.Advance scene.Known scene.session s' rest' strays) :
      Move provider scene { scene with
        session := s', strays := scene.strays.set i ⟨stray.1, rest'⟩ ++ strays }
  | read {scene : Scene World Grammar Query} {load : Load}
      (hrunning : load ∈ scene.session.registry.running)
      (hunread : ∀ outcome, (load, outcome) ∉ scene.read) :
      Move provider scene (scene.reading provider load)
  | take {scene : Scene World Grammar Query} {load : Load}
      {outcome : Except LoadError (Binding Grammar Query)}
      (hrunning : load ∈ scene.session.registry.running) (hread : (load, outcome) ∈ scene.read) :
      Move provider scene (scene.taking load outcome)

/-- A move, a new request, or a change of the surroundings that `edits` allows; none but moves change
them if `edits` is equality. -/
inductive Step (provider : Provider World Grammar Query) (edits : World → World → Prop) :
    Scene World Grammar Query → Scene World Grammar Query → Prop where
  | move {scene scene' : Scene World Grammar Query} (hmove : Move provider scene scene') :
      Step provider edits scene scene'
  | ask {scene : Scene World Grammar Query} (lang t : Text) :
      Step provider edits scene (scene.asking provider lang t)
  | edit {scene : Scene World Grammar Query} {world : World}
      (hedit : edits scene.session.world world) :
      Step provider edits scene { scene with session := { scene.session with world } }

/-- A step or a reload. -/
inductive Turn (provider : Provider World Grammar Query) (edits : World → World → Prop) :
    Scene World Grammar Query → Scene World Grammar Query → Prop where
  | step {scene scene' : Scene World Grammar Query} (hstep : Step provider edits scene scene') :
      Turn provider edits scene scene'
  | reload {scene : Scene World Grammar Query} (given : Option (List LanguageConfig)) :
      Turn provider edits scene (scene.reloaded given)

def Answered : Prop := ∀ request ∈ scene.requests, request.answer?.isSome = true

end Scene

end SemanticHighlight
