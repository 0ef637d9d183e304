import SemanticHighlight.Language.Config
import SemanticHighlight.Language.LoadFailure
import SemanticHighlight.Log

/-!
# The registry of languages

The registry keeps one binding for each language and lets at most one load of a language run at a
time. Whoever asks for a language gets the binding, or waits for the load that is on its way, or
starts one. A reload forgets both and counts a new generation; a load of an earlier generation still
ends for those who wait for it, and leaves no trace in the registry.
-/

namespace SemanticHighlight

/-- A load that was started: its number, the entry it reads and the generation it belongs to. -/
structure Load where
  number : Nat
  config : LanguageConfig
  generation : Nat
  deriving DecidableEq, Repr

/-- A binding together with the load that built it. -/
structure Held (B : Type) where
  load : Load
  binding : B
  deriving Repr

structure Registry (B : Type) where
  configs : List LanguageConfig
  cached : List (Text × Held B)
  pending : List (Text × Load)
  /-- The loads that were started and have not ended, in order. -/
  running : List Load
  generation : Nat
  /-- How many loads were started so far. -/
  started : Nat
  deriving Repr

/-- What the registry says to a request for a language. -/
inductive Answer (B : Type) where
  | cached (held : Held B)
  | waiting (load : Load)
  | unconfigured

namespace Registry

variable {B : Type}

def ofConfigs (configs : List LanguageConfig) : Registry B := ⟨configs, [], [], [], 0, 0⟩

def languages (r : Registry B) : List Text := r.configs.map LanguageConfig.lang

def loadedLanguages (r : Registry B) : List Text := Text.sort (r.cached.map Prod.fst)

def config? (r : Registry B) (lang : Text) : Option LanguageConfig := findConfig? r.configs lang

def isConfigured (r : Registry B) (lang : Text) : Bool := (r.config? lang).isSome

def provides (r : Registry B) (lang : Text) : Bool := (documentLanguages r.configs).contains lang

/-- Asks for a language, which starts a load if there is none to wait for. -/
def request (r : Registry B) (lang : Text) : Answer B × Registry B :=
  match r.cached.lookup lang with
  | some held => (.cached held, r)
  | none =>
    match r.pending.lookup lang with
    | some load => (.waiting load, r)
    | none =>
      match r.config? lang with
      | none => (.unconfigured, r)
      | some config =>
        let load : Load := ⟨r.started, config, r.generation⟩
        (.waiting load,
          { r with
            pending := (lang, load) :: r.pending
            running := r.running ++ [load]
            started := r.started + 1 })

/-- Ends a load. Only one of the current generation is kept, and only if it succeeded. -/
def finish (r : Registry B) (load : Load) (outcome : Except LoadError B) : Registry B × Log :=
  let r := { r with running := r.running.filter fun l => l ≠ load }
  let lang := load.config.lang
  if load.generation = r.generation then
    let r := { r with pending := r.pending.filter fun p => p.1 ≠ lang }
    match outcome with
    | .ok binding => ({ r with cached := (lang, ⟨load, binding⟩) :: r.cached }, [])
    | .error _ => (r, [])
  else
    match outcome with
    | .ok _ =>
      (r, [⟨.debug, .registry, "Discarding binding for " ++ lang ++ " loaded before a reload"⟩])
    | .error _ => (r, [])

/-- Forgets all bindings and pending loads, and takes other entries if some are given. -/
def reload (r : Registry B) (configs : Option (List LanguageConfig)) : Registry B × Log :=
  ({ r with
      configs := configs.getD r.configs
      cached := []
      pending := []
      generation := r.generation + 1 },
    [⟨.info, .registry, "Language registry reloaded, discarded " ++
      Text.ofNat r.cached.length ++ " bindings"⟩])

def beginEntry (load : Load) : LogEntry :=
  ⟨.debug, .registry, "Initializing language: " ++ load.config.lang⟩

end Registry

end SemanticHighlight
