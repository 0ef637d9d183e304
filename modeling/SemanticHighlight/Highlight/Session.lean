import SemanticHighlight.Engine.Basic
import SemanticHighlight.Language.Binding
import SemanticHighlight.Registry.Basic
import SemanticHighlight.Token.Legend

/-!
# Sessions

A provider reads texts with an engine and loads languages from surroundings of some kind, files for
instance. A session is what changes while it works: the surroundings, the registry and the log.
-/

namespace SemanticHighlight

/-- What a provider is built from; none of it changes while it works. -/
structure Provider (World Grammar Query : Type) where
  engine : Engine Grammar Query
  /-- Loads a language, which may change the surroundings. -/
  load : LanguageConfig → StateM World (Except LoadError (Binding Grammar Query) × Log)
  legend : Legend
  /-- How deep injections may nest. -/
  maxDepth : Nat

structure Session (World Grammar Query : Type) where
  world : World
  registry : Registry (Binding Grammar Query)
  log : Log

inductive ResolveError where
  | unconfigured (lang : Text)
  | failed (e : LoadError)
  deriving DecidableEq, Repr

namespace ResolveError

def unconfiguredMessage (lang : Text) : Text := "No configuration for language '" ++ lang ++ "'"

def message : ResolveError → Text
  | unconfigured lang => unconfiguredMessage lang
  | failed e => e.message

end ResolveError

variable {World Grammar Query : Type}

abbrev Work (World Grammar Query : Type) := StateM (Session World Grammar Query)

namespace Session

def ofConfigs (world : World) (configs : List LanguageConfig) : Session World Grammar Query :=
  ⟨world, .ofConfigs configs,
    [⟨.debug, .provider,
      "Configured languages: " ++ Text.join ", " (configs.map LanguageConfig.lang)⟩]⟩

def report (entries : Log) : Work World Grammar Query Unit :=
  modify fun s => { s with log := s.log ++ entries }

def runLoad (provider : Provider World Grammar Query) (load : Load) :
    Work World Grammar Query (Except LoadError (Binding Grammar Query)) := do
  report [Registry.beginEntry load]
  let s ← get
  let ((outcome, entries), world) := (provider.load load.config).run s.world
  let (registry, more) := s.registry.finish load outcome
  set { s with world, registry, log := s.log ++ entries ++ more }
  return outcome

/-- The binding of a language, loaded if it has to be. -/
def resolve (provider : Provider World Grammar Query) (lang : Text) :
    Work World Grammar Query (Except ResolveError (Binding Grammar Query)) := do
  let s ← get
  let (answer, registry) := s.registry.request lang
  set { s with registry }
  match answer with
  | .cached held => return .ok held.binding
  | .unconfigured => return .error (.unconfigured lang)
  | .waiting load => return (← runLoad provider load).mapError .failed

/-- Discards every binding, and takes other entries if some are given. -/
def reload (configs : Option (List LanguageConfig)) : Work World Grammar Query Unit :=
  modify fun s =>
    let (registry, entries) := s.registry.reload configs
    { s with registry, log := s.log ++ entries }

end Session

end SemanticHighlight
