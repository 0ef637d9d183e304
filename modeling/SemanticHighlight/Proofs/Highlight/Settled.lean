import SemanticHighlight.Proofs.Highlight.Agreement
import SemanticHighlight.Proofs.Registry.Consistency

/-!
# Settled sessions

In a settled session nothing is on its way, and every binding that is kept is what a load of its
language would come to now. If loads leave each other alone, a request for a language gives what a
load would come to (`Settled.resolve`), and the session stays settled. So two sessions with the same
entries and the same loads give every document the same tokens, whatever each of them has loaded
before (`Settled.highlight_eq`).
-/

namespace SemanticHighlight

variable {World Grammar Query : Type}

namespace Provider

/-- What the load of an entry comes to. -/
def loaded (provider : Provider World Grammar Query) (world : World) (config : LanguageConfig) :
    Except LoadError (Binding Grammar Query) := ((provider.load config).run world).1.1

def afterLoad (provider : Provider World Grammar Query) (world : World) (config : LanguageConfig) :
    World := ((provider.load config).run world).2

/-- A load changes nothing about what loads come to. -/
def LoadsApart (provider : Provider World Grammar Query) : Prop :=
  ∀ world config, provider.loaded (provider.afterLoad world config) = provider.loaded world

end Provider

namespace Session

variable {provider : Provider World Grammar Query} {configs : List LanguageConfig}
  {answer : LanguageConfig → Except LoadError (Binding Grammar Query)}
  {s s' : Session World Grammar Query} {lang t : Text}

/-- The session has these entries, their loads come to these answers, and so do those that were kept. -/
structure Settled (provider : Provider World Grammar Query) (configs : List LanguageConfig)
    (answer : LanguageConfig → Except LoadError (Binding Grammar Query))
    (s : Session World Grammar Query) : Prop where
  entries : s.registry.configs = configs
  idle : s.registry.pending = []
  loaded : ∀ config ∈ configs, provider.loaded s.world config = answer config
  cached : ∀ lang held, (lang, held) ∈ s.registry.cached →
    ∃ config, findConfig? configs lang = some config ∧ answer config = .ok held.binding

theorem settled_ofConfigs (provider : Provider World Grammar Query) (world : World)
    (configs : List LanguageConfig) :
    (ofConfigs world configs).Settled provider configs (provider.loaded world) where
  entries := rfl
  idle := rfl
  loaded _ _ := rfl
  cached _ _ hheld := absurd hheld List.not_mem_nil

/-- A reload settles any session. -/
theorem settled_reload (provider : Provider World Grammar Query)
    (given : Option (List LanguageConfig)) (s : Session World Grammar Query) :
    ((reload given).run s).2.Settled provider (given.getD s.registry.configs)
      (provider.loaded s.world) where
  entries := rfl
  idle := rfl
  loaded _ _ := rfl
  cached _ _ hheld := absurd hheld List.not_mem_nil

theorem Settled.isConfigured (h : s.Settled provider configs answer) :
    s.registry.isConfigured = fun lang => (findConfig? configs lang).isSome := by
  funext lang
  rw [Registry.isConfigured, Registry.config?, h.entries]

theorem Settled.report (h : s.Settled provider configs answer) (entries : Log) :
    Settled provider configs answer { s with log := s.log ++ entries } :=
  ⟨h.entries, h.idle, h.loaded, h.cached⟩

theorem run_runLoad (provider : Provider World Grammar Query) (load : Load)
    (s : Session World Grammar Query) :
    ∃ log, (runLoad provider load).run s =
      (provider.loaded s.world load.config,
        ⟨provider.afterLoad s.world load.config,
          (s.registry.finish load (provider.loaded s.world load.config)).1, log⟩) :=
  ⟨_, rfl⟩

/-- The registry answers first; a load is run in the session that this leaves. -/
theorem run_resolve (provider : Provider World Grammar Query) (lang : Text)
    (s : Session World Grammar Query) :
    (Session.resolve provider lang).run s =
      StateT.run (match (s.registry.request lang).1 with
        | .cached held => return .ok held.binding
        | .unconfigured => return .error (.unconfigured lang)
        | .waiting load => return (← runLoad provider load).mapError .failed)
        { s with registry := (s.registry.request lang).2 } :=
  rfl

/-- The registry once the load of a language that is not kept was started and has ended. -/
def finished (r : Registry (Binding Grammar Query)) (lang : Text) (config : LanguageConfig)
    (outcome : Except LoadError (Binding Grammar Query)) : Registry (Binding Grammar Query) :=
  ((r.begun lang config).finish (r.nextLoad config) outcome).1

theorem Settled.finished (hload : provider.LoadsApart) (h : s.Settled provider configs answer)
    {config : LanguageConfig} (hconfig : findConfig? configs lang = some config) (log : Log) :
    Settled provider configs answer ⟨provider.afterLoad s.world config,
      Session.finished s.registry lang config (answer config), log⟩ := by
  have hlang : config.lang = lang := findConfig?_lang hconfig
  have hpending : ((s.registry.begun lang config).released
      (s.registry.nextLoad config)).pending = [] := by
    simp [Registry.released, Registry.begun, Registry.ended, Registry.nextLoad, h.idle, hlang]
  have hcurrent : (s.registry.nextLoad config).generation =
      (s.registry.begun lang config).generation := rfl
  have hafter : ∀ other ∈ configs,
      provider.loaded (provider.afterLoad s.world config) other = answer other := by
    intro other hother
    rw [hload s.world config, h.loaded other hother]
  unfold Session.finished
  cases hanswer : answer config with
  | error e =>
    rw [Registry.finish_error hcurrent]
    exact ⟨h.entries, hpending, hafter, h.cached⟩
  | ok binding =>
    rw [Registry.finish_ok hcurrent]
    refine ⟨h.entries, hpending, hafter, ?_⟩
    intro key held hheld
    rcases List.mem_cons.mp hheld with heq | hheld
    · cases heq
      refine ⟨config, ?_, hanswer⟩
      rw [← hconfig, ← hlang]
      rfl
    · exact h.cached key held hheld

/-- What a request for a language comes to if nothing was ever kept. -/
def answerTo (configs : List LanguageConfig)
    (answer : LanguageConfig → Except LoadError (Binding Grammar Query)) (lang : Text) :
    Except ResolveError (Binding Grammar Query) :=
  match findConfig? configs lang with
  | none => .error (.unconfigured lang)
  | some config => (answer config).mapError .failed

theorem Settled.resolve (hload : provider.LoadsApart) (h : s.Settled provider configs answer)
    (lang : Text) :
    ((Session.resolve provider lang).run s).1 = answerTo configs answer lang ∧
      ((Session.resolve provider lang).run s).2.Settled provider configs answer := by
  have hrequested := s.registry.requested_request lang
  unfold answerTo
  rw [run_resolve]
  generalize s.registry.request lang = asked at hrequested
  cases hrequested with
  | cached hcached =>
    obtain ⟨config, hconfig, hanswer⟩ := h.cached lang _ (mem_of_lookup hcached)
    rw [hconfig]
    dsimp only
    rw [hanswer]
    exact ⟨rfl, h⟩
  | joined hcached hpending =>
    rw [h.idle] at hpending
    cases hpending
  | unconfigured hcached hpending hconfig =>
    rw [Registry.config?, h.entries] at hconfig
    rw [hconfig]
    exact ⟨rfl, h⟩
  | @begun config hcached hpending hconfig =>
    rw [Registry.config?, h.entries] at hconfig
    obtain ⟨log, hrun⟩ := run_runLoad provider (s.registry.nextLoad config)
      { s with registry := s.registry.begun lang config }
    have hanswer : provider.loaded s.world (s.registry.nextLoad config).config = answer config :=
      h.loaded config (List.mem_of_find?_eq_some hconfig)
    rw [hanswer] at hrun
    rw [hconfig]
    dsimp only
    rw [run_bind_of_run hrun]
    exact ⟨rfl, h.finished hload hconfig log⟩

/-- Sessions with the same entries and the same loads. -/
def BothSettled (provider : Provider World Grammar Query) (configs : List LanguageConfig)
    (answer : LanguageConfig → Except LoadError (Binding Grammar Query))
    (s s' : Session World Grammar Query) : Prop :=
  s.Settled provider configs answer ∧ s'.Settled provider configs answer

theorem indistinct_settled (hload : provider.LoadsApart) :
    provider.Indistinct (BothSettled provider configs answer) where
  isConfigured s s' h := h.1.isConfigured.trans h.2.isConfigured.symm
  report entries s s' h := ⟨rfl, h.1.report entries, h.2.report entries⟩
  resolve lang s s' h := by
    obtain ⟨hanswer, hafter⟩ := h.1.resolve hload lang
    obtain ⟨hanswer', hafter'⟩ := h.2.resolve hload lang
    rw [Attempt.outcome_lift, Attempt.outcome_lift]
    exact ⟨congrArg Except.ok (hanswer.trans hanswer'.symm), hafter, hafter'⟩

/-- What a document comes to does not depend on what was loaded before. -/
theorem Settled.highlight_eq (hload : provider.LoadsApart) (h : s.Settled provider configs answer)
    (h' : s'.Settled provider configs answer) (lang t : Text) :
    ((provider.highlight lang t).outcome s).1 = ((provider.highlight lang t).outcome s').1 :=
  ((indistinct_settled hload).highlight lang t s s' ⟨h, h'⟩).1

end Session

/-! ## The surroundings -/

namespace Provider

variable {provider : Provider World Grammar Query} {s : Session World Grammar Query}

theorem world_resolve (provider : Provider World Grammar Query) (lang : Text)
    (s : Session World Grammar Query) :
    ((Session.resolve provider lang).run s).2.world = s.world ∨
      ∃ config, ((Session.resolve provider lang).run s).2.world =
        provider.afterLoad s.world config := by
  rw [Session.run_resolve]
  cases (s.registry.request lang).1 with
  | cached held => exact Or.inl rfl
  | unconfigured => exact Or.inl rfl
  | waiting load => exact Or.inr ⟨load.config, rfl⟩

/-- What every load keeps is kept by highlighting. -/
theorem world_highlight {P : World → Prop}
    (hload : ∀ world config, P world → P (provider.afterLoad world config)) (h : P s.world)
    (lang t : Text) : P ((provider.highlight lang t).outcome s).2.world := by
  have hindistinct : provider.Indistinct fun s s' => s = s' ∧ P s.world := by
    refine ⟨?_, ?_, ?_⟩
    · rintro s s' ⟨rfl, -⟩
      rfl
    · rintro entries s s' ⟨rfl, hs⟩
      exact ⟨rfl, rfl, hs⟩
    · rintro lang s s' ⟨rfl, hs⟩
      refine ⟨rfl, rfl, ?_⟩
      rw [Attempt.outcome_lift]
      rcases world_resolve provider lang s with hsame | ⟨config, hloaded⟩
      · exact hsame ▸ hs
      · exact hloaded ▸ hload s.world config hs
  exact (hindistinct.highlight lang t s s ⟨rfl, h⟩).2.2

end Provider

end SemanticHighlight
