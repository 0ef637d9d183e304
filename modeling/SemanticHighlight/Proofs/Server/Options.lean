import SemanticHighlight.Proofs.Config.Entries
import SemanticHighlight.Proofs.Registry.Offering
import SemanticHighlight.Proofs.Server.ClientLanguages

/-!
# Options are taken as a whole or not at all

Everything that can go wrong with the options of an editor goes wrong before the first change of the
state. So options that are not accepted leave the state as it was, but for the log and one more
rejection on record, and options that are accepted have every entry in force that they carry
(`applyOptions_whole`).
-/

namespace SemanticHighlight

namespace Registry

variable {B : Type} {r : Registry B} {lang : Text}

theorem isConfigured_iff : r.isConfigured lang = true ↔ ∃ entry ∈ r.configs, entry.lang = lang := by
  simp [isConfigured, config?, findConfig?]

theorem provides_iff :
    r.provides lang = true ↔ ∃ entry ∈ r.configs, entry.lang = lang ∧ entry.injectionOnly = false := by
  rw [provides, List.contains_iff_mem, mem_documentLanguages]

/-- The entries are those of the items, in their order, and the registry answers for nothing else. -/
structure ServesExactly (homes : Homes) (root : Option Path) (items : List Json) (r : Registry B) :
    Prop where
  entries : List.Forall₂ (LanguageConfig.Stands fun path t => resolveAsset homes root path = .ok t)
    items r.configs
  cached : r.cached = []
  pending : r.pending = []
  isConfigured : ∀ lang, r.isConfigured lang = true ↔ ∃ item ∈ items, item.IsFor lang
  provides : ∀ lang,
    r.provides lang = true ↔ ∃ item ∈ items, item.IsFor lang ∧ ¬ item.IsInjectionOnly

theorem servesExactly_reload {homes : Homes} {root : Option Path} {items : List Json}
    {entries : List LanguageConfig}
    (h : List.Forall₂ (LanguageConfig.Stands fun path t => resolveAsset homes root path = .ok t)
      items entries) (r : Registry B) :
    ServesExactly homes root items (r.reload (some entries)).1 where
  entries := h
  cached := rfl
  pending := rfl
  isConfigured lang := by
    rw [isConfigured_iff]
    exact (Config.exists_mem_iff_of_forall₂ h fun item entry hstands => hstands.isFor_iff).symm
  provides lang := by
    rw [provides_iff]
    refine (Config.exists_mem_iff_of_forall₂ h fun item entry hstands => ?_).symm
    rw [hstands.isFor_iff, hstands.isInjectionOnly_iff, Bool.not_eq_true]

end Registry

variable {World Grammar Query : Type}

namespace ServerState

def adopting (s : ServerState World Grammar Query) (settings : ClientSettings) (config : Config)
    (log : Log) : ServerState World Grammar Query :=
  { s with
    settings := some settings
    verbose := s.verbose || config.debug
    applied := true
    session := { s.session with
      log
      registry := if settings.languages.isSome then
          (s.session.registry.reload (some config.languages)).1
        else s.session.registry } }

/-- The second state is the first but for the log and for one more rejection at most. -/
def Spared (s s' : ServerState World Grammar Query) : Prop :=
  ∃ log rejections, s' = { s with rejections, session := { s.session with log } } ∧
    (rejections = s.rejections ∨ ∃ e, rejections = s.rejections ++ [e])

theorem Spared.refl (s : ServerState World Grammar Query) : s.Spared s :=
  ⟨s.session.log, s.rejections, rfl, Or.inl rfl⟩

end ServerState

namespace Server

open Serving

variable {server : Server World Grammar Query} {s s' : ServerState World Grammar Query}
  {options x : Json} {config : Config}

/-! ## What becomes of the state -/

theorem run_reject (e : ConfigError) (s : ServerState World Grammar Query) :
    ∃ s', (reject e).run.run s = (.ok (), s') ∧ s.Spared s' :=
  ⟨_, rfl, _, s.rejections ++ [e], rfl, Or.inr ⟨e, rfl⟩⟩

theorem run_accept (settings : ClientSettings) (config : Config)
    (s : ServerState World Grammar Query) :
    ∃ log, (accept settings config).run.run s = (.ok (), s.adopting settings config log) := by
  unfold accept ServerState.adopting
  by_cases hlanguages : settings.languages.isSome
  · simp only [if_pos hlanguages]
    exact ⟨_, rfl⟩
  · simp only [if_neg hlanguages]
    exact ⟨_, rfl⟩

theorem run_get_bind {α : Type} (f : ServerState World Grammar Query → Serving World Grammar Query α)
    (s : ServerState World Grammar Query) : (get >>= f).run.run s = (f s).run.run s := rfl

theorem run_bind_pure {α : Type} {work : Serving World Grammar Query Unit} (a : α)
    (h : work.run.run s = (.ok (), s')) :
    (work >>= fun _ => pure a : Serving World Grammar Query α).run.run s = (.ok a, s') := by
  rw [ExceptT.run_bind, run_bind_of_run h]
  rfl

/-- Options that are accepted can be read, and their settings are in force; others spare the state. -/
theorem applyOptions_cases [Config.Services] (server : Server World Grammar Query) (options : Json)
    (s : ServerState World Grammar Query) :
    ((server.applyOptions options).run.run s).1 ≠ .ok true ∧
        s.Spared ((server.applyOptions options).run.run s).2 ∨
      ∃ config log, server.readSettings s.root (.ofOptions options) = .ok config ∧
        (server.applyOptions options).run.run s =
          (.ok true, s.adopting (.ofOptions options) config log) := by
  unfold applyOptions
  dsimp only
  split_ifs
  · exact Or.inl ⟨nofun, .refl s⟩
  · rw [run_get_bind]
    cases hread : server.readSettings s.root (.ofOptions options) with
    | ok config =>
      obtain ⟨log, haccept⟩ := run_accept (.ofOptions options) config s
      exact Or.inr ⟨config, log, rfl, run_bind_pure true haccept⟩
    | error e =>
      refine Or.inl ?_
      cases e with
      | config e =>
        obtain ⟨s', hreject, hspared⟩ := run_reject e s
        dsimp only
        rw [run_bind_pure false hreject]
        exact ⟨nofun, hspared⟩
      | dilemma e => exact ⟨nofun, .refl s⟩
      | unknownHome e => exact ⟨nofun, .refl s⟩

/-! ## What is served -/

theorem field?_document (options : Json) :
    (ClientSettings.ofOptions options).document.field? "languageConfigs" =
      (options.field? "languageConfigs").map Value.ofJson := by
  unfold ClientSettings.document ClientSettings.ofOptions
  cases options.field? "languageConfigs" <;> cases options.field? "debug" <;> rfl

/-- Options that are not accepted, in whatever way that shows, leave the state as it was but for the log
and one more rejection at most. Of options that are accepted exactly the languages are served, if they
have any, and otherwise the session stays as it was but for the log. -/
theorem applyOptions_whole [Config.Services] (server : Server World Grammar Query) (options : Json)
    (s : ServerState World Grammar Query) :
    let ended := (server.applyOptions options).run.run s
    (ended.1 ≠ .ok true → ∃ log rejections,
      ended.2 = { s with rejections, session := { s.session with log } } ∧
        (rejections = s.rejections ∨ ∃ e, rejections = s.rejections ++ [e])) ∧
    (ended.1 = .ok true →
      (∀ x, options.field? "languageConfigs" = some x → ∃ items, x = .list items ∧
        ended.2.session.registry.ServesExactly server.homes s.root items) ∧
      (options.field? "languageConfigs" = none → ∃ log, ended.2.session = { s.session with log })) := by
  intro ended
  rcases applyOptions_cases server options s with ⟨hnot, hspared⟩ | ⟨config, log, hread, hrun⟩
  · exact ⟨fun _ => hspared, fun haccepted => absurd haccepted hnot⟩
  · have hended : ended = (.ok true, s.adopting (.ofOptions options) config log) := hrun
    rw [hended]
    refine ⟨fun hnot => absurd rfl hnot, fun _ => ⟨fun x hx => ?_, fun hnone => ?_⟩⟩
    · have hfield : (ClientSettings.ofOptions options).document.field? "languageConfigs" =
          some (.ofJson x) := by rw [field?_document, hx, Option.map_some]
      have hlanguages : (ClientSettings.ofOptions options).languages.isSome = true := by
        simp [ClientSettings.ofOptions, hx]
      obtain ⟨items, rfl, hitems⟩ := Config.entries_of_read hread hfield
      simp only [ServerState.adopting, if_pos hlanguages]
      exact ⟨items, rfl, Registry.servesExactly_reload hitems _⟩
    · have hlanguages : ¬ (ClientSettings.ofOptions options).languages.isSome = true := by
        simp [ClientSettings.ofOptions, hnone]
      simp only [ServerState.adopting, if_neg hlanguages]
      exact ⟨log, rfl⟩

/-- The second entry of these options has a path that is seen from a root. -/
def thenRelative : Json :=
  let entry (lang parser : Text) : Json :=
    .object [("lang", .text lang), ("parser", .text parser), ("highlights", .text "/q")]
  .object [("languageConfigs", .list [entry "x" "module:g", entry "y" "y.so"]), ("debug", .bool true)]

/-- Without a root the options are rejected for their second entry and nothing of them stays; with a root
they are accepted. -/
theorem applyOptions_whole_thenRelative :
    let bare : ServerState Unit Unit Unit := .ofConfig filelessServer () {} none
    let rooted : ServerState Unit Unit Unit := .ofConfig filelessServer () {} (some ⟨.root, ["work"]⟩)
    let rejected := (filelessServer.applyOptions thenRelative).run.run bare
    let accepted := (filelessServer.applyOptions thenRelative).run.run rooted
    rejected.1 ≠ .ok true ∧ rejected.2.session.registry.configs = [] ∧ rejected.2.verbose = false ∧
      accepted.1 = .ok true ∧ accepted.2.session.registry.isConfigured "y" = true := by
  intro bare rooted rejected accepted
  have hrejected : rejected.1 ≠ .ok true := by
    intro h
    have hfalse : rejected.1.toOption = some false := by decide +kernel
    rw [h] at hfalse
    cases hfalse
  have haccepted : accepted.1 = .ok true := by
    have htrue : accepted.1.toOption = some true := by decide +kernel
    cases h : accepted.1 with
    | error e =>
      rw [h] at htrue
      cases htrue
    | ok answer =>
      rw [h] at htrue
      exact congrArg Except.ok (Option.some.inj htrue)
  obtain ⟨log, rejections, hspared, -⟩ :=
    (applyOptions_whole filelessServer thenRelative bare).1 hrejected
  obtain ⟨items, hitems, hserves⟩ :=
    ((applyOptions_whole filelessServer thenRelative rooted).2 haccepted).1 _ rfl
  cases hitems
  refine ⟨hrejected, ?_, ?_, haccepted, (hserves.isConfigured "y").mpr ?_⟩
  · exact congrArg (fun s' => s'.session.registry.configs) hspared
  · exact congrArg ServerState.verbose hspared
  · exact ⟨_, List.mem_cons_of_mem _ List.mem_cons_self, rfl⟩

end Server
end SemanticHighlight
