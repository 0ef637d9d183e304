import SemanticHighlight.Proofs.Server.Roots

/-!
# Where the languages of a server stand

Which languages a server serves, and which it will serve after a reload, is decided by its root, the
settings that it accepted last, its configuration and the entries of its registry. Settings of an
editor change this if they are accepted and only then (`step_optionsChanged`). What a reload comes to
depends on the settings accepted last: with languages in them it serves what it served before
(`leads_reload_languages`), without them it serves the configuration (`leads_reload_silent`).
-/

namespace SemanticHighlight

/-- What of a state decides which languages are served, now and after a reload. -/
structure Standing where
  root : Option Path
  settings : Option ClientSettings
  config : Config
  /-- The entries that are served. -/
  configs : List LanguageConfig

namespace Standing

/-- What accepted settings, with the configuration that they amount to, make of it. -/
def accepting (x : Standing) (given : ClientSettings × Config) : Standing :=
  { x with
    settings := some given.1
    configs := if given.1.languages.isSome then given.2.languages else x.configs }

end Standing

variable {World Grammar Query : Type}

def ServerState.standing (s : ServerState World Grammar Query) : Standing :=
  ⟨s.root, s.settings, s.config, s.session.registry.configs⟩

namespace Server

open Serving

/-! ## Accepted settings -/

/-- The settings that an event puts into force, with the configuration that they amount to. -/
def accepted? [Config.Services] (server : Server World Grammar Query) (root : Option Path) :
    ServerEvent World → Option (ClientSettings × Config)
  | .optionsChanged options =>
    let settings := ClientSettings.ofOptions options
    if settings.isEmpty then none
    else (server.readSettings root settings).toOption.map fun config => (settings, config)
  | _ => none

variable {server : Server World Grammar Query} {x : Standing} {root : Option Path}
  {event : ServerEvent World} {fails : ServerError → ServerState World Grammar Query → Prop}

theorem readSettings_of_accepted? [Config.Services] {given : ClientSettings × Config}
    (h : server.accepted? root event = some given) :
    server.readSettings root given.1 = .ok given.2 := by
  unfold accepted? at h
  split at h
  · dsimp only at h
    split_ifs at h
    obtain ⟨config, hconfig, rfl⟩ := Option.map_eq_some_iff.mp h
    dsimp only
    cases hread : server.readSettings root (ClientSettings.ofOptions _) with
    | error e => simp [hread, Except.toOption] at hconfig
    | ok config' =>
      rw [hread] at hconfig
      cases hconfig
      rfl
  · cases h

/-! ## What parts of an event do -/

theorem leads_modify_standing {f : ServerState World Grammar Query → ServerState World Grammar Query}
    (h : ∀ s, (f s).standing = s.standing) :
    Leads (fun s => s.standing = x) (modify f) (fun _ s => s.standing = x) fails :=
  leads_modify fun s hs => (h s).trans hs

theorem leads_report (severity : Severity) (source : LogSource) (message : Text) :
    Leads (fun s => s.standing = x)
      (Serving.report severity source message : Serving World Grammar Query Unit)
      (fun _ s => s.standing = x) fails := leads_modify_standing fun _ => rfl

/-- Every binding is discarded, and other entries are served if some are given. -/
theorem leads_discard (given : Option (List LanguageConfig)) :
    Leads (fun s => s.standing = x)
      (Serving.onSession (Session.reload given) : Serving World Grammar Query Unit)
      (fun _ s => s.standing = { x with configs := given.getD x.configs }) fails := by
  refine leads_onSession fun s hs => ?_
  rw [← hs]
  rfl

theorem leads_accept (settings : ClientSettings) (config : Config) :
    Leads (fun s => s.standing = x) (accept settings config : Serving World Grammar Query Unit)
      (fun _ s => s.standing = x.accepting (settings, config)) fails := by
  have hset : Leads (fun s => s.standing = x) (modify fun s =>
      { s with settings := some settings, verbose := s.verbose || config.debug } :
        Serving World Grammar Query Unit)
      (fun _ s => s.standing = { x with settings := some settings }) fails := by
    refine leads_modify fun s hs => ?_
    rw [← hs]
    rfl
  have hrest : ∀ y : Standing, Leads (fun s => s.standing = y) (do
      modify fun s => { s with applied := true }
      Serving.report .info .server "LSP: Applied client settings" :
        Serving World Grammar Query Unit) (fun _ s => s.standing = y) fails := fun y =>
    leads_bind (leads_modify_standing fun _ => rfl) fun _ => leads_report _ _ _
  unfold accept
  apply leads_bind hset
  intro _
  unfold Standing.accepting
  dsimp only
  split_ifs
  · exact leads_bind (leads_discard _) fun _ => hrest _
  · exact hrest _

variable [Config.Services]

theorem leads_applyOptions (options : Json) :
    Leads (fun s => s.standing = x) (server.applyOptions options)
      (fun accepted s =>
        accepted = (server.accepted? x.root (.optionsChanged options)).isSome ∧
        s.standing = (server.accepted? x.root (.optionsChanged options)).elim x x.accepting)
      fun _ s => server.accepted? x.root (.optionsChanged options) = none ∧ s.standing = x := by
  unfold applyOptions accepted?
  dsimp only
  split_ifs
  · exact leads_pure fun s hs => ⟨rfl, hs⟩
  · apply leads_read_bind
    intro s hs
    have hroot : s.root = x.root := congrArg Standing.root hs
    rw [hroot]
    cases server.readSettings x.root (ClientSettings.ofOptions options) with
    | ok config => exact leads_bind (leads_accept _ config) fun _ => leads_pure fun s hs => ⟨rfl, hs⟩
    | error e =>
      cases e with
      | config e =>
        have hreject : Leads (fun s => s.standing = x)
            (reject e : Serving World Grammar Query Unit) (fun _ s => s.standing = x)
            fun _ s => none = (none : Option (ClientSettings × Config)) ∧ s.standing = x :=
          leads_bind (leads_modify_standing fun _ => rfl) fun _ => leads_report _ _ _
        exact leads_bind hreject fun _ => leads_pure fun s hs => ⟨rfl, hs⟩
      | dilemma e => exact leads_throw fun s hs => ⟨rfl, hs⟩
      | unknownHome e => exact leads_throw fun s hs => ⟨rfl, hs⟩

theorem leads_reloadConfig :
    Leads (fun s => s.standing = x) server.reloadConfig
      (fun read s => ∃ config : Config, read = config.languages ∧ s.standing = { x with config })
      fun _ s => s.standing = x := by
  unfold reloadConfig
  apply leads_read_bind
  intro s hs
  have hconfig : s.config = x.config := congrArg Standing.config hs
  rw [hconfig]
  cases server.configPath with
  | none => exact leads_pure fun s hs => ⟨x.config, rfl, hs⟩
  | some path =>
    dsimp only
    have hrelay : ∀ entries, Leads (fun s => s.standing = x)
        (Serving.relay entries : Serving World Grammar Query Unit) (fun _ s => s.standing = x)
        fun _ s => s.standing = x := fun _ => leads_modify_standing fun _ => rfl
    apply leads_bind (hrelay _)
    intro _
    cases (Config.load server.homes (server.files s.session.world) path s.root).1 with
    | ok config =>
      have hset : Leads (fun s => s.standing = x)
          (modify fun s => { s with config } : Serving World Grammar Query Unit)
          (fun _ s => s.standing = { x with config }) fun _ s => s.standing = x := by
        refine leads_modify fun s hs => ?_
        rw [← hs]
        rfl
      exact leads_bind hset fun _ => leads_pure fun s hs => ⟨config, rfl, hs⟩
    | error e =>
      dsimp only
      cases e.config? with
      | none => exact leads_throw fun s hs => hs
      | some e =>
        exact leads_bind (leads_report _ _ _) fun _ => leads_pure fun s hs => ⟨x.config, rfl, hs⟩

/-- Settings with languages that can be read decide what a reload serves. -/
theorem leads_overrideLanguages {settings : ClientSettings} {config : Config}
    (hsettings : x.settings = some settings) (hlanguages : settings.languages.isSome)
    (hread : server.readSettings x.root settings = .ok config) (configs : List LanguageConfig) :
    Leads (fun s => s.standing = x) (server.overrideLanguages configs)
      (fun given s => given = config.languages ∧ s.standing = x) fails := by
  unfold overrideLanguages
  apply leads_read_bind
  intro s hs
  have hkept : s.settings = some settings := (congrArg Standing.settings hs).trans hsettings
  have hroot : s.root = x.root := congrArg Standing.root hs
  have hfilter : (some settings).filter (·.languages.isSome) = some settings := by
    simp [Option.filter, hlanguages]
  rw [hkept, hfilter, hroot]
  dsimp only
  rw [hread]
  exact leads_pure fun s hs => ⟨rfl, hs⟩

/-- With languages in the accepted settings a reload serves what was served before. -/
theorem leads_reload_languages {settings : ClientSettings} {config : Config}
    (hsettings : x.settings = some settings) (hlanguages : settings.languages.isSome)
    (hread : server.readSettings x.root settings = .ok config) (hserved : x.configs = config.languages) :
    Leads (fun s => s.standing = x) server.reload
      (fun _ s => ∃ config, s.standing = { x with config })
      fun _ s => ∃ config, s.standing = { x with config } := by
  unfold reload
  apply leads_bind (leads_report _ _ _)
  intro _
  apply leads_bind (leads_reloadConfig.imp (fun _ _ h => h) fun _ s hs => ⟨x.config, hs⟩)
  rintro read s ⟨reread, rfl, hs⟩
  revert s
  have hoverride : Leads (fun s => s.standing = { x with config := reread })
      (server.overrideLanguages reread.languages)
      (fun given s => given = config.languages ∧ s.standing = { x with config := reread })
      fun _ s => ∃ config, s.standing = { x with config } :=
    leads_overrideLanguages (x := { x with config := reread }) hsettings hlanguages hread _
  refine leads_bind hoverride ?_
  rintro given s ⟨rfl, hs⟩
  refine (leads_discard (some config.languages)).imp ?_ (fun _ _ h => h) s hs
  intro _ s hs
  exact ⟨reread, hserved ▸ hs⟩

theorem leads_reload_silent (hsilent : ∀ settings ∈ x.settings, settings.languages = none) :
    Leads (fun s => s.standing = x) server.reload
      (fun _ s => s.standing.configs = s.standing.config.languages ∧
        ∃ config configs, s.standing = { x with config, configs })
      fun _ s => s.standing = x := by
  unfold reload
  apply leads_bind (leads_report _ _ _)
  intro _
  apply leads_bind leads_reloadConfig
  rintro read s ⟨reread, rfl, hs⟩
  have hoverride : Leads (fun s => s.standing = { x with config := reread })
      (server.overrideLanguages reread.languages)
      (fun given s => s.standing = { x with config := reread } ∧ given = reread.languages)
      fun _ s => s.standing = x := by
    refine Lasting.overrideLanguages_none (fun s hs settings hmem => ?_) reread.languages
    exact hsilent settings (congrArg Standing.settings hs ▸ hmem)
  refine leads_bind hoverride ?_ s hs
  rintro given s ⟨hs, rfl⟩
  refine (leads_discard (some reread.languages)).imp ?_ (fun _ _ h => h) s hs
  intro _ s hs
  rw [hs]
  exact ⟨rfl, reread, reread.languages, rfl⟩

/-! ## One event -/

theorem ended_step (server : Server World Grammar Query) {event : ServerEvent World}
    {start : ServerState World Grammar Query → Prop}
    {gives : ServerReply → ServerState World Grammar Query → Prop}
    (h : Leads start (server.handle event) gives fails) {s : ServerState World Grammar Query}
    (hs : start s) : Ended gives fails (server.step s event) := h s hs

theorem leads_reloadRequested {start gives : ServerState World Grammar Query → Prop}
    (h : Leads start server.reload (fun _ => gives) fails) :
    Leads start (server.handle .reloadRequested) (fun _ => gives) fails :=
  leads_bind h fun _ => leads_pure fun _ hs => hs

/-- The reply to settings tells whether they were accepted. -/
theorem step_optionsChanged (server : Server World Grammar Query)
    (s : ServerState World Grammar Query) (options : Json) :
    ((server.step s (.optionsChanged options)).1 = .ok (.accepted true) ↔
        (server.accepted? s.root (.optionsChanged options)).isSome) ∧
      (server.step s (.optionsChanged options)).2.standing =
        (server.accepted? s.root (.optionsChanged options)).elim s.standing s.standing.accepting := by
  have hhandle : Leads (fun s' => s'.standing = s.standing) (server.handle (.optionsChanged options))
      (fun reply s' =>
        reply = .accepted (server.accepted? s.root (.optionsChanged options)).isSome ∧
        s'.standing =
          (server.accepted? s.root (.optionsChanged options)).elim s.standing s.standing.accepting)
      fun _ s' =>
        server.accepted? s.root (.optionsChanged options) = none ∧ s'.standing = s.standing :=
    leads_bind (leads_applyOptions options) fun accepted =>
      leads_pure fun s' hs' => ⟨congrArg ServerReply.accepted hs'.1, hs'.2⟩
  have hended := ended_step server hhandle rfl
  rcases hrun : server.step s (.optionsChanged options) with ⟨e | reply, s₁⟩
  · rw [hrun] at hended
    obtain ⟨hnone, hstanding⟩ := hended
    simp [hnone, hstanding]
  · rw [hrun] at hended
    obtain ⟨rfl, hstanding⟩ := hended
    simp [hstanding]

theorem step_reload_keeps (server : Server World Grammar Query)
    (s : ServerState World Grammar Query) :
    (server.step s .reloadRequested).2.root = s.root ∧
      (server.step s .reloadRequested).2.settings = s.settings := by
  have hlasting : Lasting server fun s' => s'.root = s.root ∧ s'.settings = s.settings :=
    ⟨fun hs hroot hsettings _ => ⟨hroot.trans hs.1, hsettings.trans hs.2⟩, fun _ _ hs => hs⟩
  have hreload : Leads (fun s' => s'.root = s.root ∧ s'.settings = s.settings) server.reload
      (fun _ s' => s'.root = s.root ∧ s'.settings = s.settings)
      fun _ s' => s'.root = s.root ∧ s'.settings = s.settings :=
    hlasting.reload.imp (fun _ _ h => h) fun _ _ h => h.2
  exact (ended_step server (leads_reloadRequested hreload) ⟨rfl, rfl⟩).state

end Server
end SemanticHighlight
