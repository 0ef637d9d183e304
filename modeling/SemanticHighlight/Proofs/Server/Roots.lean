import SemanticHighlight.Proofs.Config.Roots
import SemanticHighlight.Proofs.Highlight.Caching
import SemanticHighlight.Proofs.Server.Lasting

/-!
# What a reload makes of an unchanged configuration

A server that was started without a root takes over the root of its editor, and a reload sees the
paths of the configuration file from there. So entries change by a reload although the file is as it
was, exactly if an editor named a place other than that of the file and some path in the file is
relative (`configs_reload`).
-/

namespace SemanticHighlight

/-! ## Roots -/

theorem Introduction.normal_named? {i : Introduction} {root : Path} (h : i.named? = some root) :
    root.Normal := by
  unfold named? at h
  split at h
  · cases h
  · cases hnamed : i.root? with
    | error e => simp [hnamed, Except.toOption] at h
    | ok named =>
      obtain ⟨path, -, hpath⟩ := bind_eq_ok.mp hnamed
      cases hpath
      rw [hnamed] at h
      obtain ⟨t, -, rfl⟩ := Option.map_eq_some_iff.mp h
      exact Path.normal_ofText t

namespace Server

variable {World Grammar Query : Type}

theorem rootAfter_some (root : Path) (events : List (ServerEvent World)) :
    rootAfter (some root) events = some root := by
  induction events with
  | nil => rfl
  | cons event rest ih =>
    have hkept : event.rootAfter (some root) = some root := by cases event <;> rfl
    rw [rootAfter, List.foldl_cons, hkept]
    exact ih

theorem normal_rootAfter {root : Option Path} (hroot : ∀ r ∈ root, r.Normal)
    (events : List (ServerEvent World)) : ∀ r ∈ rootAfter root events, r.Normal := by
  induction events generalizing root with
  | nil => exact hroot
  | cons event rest ih =>
    refine ih fun r hr => ?_
    cases event with
    | introduced i =>
      rcases Option.or_eq_some_iff.mp hr with hkept | ⟨-, hnamed⟩
      · exact hroot r hkept
      · exact Introduction.normal_named? hnamed
    | _ => exact hroot r hr

/-! ## Reloads -/

open Serving

variable [Config.Services] {server : Server World Grammar Query}
  {I : ServerState World Grammar Query → Prop} {path : Path} {config : Config}
  {fails : ServerError → ServerState World Grammar Query → Prop}

namespace Lasting

theorem reloadConfig_load (h : Lasting server I) (hpath : server.configPath = some path)
    (hload : ∀ s, I s →
      (Config.load server.homes (server.files s.session.world) path s.root).1 = .ok config) :
    Leads I server.reloadConfig (fun configs s => I s ∧ configs = config.languages) fails := by
  unfold Server.reloadConfig
  apply leads_read_bind
  intro s hs
  rw [hpath]
  dsimp only
  apply leads_bind (h.relay _)
  intro _
  rw [hload s hs]
  refine leads_bind (h.change ?_ ?_ ?_) fun _ => leads_pure fun _ hs => ⟨hs, rfl⟩
  all_goals exact fun _ => rfl

theorem overrideLanguages_none
    (hsettings : ∀ s, I s → ∀ settings ∈ s.settings, settings.languages = none)
    (configs : List LanguageConfig) :
    Leads I (server.overrideLanguages configs) (fun given s => I s ∧ given = configs) fails := by
  unfold Server.overrideLanguages
  apply leads_read_bind
  intro s hs
  have hnone : s.settings.filter (·.languages.isSome) = none :=
    Option.filter_eq_none_iff.mpr fun settings hmem => by simp [hsettings s hs settings hmem]
  rw [hnone]
  exact leads_pure fun _ hs => ⟨hs, rfl⟩

theorem configs_step_reload (h : Lasting server I) (hpath : server.configPath = some path)
    (hload : ∀ s, I s →
      (Config.load server.homes (server.files s.session.world) path s.root).1 = .ok config)
    (hsettings : ∀ s, I s → ∀ settings ∈ s.settings, settings.languages = none)
    {s : ServerState World Grammar Query} (hs : I s) :
    (server.step s .reloadRequested).2.session.registry.configs = config.languages := by
  have hreload : Leads I server.reload (fun _ s => s.session.registry.configs = config.languages)
      fun _ s => s.session.registry.configs = config.languages := by
    apply leads_bind (h.report _ _ _)
    intro _
    apply leads_bind (h.reloadConfig_load hpath hload)
    intro configs
    apply leads_assuming
    rintro rfl
    apply leads_bind (overrideLanguages_none hsettings _)
    intro given
    apply leads_assuming
    rintro rfl
    exact leads_onSession fun _ _ => rfl
  have hhandle : Leads I (server.handle .reloadRequested)
      (fun _ s => s.session.registry.configs = config.languages)
      fun _ s => s.session.registry.configs = config.languages :=
    leads_bind hreload fun _ => leads_pure fun _ hconfigs => hconfigs
  exact (hhandle s hs).state

end Lasting

end Server

/-! ## The configuration file -/

section File

variable {World Grammar Query : Type} {view : World → FileTree} {path : Path} {files : FileTree}

/-- The event brings no languages and does not modify the file at the path. -/
def ServerEvent.Quiet (view : World → FileTree) (path : Path) (files : FileTree) :
    ServerEvent World → Prop
  | introduced i => (ClientSettings.ofOptions i.options).languages = none
  | optionsChanged options => (ClientSettings.ofOptions options).languages = none
  | worldChanged change =>
    ∀ world, files.Unmodified path (view world) → files.Unmodified path (view (change world))
  | _ => True

namespace Server

/-- No load modifies the file at the path. -/
def LoadsQuietly (server : Server World Grammar Query) (path : Path) : Prop :=
  ∀ world config,
    (server.files world).Unmodified path (server.files (server.provider.afterLoad world config))

/-- Nothing but the file has a say in the languages, and the file is as it was. -/
structure Governed (view : World → FileTree) (path : Path) (files : FileTree)
    (s : ServerState World Grammar Query) : Prop where
  settings : ∀ settings ∈ s.settings, settings.languages = none
  file : files.Unmodified path (view s.session.world)

variable {server : Server World Grammar Query}

theorem lasting_governed (hloads : server.LoadsQuietly path) :
    Lasting server (Governed server.files path files) where
  congr hs _ hsettings hworld := ⟨hsettings ▸ hs.settings, hworld ▸ hs.file⟩
  highlight {s} lang t hs := by
    have hload : ∀ world config, files.Unmodified path (server.files world) →
        files.Unmodified path (server.files (server.provider.afterLoad world config)) :=
      fun world config h => h.trans (hloads world config)
    exact ⟨hs.settings, Provider.world_highlight hload hs.file lang t⟩

theorem loadsQuietly_provider {Packages Process Library : Type}
    (platform : Platform Packages Process Library Grammar Query) (engine : Engine Grammar Query)
    (legend : Legend) (maxDepth : Nat) (homes : Homes) (configPath : Option Path) (port : Int)
    (path : Path) :
    LoadsQuietly
      ⟨platform.provider engine legend maxDepth, Machine.files, homes, configPath, port⟩ path := by
  intro machine config
  dsimp only
  rw [platform.afterLoad_provider, (platform.touched_loaded machine config).files]
  exact ⟨rfl, rfl⟩

theorem Governed.withSettings {s : ServerState World Grammar Query} (hs : Governed view path files s)
    {settings : ClientSettings} (h : settings.languages = none) :
    Governed view path files { s with settings := some settings } := by
  refine ⟨fun given hgiven => ?_, hs.file⟩
  cases hgiven
  exact h

theorem admits_governed {event : ServerEvent World} (h : event.Quiet view path files) :
    event.Admits fun s : ServerState World Grammar Query => Governed view path files s := by
  cases event with
  | introduced i => exact fun s hs => hs.withSettings h
  | optionsChanged options => exact fun s hs => hs.withSettings h
  | worldChanged change => exact fun s hs => ⟨hs.settings, h s.session.world hs.file⟩
  | _ => trivial

variable [Config.Services] {world : World} {events : List (ServerEvent World)}

/-- Whatever happens quietly, the file has the last word, seen from the root that there is by then. -/
theorem governed_after (hloads : server.LoadsQuietly path)
    (hquiet : ∀ event ∈ events, event.Quiet server.files path (server.files world)) (config : Config)
    (root : Option Path) :
    Rooted (Governed server.files path (server.files world)) (rootAfter root events)
      (server.after (.ofConfig server world config root) events) := by
  refine (lasting_governed hloads).after ?_
    (fun event hevent => admits_governed (hquiet event hevent)) ?_
  · exact fun _ _ hs => ⟨hs.settings, hs.file⟩
  · exact ⟨rfl, fun _ hnone => (nomatch hnone), ⟨rfl, rfl⟩⟩

theorem configs_after_reload (hpath : server.configPath = some path)
    (hloads : server.LoadsQuietly path)
    (hquiet : ∀ event ∈ events, event.Quiet server.files path (server.files world)) (config : Config)
    (root : Option Path) {reread : Config}
    (hreread : (Config.load server.homes (server.files world) path (rootAfter root events)).1 =
      .ok reread) :
    (server.after (.ofConfig server world config root)
      (events ++ [.reloadRequested])).session.registry.configs = reread.languages := by
  have hafter := governed_after hloads hquiet config root
  obtain ⟨bytes, hbytes⟩ := Config.exists_bytes_of_load hreread
  have hload : ∀ s : ServerState World Grammar Query,
      Rooted (Governed server.files path (server.files world)) (rootAfter root events) s →
      (Config.load server.homes (server.files s.session.world) path s.root).1 = .ok reread := by
    rintro s ⟨hroot, hgoverned⟩
    rw [hgoverned.file.load_eq hbytes, hroot]
    exact hreread
  rw [after_append]
  exact ((lasting_governed hloads).rooted _).configs_step_reload hpath hload
    (fun s hs => hs.2.settings) hafter

/-- After every reload the entries are those that the file gives when it is seen from the root that the
server has by then. With a root from the beginning they are those that the server was started with. In
general they are so exactly if the file is seen from the same place or no path in it is relative. -/
theorem configs_reload (server : Server World Grammar Query) (world : World) (pathText : Text)
    (workspace : Option Text) (config : Config) (events : List (ServerEvent World))
    (hpath : server.configPath = some (Path.ofText pathText))
    (hworking : Path.Normal ⟨.root, (server.files world).working⟩)
    (hstart : (Config.load server.homes (server.files world) (Path.ofText pathText)
      (workspace.map Path.ofText)).1 = .ok config)
    (hloads : server.LoadsQuietly (Path.ofText pathText))
    (hquiet : ∀ event ∈ events,
      event.Quiet server.files (Path.ofText pathText) (server.files world)) :
    let path := Path.ofText pathText
    let files := server.files world
    let root := workspace.map Path.ofText
    let start := ServerState.ofConfig server world config root
    let s := server.after start (events ++ [.reloadRequested])
    let root' := rootAfter root events
    ∃ written reread, Config.Holds files path written ∧
      (Config.load server.homes files path root').1 = .ok reread ∧
      s.session.registry.configs = reread.languages ∧
      (workspace.isSome → s.session.registry.configs = start.session.registry.configs) ∧
      (s.session.registry.configs = start.session.registry.configs ↔
        Config.rootOf files path root' = Config.rootOf files path root ∨
          written.hasRelative server.homes = false) := by
  intro path files root start s root'
  have hroot : ∀ r ∈ root, r.Normal := by
    intro r hr
    obtain ⟨t, -, rfl⟩ := Option.map_eq_some_iff.mp hr
    exact Path.normal_ofText t
  have hnormal : path.Normal := Path.normal_ofText pathText
  obtain ⟨written, reread, hholds, hreread, hsame⟩ := Config.load_otherRoot root' hstart
    (Config.normal_rootOf hworking hnormal hroot)
    (Config.normal_rootOf hworking hnormal (normal_rootAfter hroot events))
  have hconfigs : s.session.registry.configs = reread.languages :=
    configs_after_reload hpath hloads hquiet config root hreread
  have hiff : s.session.registry.configs = start.session.registry.configs ↔
      Config.rootOf files path root' = Config.rootOf files path root ∨
        written.hasRelative server.homes = false := by
    rw [hconfigs]
    exact hsame
  refine ⟨written, reread, hholds, hreread, hconfigs, ?_, hiff⟩
  intro hworkspace
  obtain ⟨t, rfl⟩ := Option.isSome_iff_exists.mp hworkspace
  exact hiff.mpr (Or.inl (congrArg _ (rootAfter_some _ events)))

end Server

end File

namespace Server

/-- An entry with a relative path. -/
def flowText : Text :=
  "\x7blanguageConfigs: [\x7blang: x, parser: \"module:g\", highlights: q\x7d]\x7d"

/-- The query is seen from the directory of the file at first, and from the root of the editor after
a reload. -/
theorem configs_reload_editorRoot :
    let files := (FileTree.empty ["w"]).insert ["w", "c.yml"] flowText.encodeUtf8
    let homes : Homes := ⟨"/h", []⟩
    let server : Server Host Grammar PatternQuery :=
      ⟨Host.platform.provider patternEngine .standard 16, Host.files, homes, some (.ofText "c.yml"),
        usualPort⟩
    let events : List (ServerEvent Host) := [.introduced ⟨.null, [], some "file:///ws", none⟩]
    ∃ config, (Config.load homes files (.ofText "c.yml") none).1 = .ok config ∧
      config.languages.map LanguageConfig.highlights = [Text.ofString "/w/q"] ∧
      let s := server.after (.ofConfig server (.ofFiles files []) config none)
        (events ++ [.reloadRequested])
      s.session.registry.configs.map LanguageConfig.highlights = [Text.ofString "/ws/q"] := by
  intro files homes server events
  let queries (root : Option Path) : Option (List Text) :=
    (Config.load homes files (.ofText "c.yml") root).1.toOption.map fun config =>
      config.languages.map LanguageConfig.highlights
  have hqueries : ∀ root config, (Config.load homes files (.ofText "c.yml") root).1 = .ok config →
      some (config.languages.map LanguageConfig.highlights) = queries root := by
    intro root config h
    dsimp only [queries]
    rw [h]
    rfl
  have hfirst : queries none = some [Text.ofString "/w/q"] := by decide +kernel
  have hsecond : queries (rootAfter none events) = some [Text.ofString "/ws/q"] := by decide +kernel
  cases hstart : (Config.load homes files (.ofText "c.yml") none).1 with
  | error e =>
    dsimp only [queries] at hfirst
    rw [hstart] at hfirst
    cases hfirst
  | ok config =>
    refine ⟨config, rfl, Option.some.inj ((hqueries none config hstart).trans hfirst), ?_⟩
    obtain ⟨-, reread, -, hreread, hconfigs, -⟩ := configs_reload server (.ofFiles files []) "c.yml"
      none config events rfl (by decide +kernel) hstart
      (loadsQuietly_provider Host.platform patternEngine .standard 16 homes _ usualPort _)
      (List.forall_mem_singleton.mpr rfl)
    exact (congrArg (List.map LanguageConfig.highlights) hconfigs).trans
      (Option.some.inj ((hqueries _ reread hreread).trans hsecond))

end Server

end SemanticHighlight
