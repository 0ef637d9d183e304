import SemanticHighlight.Config.Loading
import SemanticHighlight.Proofs.Files.Normal

/-!
# What the paths of a configuration are seen from

A relative path of a configuration leads to different places from different roots; every other path
stays where it is. So whether a file is a configuration does not depend on the root, and from two
roots it gives the same entries exactly if the roots are the same or no path in it is relative
(`load_otherRoot`).
-/

namespace SemanticHighlight

variable {homes : Homes} {root root' : Path} {asset : Text}

/-- Whether an asset path is neither a package reference nor, its home directory filled in, absolute. -/
def isRelativeAsset (homes : Homes) (asset : Text) : Bool :=
  !asset.startsWith LanguageConfig.packageMark &&
    match (Path.ofText asset).expandHome homes with
    | .ok p => !p.isAbsolute
    | .error _ => false

theorem resolveAsset_of_relative (h : isRelativeAsset homes asset = true) :
    ∃ p : Path, p.Normal ∧ p.isAbsolute = false ∧
      ∀ root, resolveAsset homes (some root) asset = .ok (p.under root).toText := by
  obtain ⟨hmark, hpath⟩ := Bool.and_eq_true_iff.mp h
  rw [Bool.not_eq_true'] at hmark
  cases hexpand : (Path.ofText asset).expandHome homes with
  | error e => simp [hexpand] at hpath
  | ok p =>
    rw [hexpand, Bool.not_eq_true'] at hpath
    refine ⟨p, (Path.normal_ofText asset).expandHome hexpand, hpath, ?_⟩
    intro root
    simp [resolveAsset, hmark, hexpand, hpath, mapError_ok, bind, Except.bind, pure, Except.pure]

theorem resolveAsset_of_not_relative (h : isRelativeAsset homes asset = false)
    (root root' : Option Path) : resolveAsset homes root asset = resolveAsset homes root' asset := by
  unfold resolveAsset
  unfold isRelativeAsset at h
  cases hmark : asset.startsWith LanguageConfig.packageMark with
  | true => rfl
  | false =>
    cases hexpand : (Path.ofText asset).expandHome homes with
    | error e => rfl
    | ok p =>
      have habsolute : p.isAbsolute = true := by simpa [hmark, hexpand] using h
      simp [mapError_ok, bind, Except.bind, habsolute]

/-- With a root it is the path alone that can be wrong. -/
theorem resolveAsset_total {t : Text} (h : resolveAsset homes (some root) asset = .ok t)
    (root' : Path) : ∃ t', resolveAsset homes (some root') asset = .ok t' := by
  cases hrelative : isRelativeAsset homes asset with
  | true =>
    obtain ⟨p, -, -, hresolve⟩ := resolveAsset_of_relative hrelative
    exact ⟨_, hresolve root'⟩
  | false => exact ⟨t, resolveAsset_of_not_relative hrelative (some root') (some root) ▸ h⟩

theorem resolveAsset_eq_iff (hroot : root.Normal) (hroot' : root'.Normal) :
    resolveAsset homes (some root') asset = resolveAsset homes (some root) asset ↔
      root' = root ∨ isRelativeAsset homes asset = false := by
  constructor
  · intro h
    cases hrelative : isRelativeAsset homes asset with
    | false => exact Or.inr rfl
    | true =>
      obtain ⟨p, hp, habsolute, hresolve⟩ := resolveAsset_of_relative hrelative
      rw [hresolve, hresolve] at h
      have hunder := Path.toText_inj (hp.under hroot') (hp.under hroot) (Except.ok.inj h)
      exact Or.inl (Path.under_inj habsolute hunder)
  · rintro (rfl | hfixed)
    · rfl
    · exact resolveAsset_of_not_relative hfixed _ _

theorem forall_or_any_eq_false {α : Type} {xs : List α} {f : α → Bool} {P : Prop} :
    (∀ x ∈ xs, P ∨ f x = false) ↔ P ∨ xs.any f = false := by
  by_cases hP : P
  · simp [hP]
  · simp [hP]

/-! ## Entries -/

namespace LanguageConfig

variable {config entry : LanguageConfig}

def assets (config : LanguageConfig) : List Text :=
  config.parser :: config.highlights :: config.injections.toList

def hasRelative (homes : Homes) (config : LanguageConfig) : Bool :=
  config.assets.any (isRelativeAsset homes)

theorem resolve_congr {root root' : Option Path}
    (h : ∀ asset ∈ config.assets, resolveAsset homes root' asset = resolveAsset homes root asset) :
    config.resolve homes root' = config.resolve homes root := by
  obtain ⟨lang, parser, highlights, injections, injectionOnly, mappings, symbol⟩ := config
  unfold resolve
  rw [h parser (by simp [assets]), h highlights (by simp [assets])]
  cases injections with
  | none => rfl
  | some injections =>
    rw [Option.mapM_some, Option.mapM_some, h injections (by simp [assets])]

theorem assets_of_resolve {root : Option Path} (h : config.resolve homes root = .ok entry) :
    config.assets.map (resolveAsset homes root) = entry.assets.map .ok := by
  obtain ⟨parser, hparser, h⟩ := bind_eq_ok.mp h
  obtain ⟨highlights, hhighlights, h⟩ := bind_eq_ok.mp h
  obtain ⟨injections, hinjections, h⟩ := bind_eq_ok.mp h
  cases h
  cases hwritten : config.injections with
  | none =>
    rw [hwritten] at hinjections
    cases hinjections
    simp [assets, hwritten, hparser, hhighlights]
  | some path =>
    rw [hwritten, Option.mapM_some] at hinjections
    obtain ⟨t, ht, hinjections⟩ := bind_eq_ok.mp hinjections
    cases hinjections
    simp [assets, hwritten, hparser, hhighlights, ht]

theorem resolve_total (h : config.resolve homes (some root) = .ok entry) (root' : Path) :
    ∃ entry', config.resolve homes (some root') = .ok entry' := by
  have hassets := assets_of_resolve h
  have hsome : ∀ asset ∈ config.assets, ∃ t, resolveAsset homes (some root') asset = .ok t := by
    intro asset hasset
    obtain ⟨t, ht⟩ := ok_of_map_eq hassets hasset
    exact resolveAsset_total ht root'
  obtain ⟨parser, hparser⟩ := hsome config.parser (by simp [assets])
  obtain ⟨highlights, hhighlights⟩ := hsome config.highlights (by simp [assets])
  unfold resolve
  rw [hparser, hhighlights]
  cases hwritten : config.injections with
  | none => exact ⟨_, rfl⟩
  | some path =>
    obtain ⟨injections, hinjections⟩ := hsome path (by simp [assets, hwritten])
    rw [Option.mapM_some, hinjections]
    exact ⟨_, rfl⟩

theorem resolve_eq_iff (hroot : root.Normal) (hroot' : root'.Normal)
    (h : config.resolve homes (some root) = .ok entry) :
    config.resolve homes (some root') = config.resolve homes (some root) ↔
      root' = root ∨ config.hasRelative homes = false := by
  have hsame : config.resolve homes (some root') = config.resolve homes (some root) ↔
      ∀ asset ∈ config.assets,
        resolveAsset homes (some root') asset = resolveAsset homes (some root) asset := by
    constructor
    · intro hsame
      exact List.map_inj_left.mp
        ((assets_of_resolve (hsame.trans h)).trans (assets_of_resolve h).symm)
    · exact resolve_congr
  rw [hsame, hasRelative, ← forall_or_any_eq_false]
  exact forall₂_congr fun asset _ => resolveAsset_eq_iff hroot hroot'

end LanguageConfig

/-! ## Configurations -/

namespace Config

variable {written config config' : Config}

def hasRelative (homes : Homes) (config : Config) : Bool :=
  config.languages.any (LanguageConfig.hasRelative homes)

theorem languages_of_resolve {root : Option Path} (h : written.resolve homes root = .ok config) :
    written.languages.map (LanguageConfig.resolve homes root) = config.languages.map .ok := by
  obtain ⟨languages, hlanguages, h⟩ := bind_eq_ok.mp h
  cases h
  cases hresolve : written.languages.mapM (LanguageConfig.resolve homes root) with
  | error e =>
    rw [hresolve] at hlanguages
    cases hlanguages
  | ok resolved =>
    rw [hresolve] at hlanguages
    cases hlanguages
    exact mapM_eq_ok.mp hresolve

theorem resolve_total (h : written.resolve homes (some root) = .ok config) (root' : Path) :
    ∃ config', written.resolve homes (some root') = .ok config' := by
  have hlanguages := languages_of_resolve h
  have hsome : ∀ entry ∈ written.languages,
      ∃ resolved, entry.resolve homes (some root') = .ok resolved := by
    intro entry hentry
    obtain ⟨resolved, hresolved⟩ := ok_of_map_eq hlanguages hentry
    exact LanguageConfig.resolve_total hresolved root'
  obtain ⟨languages, hall⟩ := mapM_total hsome
  unfold resolve
  rw [hall]
  exact ⟨_, rfl⟩

theorem languages_eq_iff (hroot : root.Normal) (hroot' : root'.Normal)
    (h : written.resolve homes (some root) = .ok config)
    (h' : written.resolve homes (some root') = .ok config') :
    config'.languages = config.languages ↔ root' = root ∨ written.hasRelative homes = false := by
  have hlanguages := languages_of_resolve h
  have hlanguages' := languages_of_resolve h'
  have hmaps : config'.languages = config.languages ↔
      written.languages.map (LanguageConfig.resolve homes (some root')) =
        written.languages.map (LanguageConfig.resolve homes (some root)) := by
    rw [hlanguages, hlanguages']
    exact (List.map_inj_right fun _ _ hok => Except.ok.inj hok).symm
  rw [hmaps, List.map_inj_left, hasRelative, ← forall_or_any_eq_false]
  refine forall₂_congr fun entry hentry => ?_
  obtain ⟨resolved, hresolved⟩ := ok_of_map_eq hlanguages hentry
  exact LanguageConfig.resolve_eq_iff hroot hroot' hresolved

/-! ## Files -/

variable {files : FileTree} {path : Path}

theorem normal_rootOf {root : Option Path} (hworking : Path.Normal ⟨.root, files.working⟩)
    (hpath : path.Normal) (hroot : ∀ r ∈ root, r.Normal) : (rootOf files path root).Normal := by
  cases root with
  | some root => exact hroot root rfl
  | none => exact (hpath.resolve hworking).parent

section

variable [Services]

/-- The file is this configuration, with the paths as they are written in it. -/
def Holds (files : FileTree) (path : Path) (written : Config) : Prop :=
  ∃ document told, find files path = .ok (document, told) ∧ draft (filled document) = .ok written

theorem load_eq_ok_iff {root : Option Path} :
    (load homes files path root).1 = .ok config ↔
      ∃ written, Holds files path written ∧
        written.resolve homes (some (rootOf files path root)) = .ok config := by
  unfold load Holds
  cases find files path with
  | error e => simp
  | ok found =>
    obtain ⟨document, told⟩ := found
    unfold read
    cases hdraft : draft (filled document) with
    | error e => simp [bind, Except.bind, hdraft, mapError_error]
    | ok written =>
      cases hresolve : written.resolve homes (some (rootOf files path root)) with
      | error e => simp [bind, Except.bind, hdraft, hresolve, mapError_error]
      | ok resolved => simp [bind, Except.bind, hdraft, hresolve, mapError_ok]

/-- A file that is a configuration from one root is one from every root. Its entries are the same
exactly if they are seen from the same place or do not depend on it. -/
theorem load_otherRoot {root : Option Path} (root' : Option Path)
    (h : (load homes files path root).1 = .ok config) (hroot : (rootOf files path root).Normal)
    (hroot' : (rootOf files path root').Normal) :
    ∃ written config', Holds files path written ∧
      (load homes files path root').1 = .ok config' ∧
      (config'.languages = config.languages ↔
        rootOf files path root' = rootOf files path root ∨ written.hasRelative homes = false) := by
  obtain ⟨written, hholds, hresolve⟩ := load_eq_ok_iff.mp h
  obtain ⟨config', hresolve'⟩ := resolve_total hresolve (rootOf files path root')
  exact ⟨written, config', hholds, load_eq_ok_iff.mpr ⟨written, hholds, hresolve'⟩,
    languages_eq_iff hroot hroot' hresolve hresolve'⟩

theorem exists_bytes_of_load {root : Option Path} (h : (load homes files path root).1 = .ok config) :
    ∃ bytes, files.readBytes path = .ok bytes := by
  obtain ⟨written, ⟨document, told, hfind, -⟩, -⟩ := load_eq_ok_iff.mp h
  cases hbytes : files.readBytes path with
  | ok bytes => exact ⟨bytes, rfl⟩
  | error e =>
    obtain ⟨present, -, hfind⟩ := bind_eq_ok.mp hfind
    split at hfind
    · cases hfind
    · obtain ⟨document, hread, -⟩ := bind_eq_ok.mp hfind
      rw [readFile, hbytes] at hread
      cases hread

end

end Config

/-- The file at the end of a path reads as it did before, and relative paths still begin where they
did. -/
structure FileTree.Unmodified (path : Path) (before now : FileTree) : Prop where
  content : now.readBytes path = before.readBytes path
  working : now.working = before.working

theorem FileTree.Unmodified.trans {first second third : FileTree} {path : Path}
    (h : first.Unmodified path second) (h' : second.Unmodified path third) :
    first.Unmodified path third :=
  ⟨h'.content.trans h.content, h'.working.trans h.working⟩

theorem FileTree.isFile_of_readBytes {files : FileTree} {path : Path} {bytes : Octets}
    (h : files.readBytes path = .ok bytes) : files.isFile path = .ok true := by
  unfold readBytes at h
  unfold isFile
  cases hname : NameProblem.ofText? path.toText with
  | some problem => simp [hname] at h
  | none =>
    cases hentry : files.entry path with
    | file content => rfl
    | _ => simp [hname, hentry] at h

/-- Loading a file looks at nothing else. -/
theorem FileTree.Unmodified.load_eq [Config.Services] {before now : FileTree} {path : Path}
    {bytes : Octets} (h : before.Unmodified path now) (hbytes : before.readBytes path = .ok bytes)
    (homes : Homes) (root : Option Path) :
    Config.load homes now path root = Config.load homes before path root := by
  have hbytesNow : now.readBytes path = .ok bytes := h.content.trans hbytes
  have hfind : Config.find now path = Config.find before path := by
    simp only [Config.find, Config.readFile, FileTree.isFile_of_readBytes hbytes,
      FileTree.isFile_of_readBytes hbytesNow, hbytes, hbytesNow]
  have hroot : Config.rootOf now path root = Config.rootOf before path root := by
    unfold Config.rootOf
    rw [h.working]
  unfold Config.load
  rw [hfind, hroot]

end SemanticHighlight
