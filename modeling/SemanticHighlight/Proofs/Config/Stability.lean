import SemanticHighlight.Proofs.Config.Mishaps

/-!
# Resolved paths stay as they are

An asset path that was resolved is either the package reference that it was before or an absolute
path in its normal form. Such a path is resolved to itself, wherever relative paths are seen from and
whatever home directories there are then, so that entries may be resolved once more at any time
(`resolve_stable`).
-/

namespace SemanticHighlight

variable {homes : Homes} {root : Path} {asset t : Text}

/-- What an asset path becomes, seen from a root. -/
inductive Resolves (homes : Homes) (root : Path) (asset : Text) : Text → Prop where
  | package (hmark : asset.startsWith LanguageConfig.packageMark = true) :
      Resolves homes root asset asset
  | path {p : Path} (hmark : asset.startsWith LanguageConfig.packageMark = false)
      (hexpand : (Path.ofText asset).expandHome homes = .ok p) :
      Resolves homes root asset (p.under root).toText

/-- A package reference that stayed as it was, or an absolute path. -/
def Anchored (asset t : Text) : Prop :=
  asset.startsWith LanguageConfig.packageMark = true ∧ t = asset ∨ (Path.ofText t).isAbsolute = true

theorem resolves_of_resolveAsset (h : resolveAsset homes (some root) asset = .ok t) :
    Resolves homes root asset t := by
  unfold resolveAsset at h
  cases hmark : asset.startsWith LanguageConfig.packageMark with
  | true =>
    rw [hmark, if_pos rfl] at h
    cases h
    exact .package hmark
  | false =>
    rw [hmark, if_neg Bool.false_ne_true] at h
    cases hexpand : (Path.ofText asset).expandHome homes with
    | error e =>
      rw [hexpand] at h
      cases h
    | ok p =>
      rw [hexpand] at h
      have htext : t = (p.under root).toText := by
        cases habsolute : p.isAbsolute with
        | true => simpa [mapError_ok, bind, Except.bind, habsolute, Path.under, pure, Except.pure,
            eq_comm] using h
        | false => simpa [mapError_ok, bind, Except.bind, habsolute, pure, Except.pure, eq_comm] using h
      subst htext
      exact .path hmark hexpand

theorem Path.isAbsolute_under {p base : Path} (h : base.isAbsolute = true) :
    (p.under base).isAbsolute = true := by
  unfold Path.under
  split_ifs with hp
  · exact hp
  · exact h

/-! ## Paths that stay -/

/-- A package reference, or how an absolute path is written. -/
def IsSettled (t : Text) : Prop :=
  t.startsWith LanguageConfig.packageMark = true ∨
    ∃ p : Path, p.Normal ∧ p.isAbsolute = true ∧ t = p.toText

theorem startsWith_packageMark_toText {p : Path} (h : p.isAbsolute = true) :
    p.toText.startsWith LanguageConfig.packageMark = false := by
  obtain ⟨anchor, parts⟩ := p
  cases anchor with
  | here => cases h
  | root => rfl
  | doubleRoot => rfl

theorem Path.expandHome_of_isAbsolute {p : Path} (h : p.isAbsolute = true) (homes : Homes) :
    p.expandHome homes = .ok p := by
  obtain ⟨anchor, parts⟩ := p
  cases anchor with
  | here => cases h
  | root => rfl
  | doubleRoot => rfl

theorem resolveAsset_of_absolute {p : Path} (hnormal : p.Normal) (habsolute : p.isAbsolute = true)
    (homes : Homes) (root : Option Path) : resolveAsset homes root p.toText = .ok p.toText := by
  rw [resolveAsset, startsWith_packageMark_toText habsolute, Path.ofText_toText hnormal,
    Path.expandHome_of_isAbsolute habsolute]
  simp [mapError_ok, bind, Except.bind, habsolute, pure, Except.pure]

theorem IsSettled.resolveAsset_eq (h : IsSettled t) (homes : Homes) (root : Option Path) :
    resolveAsset homes root t = .ok t := by
  rcases h with hmark | ⟨p, hnormal, habsolute, rfl⟩
  · rw [resolveAsset, if_pos hmark]
  · exact resolveAsset_of_absolute hnormal habsolute homes root

/-- What is resolved from an absolute root stays. -/
theorem Resolves.isSettled (h : Resolves homes root asset t) (hnormal : root.Normal)
    (habsolute : root.isAbsolute = true) : IsSettled t := by
  cases h with
  | package hmark => exact Or.inl hmark
  | @path p hmark hexpand =>
    have hp : p.Normal := (Path.normal_ofText asset).expandHome hexpand
    exact Or.inr ⟨_, hp.under hnormal, Path.isAbsolute_under habsolute, rfl⟩

theorem Resolves.anchored (h : Resolves homes root asset t) (hnormal : root.Normal)
    (habsolute : root.isAbsolute = true) : Anchored asset t := by
  cases h with
  | package hmark => exact Or.inl ⟨hmark, rfl⟩
  | @path p hmark hexpand =>
    have hp : p.Normal := (Path.normal_ofText asset).expandHome hexpand
    right
    rw [Path.ofText_toText (hp.under hnormal)]
    exact Path.isAbsolute_under habsolute

/-! ## Entries -/

namespace LanguageConfig

variable {config entry : LanguageConfig} {R S : Text → Text → Prop}

/-- The paths of two entries are related one by one, and everything else is the same. -/
structure Related (R : Text → Text → Prop) (config entry : LanguageConfig) : Prop where
  parser : R config.parser entry.parser
  highlights : R config.highlights entry.highlights
  injections : Option.Rel R config.injections entry.injections
  others : entry = { config with
    parser := entry.parser, highlights := entry.highlights, injections := entry.injections }

theorem Related.imp (h : Related R config entry) (hRS : ∀ asset t, R asset t → S asset t) :
    Related S config entry where
  parser := hRS _ _ h.parser
  highlights := hRS _ _ h.highlights
  injections := by
    have hrel := h.injections
    generalize config.injections = given, entry.injections = found at hrel ⊢
    cases hrel with
    | none => exact .none
    | some hR => exact .some (hRS _ _ hR)
  others := h.others

theorem Related.forall_assets {P : Text → Prop} (h : Related R config entry)
    (hP : ∀ asset t, R asset t → P t) : ∀ t ∈ entry.assets, P t := by
  intro t ht
  simp only [assets, List.mem_cons, Option.mem_toList] at ht
  rcases ht with rfl | rfl | ht
  · exact hP _ _ h.parser
  · exact hP _ _ h.highlights
  · have hrel := h.injections
    rw [ht] at hrel
    generalize config.injections = given at hrel
    cases hrel with
    | some hR => exact hP _ _ hR

theorem related_of_resolve {root : Option Path} (h : config.resolve homes root = .ok entry) :
    Related (fun asset t => resolveAsset homes root asset = .ok t) config entry := by
  obtain ⟨parser, hparser, h⟩ := bind_eq_ok.mp h
  obtain ⟨highlights, hhighlights, h⟩ := bind_eq_ok.mp h
  obtain ⟨injections, hinjections, h⟩ := bind_eq_ok.mp h
  cases h
  refine ⟨hparser, hhighlights, ?_, rfl⟩
  dsimp only
  cases hwritten : config.injections with
  | none =>
    rw [hwritten] at hinjections
    cases hinjections
    exact .none
  | some path =>
    rw [hwritten, Option.mapM_some] at hinjections
    obtain ⟨t, ht, hinjections⟩ := bind_eq_ok.mp hinjections
    cases hinjections
    exact .some ht

/-- An entry of which every path stays is resolved to itself. -/
theorem resolve_self {root : Option Path}
    (h : ∀ asset ∈ config.assets, resolveAsset homes root asset = .ok asset) :
    config.resolve homes root = .ok config := by
  obtain ⟨lang, parser, highlights, injections, injectionOnly, mappings, symbol⟩ := config
  unfold resolve
  rw [h parser (by simp [assets]), h highlights (by simp [assets])]
  cases injections with
  | none => rfl
  | some path =>
    rw [Option.mapM_some, h path (by simp [assets])]
    rfl

/-- From an absolute root every entry is resolved that needs no unknown home directory. Its paths become
absolute unless they are package references, nothing else changes, and it is then resolved to itself from
anywhere. -/
theorem resolve_stable (homes : Homes) {root : Path} (hnormal : root.Normal)
    (habsolute : root.isAbsolute = true) {config : LanguageConfig}
    (hhomes : ∀ asset ∈ config.assets, ¬NeedsUnknownHome homes asset) :
    ∃ entry, config.resolve homes (some root) = .ok entry ∧
      Related (fun asset t => Resolves homes root asset t ∧ Anchored asset t) config entry ∧
      ∀ (homes' : Homes) (root' : Option Path), entry.resolve homes' root' = .ok entry := by
  cases hresolve : config.resolve homes (some root) with
  | error e =>
    obtain ⟨asset, hasset, hneeds⟩ := (resolve_fails_iff root).mp ⟨e, hresolve⟩
    exact absurd hneeds (hhomes asset hasset)
  | ok entry =>
    have hrelated : Related (Resolves homes root) config entry :=
      (related_of_resolve hresolve).imp fun _ _ => resolves_of_resolveAsset
    have hsettled : ∀ t ∈ entry.assets, IsSettled t :=
      hrelated.forall_assets fun _ _ h => h.isSettled hnormal habsolute
    refine ⟨entry, rfl, hrelated.imp fun _ _ h => ⟨h, h.anchored hnormal habsolute⟩, ?_⟩
    intro homes' root'
    exact resolve_self fun t ht => (hsettled t ht).resolveAsset_eq homes' root'

/-- Behind `./` a path may still begin at a home directory, and what looks like a package reference is a
file there. -/
def dotted : LanguageConfig where
  lang := "x"
  parser := "module:g"
  highlights := ".//~/q//h.scm"
  injections := some "./module:i"
  injectionOnly := false
  mappings := none
  parserSymbol := none

theorem resolve_stable_dotted :
    let homes : Homes := ⟨"/home/me", []⟩
    let root : Path := ⟨.root, ["work"]⟩
    root.Normal ∧ root.isAbsolute = true ∧ (∀ asset ∈ dotted.assets, ¬NeedsUnknownHome homes asset) ∧
      ∃ entry, dotted.resolve homes (some root) = .ok entry ∧
        entry.assets = ["module:g", "/home/me/q/h.scm", "/work/module:i"] ∧
        entry.resolve ⟨"/elsewhere", []⟩ none = .ok entry := by
  intro homes root
  have hnormal : root.Normal := by decide
  have hresolve : (dotted.resolve homes (some root)).toOption.map assets =
      some (["module:g", "/home/me/q/h.scm", "/work/module:i"] : List Text) := by decide +kernel
  have hhomes : ∀ asset ∈ dotted.assets, ¬NeedsUnknownHome homes asset := by
    intro asset hasset hneeds
    obtain ⟨e, he⟩ := (resolve_fails_iff root).mpr ⟨asset, hasset, hneeds⟩
    rw [he] at hresolve
    cases hresolve
  obtain ⟨entry, hentry, -, hstable⟩ := resolve_stable homes hnormal rfl hhomes
  rw [hentry] at hresolve
  exact ⟨hnormal, rfl, hhomes, entry, hentry, Option.some.inj hresolve, hstable _ none⟩

end LanguageConfig
end SemanticHighlight
