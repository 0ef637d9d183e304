import SemanticHighlight.Proofs.Capture.Discovery
import SemanticHighlight.Proofs.Highlight.OneLine

/-!
# No way back to a later rule

A match of an injection query becomes an injection only for the language of the rule that decides,
and only in the region that this rule takes. If the language is not configured, or the region is
missing, the match comes to nothing: no other language is asked for, and at most the log is longer.
-/

namespace SemanticHighlight

namespace Match

/-- The rule that decides names a configured language and finds the region. -/
def Yields (m : Match) (isConfigured : Text → Bool) (lang : Text) (content : Capture) : Prop :=
  isConfigured lang = true ∧
    ∃ rule, m.Decides isConfigured rule lang ∧ m.Takes isConfigured rule content

theorem yields_iff {m : Match} {isConfigured : Text → Bool} {lang : Text} {content : Capture} :
    m.Yields isConfigured lang content ↔
      m.injection? isConfigured = some (lang, content) ∧ isConfigured lang = true := by
  rw [Yields, injection?_eq_some, and_comm]

end Match

namespace Provider

open Attempt

variable {World Grammar Query : Type} {provider : Provider World Grammar Query}
  {s s' : Session World Grammar Query} {m : Match} {mayNest : Bool}
  {deeper : Option (Binding Grammar Query → Text → Attempt World Grammar Query (List Token))}

theorem regionOf_of_not_yields
    (h : ∀ lang content, ¬ m.Yields s.registry.isConfigured lang content) :
    ∃ log, (provider.regionOf mayNest m).outcome s = (.ok none, { s with log := log }) := by
  unfold regionOf
  rw [outcome_bind, outcome_get]
  dsimp only
  cases hfound : m.injection? s.registry.isConfigured with
  | none => exact ⟨s.log, rfl⟩
  | some found =>
    obtain ⟨lang, content⟩ := found
    have hconfigured : s.registry.isConfigured lang = false :=
      Bool.eq_false_iff.mpr fun hlang => h lang content (Match.yields_iff.mpr ⟨hfound, hlang⟩)
    simp only [hconfigured, Bool.not_false, if_true, outcome_skip]
    exact ⟨_, rfl⟩

theorem injectionOf_of_not_yields
    (h : ∀ lang content, ¬ m.Yields s.registry.isConfigured lang content) :
    ∃ log, (provider.injectionOf deeper m).outcome s = (.ok none, { s with log := log }) := by
  have hnone : ∃ log, (provider.regionOf deeper.isSome m).outcome s =
      (.ok none, { s with log := log }) := regionOf_of_not_yields h
  obtain ⟨log, hregion⟩ := hnone
  refine ⟨log, ?_⟩
  unfold injectionOf
  rw [outcome_bind, hregion]
  cases deeper with
  | none => rfl
  | some highlight => rfl

theorem injectionOf_of_region {region : Region Grammar Query} {s₁ : Session World Grammar Query}
    {highlight : Binding Grammar Query → Text → Attempt World Grammar Query (List Token)}
    {tokens : List Token}
    (hregion : (provider.regionOf true m).outcome s = (.ok (some region), s₁))
    (htokens : (highlight region.binding region.content.text).outcome s₁ = (.ok tokens, s')) :
    (provider.injectionOf (some highlight) m).outcome s =
      (.ok (some (region.injection tokens)), s') :=
  bind_ok.mpr ⟨some region, s₁, hregion, bind_ok.mpr ⟨tokens, s', htokens, rfl⟩⟩

/-- A match becomes an injection exactly if the rule that decides names a configured language and
finds its region, the language can be had and the text of the region be highlighted. If the language is
not configured or the region is missing, nothing but the log changes. Captures that the first two
rules do not look for never change the language that these choose. -/
theorem injectionOf_precedence (provider : Provider World Grammar Query)
    (deeper : Option (Binding Grammar Query → Text → Attempt World Grammar Query (List Token)))
    (m : Match) (s : Session World Grammar Query) :
    (∀ injection s', (provider.injectionOf deeper m).outcome s = (.ok (some injection), s') ↔
      ∃ lang content binding highlight tokens s₁,
        m.Yields s.registry.isConfigured lang content ∧ deeper = some highlight ∧
        (Session.resolve provider lang).run s = (.ok binding, s₁) ∧
        (highlight binding content.text).outcome s₁ = (.ok tokens, s') ∧
        injection = ⟨lang, content.range, tokens.map fun t => t.translate content.range.start⟩) ∧
    ((∀ lang content, ¬ m.Yields s.registry.isConfigured lang content) →
      ∃ log, (provider.injectionOf deeper m).outcome s = (.ok none, { s with log := log })) ∧
    ∀ m' rule lang, m.SameMarkers m' → m.captures ≠ [] → m'.captures ≠ [] → rule ≠ .named →
      m.Decides s.registry.isConfigured rule lang →
      m'.Decides s.registry.isConfigured rule lang ∧
      (m'.injection? s.registry.isConfigured).map Prod.fst =
        (m.injection? s.registry.isConfigured).map Prod.fst := by
  refine ⟨fun injection s' => ⟨fun h => ?_, ?_⟩, injectionOf_of_not_yields, ?_⟩
  · obtain ⟨highlight, region, s₁, tokens, hdeeper, hregion, htokens, rfl⟩ := injectionOf_eq_some h
    obtain ⟨hfound, hconfigured, -, hresolve⟩ := regionOf_eq_some.mp hregion
    exact ⟨region.lang, region.content, region.binding, highlight, tokens, s₁,
      Match.yields_iff.mpr ⟨hfound, hconfigured⟩, hdeeper, hresolve, htokens, rfl⟩
  · rintro ⟨lang, content, binding, highlight, tokens, s₁, hyields, rfl, hresolve, htokens, rfl⟩
    obtain ⟨hfound, hconfigured⟩ := Match.yields_iff.mp hyields
    have hregion : (provider.regionOf true m).outcome s = (.ok (some ⟨lang, content, binding⟩), s₁) :=
      regionOf_eq_some.mpr ⟨hfound, hconfigured, rfl, hresolve⟩
    exact injectionOf_of_region hregion htokens
  · intro m' rule lang hsame hne hne' hrule hdecides
    exact ⟨hsame.decides hrule hdecides, hsame.language_eq hne hne' hrule hdecides⟩

/-- A capture called like a language stands before one that spells out another. -/
def spelling (r : Range) (language : Text) : Match :=
  ⟨0, [⟨"crossing", r, "a"⟩, ⟨Match.languageKey, r, language⟩, ⟨Match.contentName, r, "b"⟩], []⟩

/-- The unknown language is not replaced by the known one, and the known one is found without its
blanks, also where the capture in front is gone. -/
theorem injectionOf_precedence_spelling :
    let s : Session Unit Unit Bool :=
      .ofConfigs () [⟨"crossing", "crossing.so", "crossing.scm", none, false, none, none⟩]
    let r : Range := ⟨⟨0, 0⟩, ⟨0, 1⟩, by decide⟩
    let deeper := some fun (_ : Binding Unit Bool) (_ : Text) => pure []
    let bare : Match := { spelling r " vue " with captures := (spelling r " vue ").captures.tail }
    (∃ log, (crossingProvider.injectionOf deeper (spelling r " vue ")).outcome s =
      (.ok none, { s with log := log })) ∧
    (∃ injection s', (crossingProvider.injectionOf deeper (spelling r " crossing ")).outcome s =
      (.ok (some injection), s') ∧ injection.lang = "crossing") ∧
    (bare.injection? s.registry.isConfigured).map Prod.fst =
      ((spelling r " vue ").injection? s.registry.isConfigured).map Prod.fst := by
  intro s r deeper bare
  let vue : Text := "vue"
  let content : Capture := ⟨Match.contentName, r, "b"⟩
  have hvue : (spelling r " vue ").injection? s.registry.isConfigured = some (vue, content) := by decide
  refine ⟨(injectionOf_precedence crossingProvider deeper (spelling r " vue ") s).2.1 ?_, ?_, ?_⟩
  · intro lang content' hyields
    obtain ⟨hfound, hconfigured⟩ := Match.yields_iff.mp hyields
    cases hvue.symm.trans hfound
    exact absurd hconfigured (by decide)
  · have hyields : (spelling r " crossing ").Yields s.registry.isConfigured "crossing" content :=
      Match.yields_iff.mpr (by decide)
    exact ⟨⟨"crossing", content.range, []⟩, _,
      ((injectionOf_precedence crossingProvider deeper (spelling r " crossing ") s).1 _ _).mpr
        ⟨"crossing", content, _, _, [], _, hyields, rfl, rfl, rfl, rfl⟩, rfl⟩
  · have hdecides : (spelling r " vue ").Decides s.registry.isConfigured .spelled vue := by
      refine ⟨Match.nameOf?_eq_some.mp (by decide), fun earlier hlt => ?_⟩
      cases earlier with
      | directive => exact Match.nameOf?_eq_none.mp (by decide)
      | spelled => exact absurd hlt (by decide)
      | named => exact absurd hlt (by decide)
    exact ((injectionOf_precedence crossingProvider deeper (spelling r " vue ") s).2.2 bare .spelled vue
      ⟨rfl, by decide⟩ (by decide) (by decide) (by decide) hdecides).2

end Provider

end SemanticHighlight
