import SemanticHighlight.Proofs.Highlight.Ending
import SemanticHighlight.Proofs.Highlight.Settled

/-!
# What a match marks

What a match of an injection query comes to depends on the session only through the languages that
are configured and through what they load to. In a settled session both are fixed, and so is the
region of the match (`ends_regionOf`). Apart from a nesting that has come to its end, only a load that
fails in a way that is not accounted for can end the work on a match.
-/

namespace SemanticHighlight

variable {World Grammar Query : Type}

/-- A text and what it is read with. -/
structure Reading (Grammar Query : Type) where
  binding : Binding Grammar Query
  text : Text

def Region.reading (region : Region Grammar Query) : Reading Grammar Query :=
  ⟨region.binding, region.content.text⟩

namespace Match

/-- The language that a match names and its region, if that language is configured. -/
def target? (configs : List LanguageConfig) (m : Match) : Option (Text × Capture) :=
  (m.injection? fun lang => (findConfig? configs lang).isSome).filter fun marked =>
    (findConfig? configs marked.1).isSome

/-- The region of a match, if its language is configured and loads. -/
def region? (configs : List LanguageConfig)
    (answer : LanguageConfig → Except LoadError (Binding Grammar Query)) (m : Match) :
    Option (Region Grammar Query) :=
  (m.target? configs).bind fun marked =>
    (Session.answerTo configs answer marked.1).toOption.map fun binding =>
      ⟨marked.1, marked.2, binding⟩

variable {configs : List LanguageConfig}
  {answer : LanguageConfig → Except LoadError (Binding Grammar Query)} {m : Match} {lang : Text}
  {content : Capture}

theorem target?_of_configured {config : LanguageConfig}
    (hfound : (m.injection? fun lang => (findConfig? configs lang).isSome) = some (lang, content))
    (hconfig : findConfig? configs lang = some config) : m.target? configs = some (lang, content) := by
  rw [target?, hfound, Option.filter_some_pos (by simp [hconfig])]

theorem target?_of_unconfigured
    (hfound : (m.injection? fun lang => (findConfig? configs lang).isSome) = some (lang, content))
    (hconfig : findConfig? configs lang = none) : m.target? configs = none := by
  rw [target?, hfound, Option.filter_some_neg (by simp [hconfig])]

theorem region?_eq_none (h : m.target? configs = none) : m.region? configs answer = none := by
  rw [region?, h, Option.bind_none]

theorem region?_eq (h : m.target? configs = some (lang, content)) :
    m.region? configs answer = (Session.answerTo configs answer lang).toOption.map fun binding =>
      ⟨lang, content, binding⟩ := by
  rw [region?, h, Option.bind_some]

end Match

namespace Provider

open Attempt

/-- A match of the injection query of a text that the engine reads. -/
def Finds (provider : Provider World Grammar Query) (r : Reading Grammar Query) (m : Match) : Prop :=
  provider.engine.parses r.binding.grammar r.text = true ∧ ∃ query found,
    r.binding.injections = some query ∧ provider.engine.search query r.text = .ok found ∧ m ∈ found

variable {provider : Provider World Grammar Query} {configs : List LanguageConfig}
  {answer : LanguageConfig → Except LoadError (Binding Grammar Query)}

/-- A configured language fails to load, and not in a way that is accounted for. -/
inductive Foreign (configs : List LanguageConfig)
    (answer : LanguageConfig → Except LoadError (Binding Grammar Query)) : HighlightError → Prop
  | load {config : LanguageConfig} {e : LoadError} (hconfig : config ∈ configs)
      (hanswer : answer config = .error e) (hfailure : e.failure? = none) :
      Foreign configs answer (.load e)

/-- The match names a configured language that fails to load in such a way. -/
inductive Thwarts (configs : List LanguageConfig)
    (answer : LanguageConfig → Except LoadError (Binding Grammar Query)) (m : Match) :
    HighlightError → Prop
  | load {lang : Text} {content : Capture} {config : LanguageConfig} {e : LoadError}
      (htarget : m.target? configs = some (lang, content)) (hconfig : findConfig? configs lang = some config)
      (hanswer : answer config = .error e) (hfailure : e.failure? = none) :
      Thwarts configs answer m (.load e)

theorem Thwarts.foreign {m : Match} {e : HighlightError} (h : Thwarts configs answer m e) :
    Foreign configs answer e := by
  cases h with
  | load _ hconfig hanswer hfailure =>
    exact .load (List.mem_of_find?_eq_some hconfig) hanswer hfailure

variable {fails : HighlightError → Prop}

theorem ends_report (entries : Log) :
    Ends (Session.Settled provider configs answer) (Attempt.report entries) (fun _ => True) fails :=
  fun _ hs => ⟨trivial, hs.report entries⟩

theorem ends_resolve (hload : provider.LoadsApart) (lang : Text) :
    Ends (Session.Settled provider configs answer)
      (liftM (Session.resolve provider lang) :
        Attempt World Grammar Query (Except ResolveError (Binding Grammar Query)))
      (fun found => found = Session.answerTo configs answer lang) fails :=
  ends_lift fun _ hs => hs.resolve hload lang

theorem ends_skip {α : Type} (entry : LogEntry) :
    Ends (Session.Settled provider configs answer)
      (Attempt.skip entry : Attempt World Grammar Query (Option α)) (fun found => found = none)
      fails :=
  ends_bind (ends_report [entry]) fun _ _ => ends_pure rfl

theorem ends_regionIn {m : Match} {lang : Text} {config : LanguageConfig} {content : Capture}
    (htarget : m.target? configs = some (lang, content))
    (hconfig : findConfig? configs lang = some config) :
    Ends (Session.Settled provider configs answer)
      (regionIn lang content (Session.answerTo configs answer lang))
      (fun region => region = (Session.answerTo configs answer lang).toOption.map fun binding =>
        ⟨lang, content, binding⟩)
      (Thwarts configs answer m) := by
  have hanswer : Session.answerTo configs answer lang = (answer config).mapError .failed := by
    rw [Session.answerTo, hconfig]
  rw [hanswer]
  cases hloaded : answer config with
  | ok binding => exact ends_pure rfl
  | error e =>
    cases e with
    | failure e => exact ends_skip _
    | escaped kind text => exact ends_throw (.load htarget hconfig hloaded rfl)
    | unreadable e => exact ends_throw (.load htarget hconfig hloaded rfl)

/-- The region of a match, unless its language is configured and nothing may nest any more. -/
theorem ends_regionOf (hload : provider.LoadsApart) (mayNest : Bool) (m : Match) :
    Ends (Session.Settled provider configs answer) (provider.regionOf mayNest m)
      (fun region => region = m.region? configs answer ∧
        (mayNest = false → m.target? configs = none))
      (fun e => mayNest = true ∧ Thwarts configs answer m e ∨ mayNest = false ∧ ∃ lang content,
        m.target? configs = some (lang, content) ∧ e = .tooDeep lang provider.maxDepth) := by
  unfold regionOf
  apply ends_get_bind
  intro s hs
  rw [hs.isConfigured]
  dsimp only
  cases hfound : m.injection? fun lang => (findConfig? configs lang).isSome with
  | none =>
    have htarget : m.target? configs = none := by rw [Match.target?, hfound, Option.filter_none]
    exact ends_pure ⟨(Match.region?_eq_none htarget).symm, fun _ => htarget⟩
  | some marked =>
    obtain ⟨lang, content⟩ := marked
    cases hconfig : findConfig? configs lang with
    | none =>
      have htarget : m.target? configs = none := Match.target?_of_unconfigured hfound hconfig
      simp only [hconfig, Option.isSome_none, Bool.not_false, if_true]
      refine (ends_skip _).imp ?_ fun e h => h
      rintro _ rfl
      exact ⟨(Match.region?_eq_none htarget).symm, fun _ => htarget⟩
    | some config =>
      have htarget := Match.target?_of_configured hfound hconfig
      simp only [hconfig, Option.isSome_some, Bool.not_true, Bool.false_eq_true, if_false]
      cases mayNest with
      | false =>
        rw [if_pos Bool.not_false]
        exact ends_throw (Or.inr ⟨rfl, lang, content, htarget, rfl⟩)
      | true =>
        rw [if_neg (by decide)]
        apply ends_bind (ends_resolve hload lang)
        rintro _ rfl
        refine (ends_regionIn htarget hconfig).imp ?_ fun e h => Or.inl ⟨rfl, h⟩
        rintro _ rfl
        exact ⟨(Match.region?_eq htarget).symm, fun h => by cases h⟩

end Provider

end SemanticHighlight
