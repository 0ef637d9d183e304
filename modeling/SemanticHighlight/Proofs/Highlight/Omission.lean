import SemanticHighlight.Proofs.Highlight.Depth

/-!
# Matches that might as well be absent

Nothing comes of a match whose language is not configured. Where injections may still nest, nothing
comes either of one whose language does not load or whose text gives no tree. `highlightKeeping`
leaves matches out as if the injection query had not found them. With these matches left out,
documents come to the same, failures included (`highlight_eq_keeping`).
-/

namespace SemanticHighlight

variable {World Grammar Query : Type}

namespace Token

theorem clipAll_filter (own : List Token) (injections : List Injection) :
    clipAll own (injections.filter fun i => !i.tokens.isEmpty) = clipAll own injections := by
  unfold clipAll
  rw [List.foldl_filter]
  congr 1
  funext kept i
  cases i.tokens <;> simp

theorem flatMap_tokens_filter (injections : List Injection) :
    (injections.filter fun i => !i.tokens.isEmpty).flatMap Injection.tokens =
      injections.flatMap Injection.tokens := by
  induction injections with
  | nil => rfl
  | cons i rest ih =>
    rw [List.flatMap_cons]
    cases hi : i.tokens with
    | nil => rw [List.filter_cons_of_neg (by simp [hi]), ih, List.nil_append]
    | cons u us => rw [List.filter_cons_of_pos (by simp [hi]), List.flatMap_cons, ih, hi]

/-- Injections without tokens do not count. -/
theorem merge_filter (own : List Token) (injections : List Injection) :
    merge own (injections.filter fun i => !i.tokens.isEmpty) = merge own injections := by
  rw [merge, merge, clipAll_filter, flatMap_tokens_filter]

end Token

namespace Provider

open Attempt

/-! ## Highlighting without some matches -/

def injectionsKeeping (provider : Provider World Grammar Query) (keep : Match → Bool)
    (deeper : Option (Binding Grammar Query → Text → Attempt World Grammar Query (List Token)))
    (query : Query) (t : Text) : Attempt World Grammar Query (List Injection) := do
  let found ← Attempt.checked (provider.engine.search query t)
  return (← (found.filter keep).mapM (provider.injectionOf deeper)).filterMap id

def tokensWithKeeping (provider : Provider World Grammar Query) (keep : Match → Bool)
    (deeper : Option (Binding Grammar Query → Text → Attempt World Grammar Query (List Token)))
    (binding : Binding Grammar Query) (t : Text) : Attempt World Grammar Query (List Token) := do
  if !provider.engine.parses binding.grammar t then return []
  let tokens ← provider.ownTokens binding t
  match binding.injections with
  | none => return tokens
  | some query => return Token.merge tokens (← provider.injectionsKeeping keep deeper query t)

/-- Which matches of a text are kept may depend on whether injections may nest in it. -/
def tokensKeeping (provider : Provider World Grammar Query) (keep : Bool → Match → Bool) :
    (budget : Nat) → Binding Grammar Query → Text → Attempt World Grammar Query (List Token)
  | 0 => provider.tokensWithKeeping (keep false) none
  | budget + 1 => provider.tokensWithKeeping (keep true) (some (provider.tokensKeeping keep budget))

def highlightKeeping (provider : Provider World Grammar Query) (keep : Bool → Match → Bool)
    (lang t : Text) : Attempt World Grammar Query (List Token) := do
  if !(← get).registry.isConfigured lang then throw (.unconfigured lang)
  match ← Session.resolve provider lang with
  | .error e => throw (.ofResolve e)
  | .ok binding =>
    let tokens := Token.sort (← provider.tokensKeeping keep provider.maxDepth binding t)
    Attempt.report [⟨.debug, .provider,
      "Highlighted " ++ lang ++ " document with " ++ Text.ofNat tokens.length ++ " tokens"⟩]
    return tokens

theorem tokensWithKeeping_all (provider : Provider World Grammar Query)
    (deeper : Option (Binding Grammar Query → Text → Attempt World Grammar Query (List Token))) :
    provider.tokensWithKeeping (fun _ => true) deeper = provider.tokensWith deeper := by
  have hinjections : provider.injectionsKeeping (fun _ => true) deeper =
      provider.injectionsOf deeper := by
    funext query t
    simp only [injectionsKeeping, injectionsOf, List.filter_true]
  funext binding t
  rw [tokensWithKeeping, hinjections]
  rfl

/-- With every match kept, documents are highlighted as they are. -/
theorem highlightKeeping_all (provider : Provider World Grammar Query) :
    provider.highlightKeeping (fun _ _ => true) = provider.highlight := by
  have htokens : ∀ budget,
      provider.tokensKeeping (fun _ _ => true) budget = provider.tokens budget := by
    intro budget
    induction budget with
    | zero => exact provider.tokensWithKeeping_all none
    | succ budget ih =>
      rw [tokensKeeping, ih]
      exact provider.tokensWithKeeping_all _
  funext lang t
  rw [highlightKeeping, htokens]
  rfl

/-! ## What becomes of a match -/

/-- What can become of a match of an injection query. -/
inductive Fate where
  /-- It names no language or has no region. -/
  | nothing
  | unconfigured
  | unloadable
  | treeless
  | readable
  deriving DecidableEq, Repr

section Fate

variable (provider : Provider World Grammar Query) (configs : List LanguageConfig)
  (answer : LanguageConfig → Except LoadError (Binding Grammar Query))

def fate (m : Match) : Fate :=
  match m.injection? fun lang => (findConfig? configs lang).isSome with
  | none => .nothing
  | some (lang, content) =>
    match Session.answerTo configs answer lang with
    | .error (.unconfigured _) => .unconfigured
    | .error (.failed _) => .unloadable
    | .ok binding =>
      if provider.engine.parses binding.grammar content.text then .readable else .treeless

/-- Leaves out matches of unconfigured languages and, where injections may nest, those whose language
does not load or whose text gives no tree. -/
def keeps (mayNest : Bool) (m : Match) : Bool :=
  match provider.fate configs answer m with
  | .unconfigured => false
  | .unloadable | .treeless => !mayNest
  | .nothing | .readable => true

end Fate

variable {provider : Provider World Grammar Query} {configs : List LanguageConfig}
  {answer : LanguageConfig → Except LoadError (Binding Grammar Query)}
  {s s' : Session World Grammar Query} {lang t : Text} {m : Match} {mayNest : Bool} {n : Nat}

/-- A match that is left out has no region, or one that the engine does not read; and it has none where
nothing may nest. -/
theorem keeps_eq_false (h : provider.keeps configs answer mayNest m = false) :
    (mayNest = false → m.target? configs = none) ∧
      ∀ region, m.region? configs answer = some region →
        provider.engine.parses region.binding.grammar region.content.text = false := by
  unfold keeps fate at h
  cases hfound : m.injection? fun lang => (findConfig? configs lang).isSome with
  | none =>
    rw [hfound] at h
    cases h
  | some marked =>
    obtain ⟨lang, content⟩ := marked
    rw [hfound] at h
    dsimp only at h
    cases hconfig : findConfig? configs lang with
    | none =>
      have htarget := Match.target?_of_unconfigured hfound hconfig
      refine ⟨fun _ => htarget, fun region hregion => ?_⟩
      rw [Match.region?_eq_none htarget] at hregion
      cases hregion
    | some config =>
      rw [Match.region?_eq (Match.target?_of_configured hfound hconfig)]
      have hanswer : Session.answerTo configs answer lang = (answer config).mapError .failed := by
        rw [Session.answerTo, hconfig]
      rw [hanswer] at h ⊢
      cases hloaded : answer config with
      | error e =>
        rw [hloaded] at h
        refine ⟨fun hnest => ?_, fun region hregion => by cases hregion⟩
        rw [hnest] at h
        cases h
      | ok binding =>
        rw [hloaded] at h
        cases hparses : provider.engine.parses binding.grammar content.text with
        | true => simp [mapError_ok, hparses] at h
        | false =>
          refine ⟨fun hnest => ?_, ?_⟩
          · simp [mapError_ok, hparses, hnest] at h
          · intro region hregion
            cases hregion
            exact hparses

/-! ## Nothing comes of what is left out -/

/-- The injection of a match, if it has tokens. -/
def counted (i : Option Injection) : Option Injection := i.filter fun i => !i.tokens.isEmpty

theorem merge_counted (own : List Token) {results results' : List (Option Injection)}
    (h : results.filterMap counted = results'.filterMap counted) :
    Token.merge own (results.filterMap id) = Token.merge own (results'.filterMap id) := by
  have hcounted : ∀ results : List (Option Injection),
      (results.filterMap id).filter (fun i => !i.tokens.isEmpty) = results.filterMap counted :=
    fun results => List.filter_filterMap
  rw [← Token.merge_filter own (results.filterMap id), hcounted, h, ← hcounted, Token.merge_filter]

theorem ends_tokens_of_unread {binding : Binding Grammar Query}
    (h : provider.engine.parses binding.grammar t = false) :
    Ends (Session.Settled provider configs answer) (provider.tokens n binding t)
      (fun tokens => tokens = []) (fun _ => False) := by
  rw [tokens_eq]
  unfold tokensWith
  rw [if_pos (by simp [h])]
  exact ends_pure rfl

section Runs

variable (hload : provider.LoadsApart)

include hload

theorem ends_injectionOf_omitted (hmeant : ∀ e, ¬ Foreign configs answer e)
    (h : provider.keeps configs answer (provider.deeper n).isSome m = false) :
    Ends (Session.Settled provider configs answer) (provider.injectionOf (provider.deeper n) m)
      (fun i => counted i = none) (fun _ => False) := by
  obtain ⟨hnowhere, hunread⟩ := keeps_eq_false h
  refine ends_bind ((ends_regionOf hload _ m).imp (fun _ h => h.1) ?_) ?_
  · rintro e (⟨-, hthwarts⟩ | ⟨hnest, lang, content, htarget, -⟩)
    · exact hmeant e hthwarts.foreign
    · rw [hnowhere hnest] at htarget
      cases htarget
  · rintro _ rfl
    cases hregion : m.region? configs answer with
    | none => exact ends_pure rfl
    | some region =>
      cases n with
      | zero => exact ends_pure rfl
      | succ k =>
        refine ends_bind (ends_tokens_of_unread (hunread region hregion)) ?_
        rintro _ rfl
        exact ends_pure rfl

theorem couples_injectionOf
    {highlight highlight' : Binding Grammar Query → Text → Attempt World Grammar Query (List Token)}
    (hdeeper : ∀ binding t, Couples (Session.Settled provider configs answer) (highlight binding t)
      (highlight' binding t) fun tokens tokens' => tokens = tokens') (m : Match) :
    Couples (Session.Settled provider configs answer) (provider.injectionOf (some highlight) m)
      (provider.injectionOf (some highlight') m) fun i i' => i = i' := by
  refine couples_bind (couples_of_agrees ((Session.indistinct_settled hload).regionOf m)) ?_
  rintro region _ rfl
  cases region with
  | none => exact couples_pure rfl
  | some region =>
    refine couples_bind (hdeeper _ _) ?_
    rintro tokens _ rfl
    exact couples_pure rfl

/-- One text: what is left out does not count, and what is kept comes to the same. -/
theorem couples_tokensWith {keep : Match → Bool}
    {deeper deeper' : Option (Binding Grammar Query → Text →
      Attempt World Grammar Query (List Token))}
    (hkeep : ∀ m, keep m = true → Couples (Session.Settled provider configs answer)
      (provider.injectionOf deeper m) (provider.injectionOf deeper' m) fun i i' => i = i')
    (hdrop : ∀ m, keep m = false → Ends (Session.Settled provider configs answer)
      (provider.injectionOf deeper m) (fun i => counted i = none) fun _ => False)
    (binding : Binding Grammar Query) (t : Text) :
    Couples (Session.Settled provider configs answer) (provider.tokensWith deeper binding t)
      (provider.tokensWithKeeping keep deeper' binding t) fun tokens tokens' => tokens = tokens' := by
  unfold tokensWith tokensWithKeeping
  split_ifs
  · exact couples_pure rfl
  · refine couples_bind (couples_of_agrees ((Session.indistinct_settled hload).ownTokens _ _)) ?_
    rintro own _ rfl
    cases binding.injections with
    | none => exact couples_pure rfl
    | some query =>
      unfold injectionsOf injectionsKeeping
      simp only [bind_assoc, pure_bind]
      refine couples_bind (couples_of_agrees (agrees_checked _)) ?_
      rintro found _ rfl
      refine couples_bind (couples_mapM_filter (fun m _ => hkeep m) fun m _ => hdrop m) ?_
      intro results results' hcounted
      exact couples_pure (merge_counted own hcounted)

/-- By induction on how deep injections may nest. -/
theorem couples_tokens (hmeant : ∀ e, ¬ Foreign configs answer e) (n : Nat)
    (binding : Binding Grammar Query) (t : Text) :
    Couples (Session.Settled provider configs answer) (provider.tokens n binding t)
      (provider.tokensKeeping (provider.keeps configs answer) n binding t)
      fun tokens tokens' => tokens = tokens' := by
  induction n generalizing binding t with
  | zero =>
    have hkeep : ∀ m, Couples (Session.Settled provider configs answer)
        (provider.injectionOf none m) (provider.injectionOf none m) fun i i' => i = i' := by
      intro m
      refine couples_of_agrees ((Session.indistinct_settled hload).injectionOf ?_ m)
      intro highlight hnone
      cases hnone
    have hdrop : ∀ m, provider.keeps configs answer false m = false →
        Ends (Session.Settled provider configs answer) (provider.injectionOf (provider.deeper 0) m)
          (fun i => counted i = none) fun _ => False :=
      fun m hm => ends_injectionOf_omitted hload hmeant hm
    exact couples_tokensWith hload (fun m _ => hkeep m) hdrop binding t
  | succ n ih =>
    have hkeep : ∀ m, Couples (Session.Settled provider configs answer)
        (provider.injectionOf (some (provider.tokens n)) m)
        (provider.injectionOf (some (provider.tokensKeeping (provider.keeps configs answer) n)) m)
        fun i i' => i = i' :=
      fun m => couples_injectionOf hload ih m
    have hdrop : ∀ m, provider.keeps configs answer true m = false →
        Ends (Session.Settled provider configs answer)
          (provider.injectionOf (provider.deeper (n + 1)) m)
          (fun i => counted i = none) fun _ => False :=
      fun m hm => ends_injectionOf_omitted hload hmeant hm
    exact couples_tokensWith hload (fun m _ => hkeep m) hdrop binding t

theorem couples_highlight (hmeant : ∀ e, ¬ Foreign configs answer e) (lang t : Text) :
    Couples (Session.Settled provider configs answer) (provider.highlight lang t)
      (provider.highlightKeeping (provider.keeps configs answer) lang t)
      fun tokens tokens' => tokens = tokens' := by
  unfold highlight highlightKeeping
  refine couples_get_bind (fun s s' hs hs' => ?_) fun s hs => ?_
  · rw [hs.isConfigured, hs'.isConfigured]
  · dsimp only
    split_ifs
    · exact couples_throw _
    · refine couples_bind (couples_of_agrees ((Session.indistinct_settled hload).resolve lang)) ?_
      rintro answered _ rfl
      cases answered with
      | error e => exact couples_throw _
      | ok binding =>
        refine couples_bind (couples_tokens hload hmeant _ binding t) ?_
        rintro tokens _ rfl
        refine couples_bind (couples_of_agrees ((Session.indistinct_settled hload).report _)) ?_
        rintro _ _ rfl
        exact couples_pure rfl

end Runs

/-- Once the language of the document is there, no failure of another language ends the work: what
ends it is an inverted range or nesting too deep. Results and errors are those that come of leaving out
matches of unconfigured languages and, where injections may nest, those whose language does not load or
whose text gives no tree. -/
theorem highlight_eq_keeping (hload : provider.LoadsApart)
    (hmeant : ∀ config ∈ configs, ∀ e, answer config = .error e → e.failure?.isSome = true)
    (hs : s.Settled provider configs answer) {binding : Binding Grammar Query}
    (hbinding : Session.answerTo configs answer lang = .ok binding) (t : Text) :
    (∀ e, ((provider.highlight lang t).outcome s).1 = .error e →
      (∃ r, e = .inverted r) ∨ ∃ l, e = .tooDeep l provider.maxDepth) ∧
    ∀ s', s'.Settled provider configs answer →
      ((provider.highlight lang t).outcome s).1 =
        ((provider.highlightKeeping (provider.keeps configs answer) lang t).outcome s').1 := by
  have hforeign : ∀ e, ¬ Foreign configs answer e := by
    rintro _ ⟨hconfig, hanswer, hnone⟩
    have hsome := hmeant _ hconfig _ hanswer
    rw [hnone] at hsome
    cases hsome
  constructor
  · intro e he
    have hends := (ends_highlight hload hbinding t s hs).1
    rw [he] at hends
    cases hends with
    | inverted r => exact Or.inl ⟨r, rfl⟩
    | thwarted _ _ _ hthwarts => exact absurd hthwarts.foreign (hforeign _)
    | tooDeep l _ => exact Or.inr ⟨l, rfl⟩
  · intro s' hs'
    exact pairs_eq.mp (couples_highlight hload hforeign lang t s s' hs hs').1

/-! ## Languages of which nothing comes

The document is marked as a region of four languages: one is not configured, one does not load, one
gives no tree, and the last is marked in turn as a region of the one that gives no tree. -/

/-- The query `none` finds the first character; the others mark the text as regions of languages. -/
def barrenEngine : Engine Bool (Option (List Text)) where
  parses grammar _ := grammar
  search
    | none, t => .ok [⟨0, [⟨"string", ⟨⟨0, 0⟩, ⟨0, 1⟩, by decide⟩, t⟩], []⟩]
    | some langs, t => .ok (langs.map fun lang =>
        ⟨0, [⟨"injection.content", ⟨⟨0, 0⟩, ⟨0, 1⟩, by decide⟩, t⟩],
          [("injection.language", some lang)]⟩)

def barrenDocument : Binding Bool (Option (List Text)) :=
  ⟨"document", true, none, some (some ["absent", "broken", "dry", "outer"]), none⟩

/-- The grammar `false` gives no tree. -/
def barrenLoad (lang : Text) : Except LoadError (Binding Bool (Option (List Text))) :=
  if lang = "document" then .ok barrenDocument
  else if lang = "outer" then .ok ⟨lang, true, none, some (some ["dry"]), none⟩
  else if lang = "dry" then .ok ⟨lang, false, none, none, none⟩
  else .error (.failure ⟨lang, .libraryMissing ⟨.here, ["a.so"]⟩⟩)

def barrenProvider (maxDepth : Nat) : Provider Unit Bool (Option (List Text)) where
  engine := barrenEngine
  load config := pure (barrenLoad config.lang, [])
  legend := .standard
  maxDepth

def barrenConfigs : List LanguageConfig :=
  (["document", "outer", "dry", "broken"] : List Text).map fun lang =>
    ⟨lang, "a.so", "a.scm", none, false, none, none⟩

theorem barren_meant : ∀ config ∈ barrenConfigs, ∀ e,
    barrenLoad config.lang = .error e → e.failure?.isSome = true := by
  intro config _ e he
  unfold barrenLoad at he
  split_ifs at he
  cases he
  rfl

/-- Two texts are read, in which nothing comes of six matches. -/
theorem highlight_eq_keeping_barren :
    let provider := barrenProvider 2
    let answer := fun config : LanguageConfig => barrenLoad config.lang
    let s : Session Unit Bool (Option (List Text)) := .ofConfigs () barrenConfigs
    provider.LoadsApart ∧ s.Settled provider barrenConfigs answer ∧
      Session.answerTo barrenConfigs answer "document" = .ok barrenDocument ∧
      ((provider.highlightKeeping (provider.keeps barrenConfigs answer) "document" "a").outcome s).1 =
        .ok [⟨⟨⟨0, 0⟩, ⟨0, 1⟩, by decide⟩, "string", []⟩] ∧
      ((provider.highlight "document" "a").outcome s).1 =
        .ok [⟨⟨⟨0, 0⟩, ⟨0, 1⟩, by decide⟩, "string", []⟩] := by
  intro provider answer s
  have hload : provider.LoadsApart := fun _ _ => rfl
  have hs : s.Settled provider barrenConfigs answer := Session.settled_ofConfigs _ _ _
  have hbinding : Session.answerTo barrenConfigs answer "document" = .ok barrenDocument := by decide
  have hkept : ((provider.highlightKeeping (provider.keeps barrenConfigs answer)
      "document" "a").outcome s).1 = .ok [⟨⟨⟨0, 0⟩, ⟨0, 1⟩, by decide⟩, "string", []⟩] := by
    decide +kernel
  have hsame := (highlight_eq_keeping hload barren_meant hs hbinding "a").2 s hs
  exact ⟨hload, hs, hbinding, hkept, hsame.trans hkept⟩

/-- As `keeps`, but texts that give no tree are left out where nothing may nest as well. -/
def keepsTrees (provider : Provider World Grammar Query) (configs : List LanguageConfig)
    (answer : LanguageConfig → Except LoadError (Binding Grammar Query)) (mayNest : Bool)
    (m : Match) : Bool :=
  provider.keeps configs answer mayNest m && provider.fate configs answer m != .treeless

/-- At the ceiling nobody looks for a tree: the region in the text of the other region is too deep,
though nothing would come of it. -/
theorem treeless_tooDeep :
    let provider := barrenProvider 1
    let answer := fun config : LanguageConfig => barrenLoad config.lang
    let s : Session Unit Bool (Option (List Text)) := .ofConfigs () barrenConfigs
    provider.LoadsApart ∧ s.Settled provider barrenConfigs answer ∧
      (∀ config ∈ barrenConfigs, ∀ e, answer config = .error e → e.failure?.isSome = true) ∧
      Session.answerTo barrenConfigs answer "document" = .ok barrenDocument ∧
      ((provider.highlight "document" "a").outcome s).1 = .error (.tooDeep "dry" 1) ∧
      ((provider.highlightKeeping (provider.keepsTrees barrenConfigs answer)
        "document" "a").outcome s).1 = .ok [⟨⟨⟨0, 0⟩, ⟨0, 1⟩, by decide⟩, "string", []⟩] := by
  intro provider answer s
  refine ⟨fun _ _ => rfl, Session.settled_ofConfigs _ _ _, barren_meant, by decide, ?_, ?_⟩
  · decide +kernel
  · decide +kernel

end Provider

end SemanticHighlight
