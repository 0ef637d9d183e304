import SemanticHighlight.Highlight.Setup
import SemanticHighlight.Proofs.Engine.Loading
import SemanticHighlight.Proofs.Highlight.Marked
import SemanticHighlight.Proofs.Highlight.Visit

/-!
# How deep injections nest

Regions are visited at most as deep as the provider allows. Whether a run ends because injections nest
deeper is a question about the texts alone: it takes a chain of as many injections as may nest, each
in the text of the one before, and one more match in the innermost text (`Exceeds`). Without such a
chain the run never ends so; with it, the run always ends in an error, and in this one unless an
inverted range or an unaccounted failure of a load comes first (`highlight_tooDeep`). Such a failure
comes of a match less deep than the ceiling (`failsBy_of_highlight`), as in a run where the query of one
language has a path that cannot be handed over (`failsBy_highlight_zeroPath`).
-/

namespace SemanticHighlight

variable {World Grammar Query : Type}

namespace Provider

open Attempt

variable {provider : Provider World Grammar Query} {configs : List LanguageConfig}
  {answer : LanguageConfig → Except LoadError (Binding Grammar Query)}
  {s : Session World Grammar Query} {v w : Visit World Grammar Query} {lang t : Text} {n : Nat}

/-! ## Counting from the document on -/

/-- Highlighting the document in the session `s` visits this text, that many regions deep. -/
inductive VisitsAt (provider : Provider World Grammar Query) (lang t : Text)
    (s : Session World Grammar Query) : Nat → Visit World Grammar Query → Prop
  | document {v : Visit World Grammar Query} (hstarts : provider.Starts lang t s v) :
      VisitsAt provider lang t s 0 v
  | region {n : Nat} {v w : Visit World Grammar Query} (hvisits : VisitsAt provider lang t s n v)
      (hnests : provider.Nests v w) : VisitsAt provider lang t s (n + 1) w

theorem Nests.budget_eq (h : provider.Nests v w) : v.budget = w.budget + 1 := by
  cases h with
  | region hbudget _ _ _ => exact hbudget

/-- What a visit has left to nest is what the way to it has not used up. -/
theorem VisitsAt.depth_add_budget (h : provider.VisitsAt lang t s n v) :
    n + v.budget = provider.maxDepth := by
  induction h with
  | document hstarts => rw [hstarts.budget, Nat.zero_add]
  | region _ hnests ih =>
    have hbudget := hnests.budget_eq
    omega

theorem VisitsAt.le_maxDepth (h : provider.VisitsAt lang t s n v) : n ≤ provider.maxDepth := by
  have hsum := h.depth_add_budget
  omega

/-! ## Chains of injections -/

/-- The second text is that of an injection in the first, in a configured language that loads, and the
engine reads it. -/
inductive Embeds (provider : Provider World Grammar Query) (configs : List LanguageConfig)
    (answer : LanguageConfig → Except LoadError (Binding Grammar Query)) :
    Reading Grammar Query → Reading Grammar Query → Prop
  | region {r : Reading Grammar Query} {m : Match} {region : Region Grammar Query}
      (hfinds : provider.Finds r m) (hregion : m.region? configs answer = some region)
      (hparses : provider.engine.parses region.binding.grammar region.content.text = true) :
      Embeds provider configs answer r region.reading

/-- The second text is so many injections deep in the first. -/
inductive Chain (provider : Provider World Grammar Query) (configs : List LanguageConfig)
    (answer : LanguageConfig → Except LoadError (Binding Grammar Query)) :
    Nat → Reading Grammar Query → Reading Grammar Query → Prop
  | here (r : Reading Grammar Query) : Chain provider configs answer 0 r r
  | deeper {n : Nat} {r next inner : Reading Grammar Query}
      (hembeds : Embeds provider configs answer r next)
      (hchain : Chain provider configs answer n next inner) :
      Chain provider configs answer (n + 1) r inner

/-- Injections nest `n` deep in the text, and in the innermost of their texts another one is marked, in
a configured language. -/
def Exceeds (provider : Provider World Grammar Query) (configs : List LanguageConfig)
    (answer : LanguageConfig → Except LoadError (Binding Grammar Query)) (n : Nat)
    (r : Reading Grammar Query) : Prop :=
  ∃ inner m lang content, Chain provider configs answer n r inner ∧ provider.Finds inner m ∧
    m.target? configs = some (lang, content)

def Through (provider : Provider World Grammar Query) (configs : List LanguageConfig)
    (answer : LanguageConfig → Except LoadError (Binding Grammar Query)) : Nat → Match → Prop
  | 0, m => ∃ lang content, m.target? configs = some (lang, content)
  | n + 1, m => ∃ region, m.region? configs answer = some region ∧
      Exceeds provider configs answer n region.reading

theorem Chain.parses {k : Nat} {r inner : Reading Grammar Query} {m : Match}
    (h : Chain provider configs answer k r inner) (hfinds : provider.Finds inner m) :
    provider.engine.parses r.binding.grammar r.text = true := by
  cases h with
  | here => exact hfinds.1
  | deeper hembeds _ =>
    cases hembeds with
    | region hfinds _ _ => exact hfinds.1

theorem Exceeds.parses {r : Reading Grammar Query} (h : Exceeds provider configs answer n r) :
    provider.engine.parses r.binding.grammar r.text = true := by
  obtain ⟨inner, m, lang, content, hchain, hfinds, -⟩ := h
  exact hchain.parses hfinds

theorem Embeds.exists_target {r r' : Reading Grammar Query} (h : Embeds provider configs answer r r') :
    ∃ m lang content, provider.Finds r m ∧ m.target? configs = some (lang, content) := by
  cases h with
  | region hfinds hregion _ =>
    obtain ⟨⟨lang, content⟩, htarget, -⟩ := Option.bind_eq_some_iff.mp hregion
    exact ⟨_, lang, content, hfinds, htarget⟩

/-- What is within itself is so as deep as one likes. -/
theorem exceeds_of_embeds_self {r : Reading Grammar Query} (h : Embeds provider configs answer r r)
    (n : Nat) : Exceeds provider configs answer n r := by
  have hchain : Chain provider configs answer n r r := by
    induction n with
    | zero => exact .here r
    | succ n ih => exact .deeper h ih
  obtain ⟨m, lang, content, hfinds, htarget⟩ := h.exists_target
  exact ⟨r, m, lang, content, hchain, hfinds, htarget⟩

/-- A chain begins with a match in the text. -/
theorem exceeds_iff_through {r : Reading Grammar Query} :
    Exceeds provider configs answer n r ↔
      ∃ m, provider.Finds r m ∧ Through provider configs answer n m := by
  cases n with
  | zero =>
    constructor
    · rintro ⟨inner, m, lang, content, hchain, hfinds, htarget⟩
      cases hchain
      exact ⟨m, hfinds, lang, content, htarget⟩
    · rintro ⟨m, hfinds, lang, content, htarget⟩
      exact ⟨r, m, lang, content, .here r, hfinds, htarget⟩
  | succ n =>
    constructor
    · rintro ⟨inner, m, lang, content, hchain, hlast, htarget⟩
      cases hchain with
      | deeper hembeds hchain =>
        cases hembeds with
        | region hfinds hregion _ =>
          exact ⟨_, hfinds, _, hregion, inner, m, lang, content, hchain, hlast, htarget⟩
    · rintro ⟨m', hfinds, region, hregion, hexceeds⟩
      have hparses := hexceeds.parses
      obtain ⟨inner, m, lang, content, hchain, hlast, htarget⟩ := hexceeds
      exact ⟨inner, m, lang, content, .deeper (.region hfinds hregion hparses) hchain, hlast, htarget⟩

/-! ## What a run in a settled session ends with -/

/-- An inverted range, or a load that fails in a way that is not accounted for. -/
inductive Faults (configs : List LanguageConfig)
    (answer : LanguageConfig → Except LoadError (Binding Grammar Query)) : HighlightError → Prop
  | inverted (e : InvertedRange) : Faults configs answer (.inverted e)
  | foreign {e : HighlightError} (h : Foreign configs answer e) : Faults configs answer e

/-- What ends the work on a text in which injections may nest `n` deep: an inverted range, a match less
deep than that whose language fails to load, or a chain that is too long. -/
inductive FailsBy (provider : Provider World Grammar Query) (configs : List LanguageConfig)
    (answer : LanguageConfig → Except LoadError (Binding Grammar Query)) (n : Nat)
    (r : Reading Grammar Query) : HighlightError → Prop
  | inverted (e : InvertedRange) : FailsBy provider configs answer n r (.inverted e)
  | thwarted {k : Nat} {inner : Reading Grammar Query} {m : Match} {e : HighlightError} (hlt : k < n)
      (hchain : Chain provider configs answer k r inner) (hfinds : provider.Finds inner m)
      (hthwarts : Thwarts configs answer m e) : FailsBy provider configs answer n r e
  | tooDeep (lang : Text) (hexceeds : Exceeds provider configs answer n r) :
      FailsBy provider configs answer n r (.tooDeep lang provider.maxDepth)

/-- What ends the work on a match, seen from its text. -/
inductive FailsAt (provider : Provider World Grammar Query) (configs : List LanguageConfig)
    (answer : LanguageConfig → Except LoadError (Binding Grammar Query)) :
    Nat → Match → HighlightError → Prop
  | thwarted {n : Nat} {m : Match} {e : HighlightError} (hthwarts : Thwarts configs answer m e) :
      FailsAt provider configs answer (n + 1) m e
  | within {n : Nat} {m : Match} {e : HighlightError} {region : Region Grammar Query}
      (hregion : m.region? configs answer = some region)
      (hfails : FailsBy provider configs answer n region.reading e) :
      FailsAt provider configs answer (n + 1) m e
  | tooDeep {m : Match} {lang : Text} {content : Capture}
      (htarget : m.target? configs = some (lang, content)) :
      FailsAt provider configs answer 0 m (.tooDeep lang provider.maxDepth)

theorem FailsAt.failsBy {r : Reading Grammar Query} {m : Match} {e : HighlightError}
    (h : FailsAt provider configs answer n m e) (hfinds : provider.Finds r m) :
    FailsBy provider configs answer n r e := by
  cases h with
  | thwarted hthwarts => exact .thwarted (Nat.succ_pos _) (.here r) hfinds hthwarts
  | tooDeep htarget => exact .tooDeep _ ⟨r, m, _, _, .here r, hfinds, htarget⟩
  | within hregion hfails =>
    cases hfails with
    | inverted e => exact .inverted e
    | thwarted hlt hchain hlast hthwarts =>
      have hembeds := Embeds.region hfinds hregion (hchain.parses hlast)
      exact .thwarted (Nat.succ_lt_succ hlt) (.deeper hembeds hchain) hlast hthwarts
    | tooDeep lang hexceeds =>
      exact .tooDeep lang (exceeds_iff_through.mpr ⟨m, hfinds, _, hregion, hexceeds⟩)

theorem ends_ownTokens {fails : HighlightError → Prop} (hinverted : ∀ e, fails (.inverted e))
    (binding : Binding Grammar Query) (t : Text) :
    Ends (Session.Settled provider configs answer) (provider.ownTokens binding t) (fun _ => True)
      fails := by
  refine ends_bind (ends_checked (fun _ _ => trivial) fun r _ => hinverted r) fun found _ => ?_
  refine ends_bind (ends_report _) fun _ _ => ?_
  exact ends_checked (fun _ _ => trivial) fun r _ => hinverted r

/-- A match gives a result exactly if no chain that is too long begins with it. -/
theorem ends_injectionOf (hload : provider.LoadsApart) {m : Match}
    (hdeeper : ∀ k, n = k + 1 → ∀ r : Reading Grammar Query,
      Ends (Session.Settled provider configs answer) (provider.tokens k r.binding r.text)
        (fun _ => ¬ Exceeds provider configs answer k r) (FailsBy provider configs answer k r)) :
    Ends (Session.Settled provider configs answer) (provider.injectionOf (provider.deeper n) m)
      (fun _ => ¬ Through provider configs answer n m) (FailsAt provider configs answer n m) := by
  cases n with
  | zero =>
    refine ends_bind ((ends_regionOf hload false m).imp (fun _ h => h) ?_) ?_
    · rintro e (⟨hnest, -⟩ | ⟨-, lang, content, htarget, rfl⟩)
      · cases hnest
      · exact .tooDeep htarget
    · rintro _ ⟨rfl, hnone⟩
      have hthrough : ¬ Through provider configs answer 0 m := by
        rintro ⟨lang, content, htarget⟩
        rw [hnone rfl] at htarget
        cases htarget
      rw [Match.region?_eq_none (hnone rfl)]
      exact ends_pure hthrough
  | succ k =>
    refine ends_bind ((ends_regionOf hload true m).imp (fun _ h => h) ?_) ?_
    · rintro e (⟨-, hthwarts⟩ | ⟨hnest, -⟩)
      · exact .thwarted hthwarts
      · cases hnest
    · rintro _ ⟨rfl, -⟩
      cases hregion : m.region? configs answer with
      | none =>
        apply ends_pure
        rintro ⟨region, hsome, -⟩
        rw [hregion] at hsome
        cases hsome
      | some region =>
        refine ends_bind ((hdeeper k rfl region.reading).imp (fun _ h => h) ?_) fun tokens hnot => ?_
        · exact fun e => .within hregion
        apply ends_pure
        rintro ⟨region', hsome, hexceeds⟩
        rw [hregion] at hsome
        cases hsome
        exact hnot hexceeds

section OneText

variable {deeper : Option (Binding Grammar Query → Text → Attempt World Grammar Query (List Token))}
  {through : Match → Prop} {failsAt : Match → HighlightError → Prop}
  {fails : HighlightError → Prop} {r : Reading Grammar Query}

theorem ends_injectionsOf
    (hinjection : ∀ m, Ends (Session.Settled provider configs answer)
      (provider.injectionOf deeper m) (fun _ => ¬ through m) (failsAt m))
    (hinverted : ∀ e, fails (.inverted e)) (hfails : ∀ m e, provider.Finds r m → failsAt m e → fails e)
    {query : Query} (hparses : provider.engine.parses r.binding.grammar r.text = true)
    (hquery : r.binding.injections = some query) :
    Ends (Session.Settled provider configs answer) (provider.injectionsOf deeper query r.text)
      (fun _ => ¬ ∃ m, provider.Finds r m ∧ through m) fails := by
  apply ends_bind (ends_checked (fun found h => h) fun e _ => hinverted e)
  intro found hfound
  refine ends_bind (ends_mapM (Q := fun m => ¬ through m) ?_) ?_
  · intro m hm
    exact (hinjection m).imp (fun _ h => h) fun e =>
      hfails m e ⟨hparses, query, found, hquery, hfound, hm⟩
  · intro results hnone
    apply ends_pure
    rintro ⟨m, ⟨-, query', found', hquery', hfound', hm⟩, hthrough⟩
    rw [hquery] at hquery'
    cases hquery'
    rw [hfound] at hfound'
    cases hfound'
    exact hnone m hm hthrough

theorem ends_tokensWith
    (hinjection : ∀ m, Ends (Session.Settled provider configs answer)
      (provider.injectionOf deeper m) (fun _ => ¬ through m) (failsAt m))
    (hinverted : ∀ e, fails (.inverted e))
    (hfails : ∀ m e, provider.Finds r m → failsAt m e → fails e) :
    Ends (Session.Settled provider configs answer) (provider.tokensWith deeper r.binding r.text)
      (fun _ => ¬ ∃ m, provider.Finds r m ∧ through m) fails := by
  unfold tokensWith
  split_ifs with hunread
  · apply ends_pure
    rintro ⟨m, hfinds, -⟩
    rw [hfinds.1] at hunread
    cases hunread
  · refine ends_bind (ends_ownTokens hinverted _ _) fun own _ => ?_
    cases hquery : r.binding.injections with
    | none =>
      apply ends_pure
      rintro ⟨m, ⟨-, query, found, hsome, -⟩, -⟩
      rw [hquery] at hsome
      cases hsome
    | some query =>
      have hparses : provider.engine.parses r.binding.grammar r.text = true := by simpa using hunread
      exact ends_bind (ends_injectionsOf hinjection hinverted hfails hparses hquery) fun _ h =>
        ends_pure h

end OneText

/-- By induction on how deep injections may nest. -/
theorem ends_tokens (hload : provider.LoadsApart) (n : Nat) (r : Reading Grammar Query) :
    Ends (Session.Settled provider configs answer) (provider.tokens n r.binding r.text)
      (fun _ => ¬ Exceeds provider configs answer n r) (FailsBy provider configs answer n r) := by
  have hfails : ∀ n (r : Reading Grammar Query) m e, provider.Finds r m →
      FailsAt provider configs answer n m e → FailsBy provider configs answer n r e :=
    fun n r m e hfinds h => h.failsBy hfinds
  induction n generalizing r with
  | zero =>
    rw [tokens_eq, exceeds_iff_through]
    apply ends_tokensWith (fun m => ends_injectionOf hload ?_) .inverted (hfails 0 r)
    intro k hk
    cases hk
  | succ n ih =>
    rw [tokens_eq, exceeds_iff_through]
    apply ends_tokensWith (fun m => ends_injectionOf hload ?_) .inverted (hfails (n + 1) r)
    intro k hk
    cases hk
    exact ih

theorem ends_highlight (hload : provider.LoadsApart) {binding : Binding Grammar Query}
    (hbinding : Session.answerTo configs answer lang = .ok binding) (t : Text) :
    Ends (Session.Settled provider configs answer) (provider.highlight lang t)
      (fun _ => ¬ Exceeds provider configs answer provider.maxDepth ⟨binding, t⟩)
      (FailsBy provider configs answer provider.maxDepth ⟨binding, t⟩) := by
  have hconfigured : (findConfig? configs lang).isSome = true := by
    unfold Session.answerTo at hbinding
    cases hconfig : findConfig? configs lang with
    | none =>
      rw [hconfig] at hbinding
      cases hbinding
    | some config => rfl
  unfold highlight
  apply ends_get_bind
  intro s hs
  rw [hs.isConfigured]
  simp only [hconfigured, Bool.not_true, Bool.false_eq_true, if_false]
  apply ends_bind (ends_resolve hload lang)
  rintro _ rfl
  rw [hbinding]
  refine ends_bind (ends_tokens hload provider.maxDepth ⟨binding, t⟩) fun tokens hnot => ?_
  exact ends_bind (ends_report _) fun _ _ => ends_pure hnot

/-- How highlighting fails: in an inverted range, at a match less deep than injections may nest whose
language fails to load in a way that is not accounted for, or because injections nest deeper. -/
theorem failsBy_of_highlight (hload : provider.LoadsApart) (hs : s.Settled provider configs answer)
    {binding : Binding Grammar Query} (hbinding : Session.answerTo configs answer lang = .ok binding)
    {e : HighlightError} (h : ((provider.highlight lang t).outcome s).1 = .error e) :
    FailsBy provider configs answer provider.maxDepth ⟨binding, t⟩ e := by
  have hends := (ends_highlight hload hbinding t s hs).1
  rw [h] at hends
  exact hends

theorem FailsBy.faults_or {r : Reading Grammar Query} {e : HighlightError}
    (h : FailsBy provider configs answer n r e) : Faults configs answer e ∨
      ∃ lang, e = .tooDeep lang provider.maxDepth ∧ Exceeds provider configs answer n r := by
  cases h with
  | inverted e => exact Or.inl (.inverted e)
  | thwarted _ _ _ hthwarts => exact Or.inl (.foreign hthwarts.foreign)
  | tooDeep lang hexceeds => exact Or.inr ⟨lang, rfl, hexceeds⟩

/-- No text is visited deeper than injections may nest. Highlighting ends because injections nest
deeper only if there is a chain of so many injections with one more match in the innermost text; and
with such a chain it ends so, or else in an inverted range or in a load that fails in a way that is not
accounted for. -/
theorem highlight_tooDeep (hload : provider.LoadsApart) (hs : s.Settled provider configs answer)
    {binding : Binding Grammar Query} (hbinding : Session.answerTo configs answer lang = .ok binding)
    (t : Text) :
    (∀ n v, provider.VisitsAt lang t s n v → n ≤ provider.maxDepth) ∧
      (∀ l d, ((provider.highlight lang t).outcome s).1 = .error (.tooDeep l d) →
        d = provider.maxDepth ∧ Exceeds provider configs answer provider.maxDepth ⟨binding, t⟩) ∧
      (Exceeds provider configs answer provider.maxDepth ⟨binding, t⟩ →
        (∃ l, ((provider.highlight lang t).outcome s).1 = .error (.tooDeep l provider.maxDepth)) ∨
          ∃ e, Faults configs answer e ∧ ((provider.highlight lang t).outcome s).1 = .error e) := by
  refine ⟨fun n v h => h.le_maxDepth, ?_, ?_⟩
  · intro l d hresult
    rcases (failsBy_of_highlight hload hs hbinding hresult).faults_or with hfault | ⟨l', heq, hexceeds⟩
    · cases hfault with
      | foreign h => cases h
    · cases heq
      exact ⟨rfl, hexceeds⟩
  · intro hexceeds
    cases hresult : ((provider.highlight lang t).outcome s).1 with
    | ok tokens =>
      have hends := (ends_highlight hload hbinding t s hs).1
      rw [hresult] at hends
      exact absurd hexceeds hends
    | error e =>
      rcases (failsBy_of_highlight hload hs hbinding hresult).faults_or with hfault | ⟨l, rfl, -⟩
      · exact Or.inr ⟨e, hfault, rfl⟩
      · exact Or.inl ⟨l, rfl⟩

/-! ## A language in itself

An injection query that marks every text as a region of its own language, so that only the ceiling
ends the nesting. -/

def endlessMatch (t : Text) : Match :=
  ⟨0, [⟨"injection.content", ⟨⟨0, 0⟩, ⟨0, 0⟩, by decide⟩, t⟩], [("injection.language", some "x")]⟩

/-- Of the two queries, only `true` finds anything. -/
def endlessEngine : Engine Unit Bool where
  parses _ _ := true
  search query t := .ok (if query then [endlessMatch t] else [])

def endlessProvider (maxDepth : Nat) : Provider Unit Unit Bool where
  engine := endlessEngine
  load config := pure (.ok ⟨config.lang, (), false, some true, none⟩, [])
  legend := .standard
  maxDepth

def endlessConfigs : List LanguageConfig :=
  [⟨"x", "x.so", "x.scm", some "x.scm", false, none, none⟩]

/-- Three texts are read, the third of which has too deep a region. -/
theorem highlight_tooDeep_endless :
    let provider := endlessProvider 2
    let s : Session Unit Unit Bool := .ofConfigs () endlessConfigs
    let binding : Binding Unit Bool := ⟨"x", (), false, some true, none⟩
    provider.LoadsApart ∧ s.Settled provider endlessConfigs (provider.loaded ()) ∧
      Session.answerTo endlessConfigs (provider.loaded ()) "x" = .ok binding ∧
      ((provider.highlight "x" "a").outcome s).1 = .error (.tooDeep "x" 2) ∧
      Exceeds provider endlessConfigs (provider.loaded ()) 2 ⟨binding, "a"⟩ := by
  intro provider s binding
  have hload : provider.LoadsApart := fun _ _ => rfl
  have hs : s.Settled provider endlessConfigs (provider.loaded ()) := Session.settled_ofConfigs _ _ _
  have hbinding : Session.answerTo endlessConfigs (provider.loaded ()) "x" = .ok binding := by decide
  have hresult : ((provider.highlight "x" "a").outcome s).1 = .error (.tooDeep "x" 2) := by decide
  exact ⟨hload, hs, hbinding, hresult, ((highlight_tooDeep hload hs hbinding "a").2.1 _ _ hresult).2⟩

/-! ## A path with a zero

A document with a region of its own language, after one in a language whose query has a path that the
system has no use for. -/

def zeroHost : Host :=
  .ofFiles (Host.rootFiles [("h", "[]"), ("i", Host.markingQuery "bad" "x")])
    [("g", [("language", .object [])])]

def zeroConfigs : List LanguageConfig :=
  [⟨"x", "module:g", "/h", some "/i", false, none, none⟩,
    ⟨"bad", "module:g", Host.zeroPath, none, false, none, none⟩]

def regionsOf (provider : Provider World Grammar Query) (configs : List LanguageConfig)
    (answer : LanguageConfig → Except LoadError (Binding Grammar Query)) (query : Query) (t : Text) :
    Option (List (Binding Grammar Query × Text)) :=
  (provider.engine.search query t).toOption.map fun found => found.filterMap fun m =>
    (m.region? configs answer).map fun region => (region.binding, region.content.text)

theorem embeds_of_regionsOf {r : Reading Grammar Query} {query : Query}
    {binding : Binding Grammar Query} (hparses : provider.engine.parses r.binding.grammar r.text = true)
    (hquery : r.binding.injections = some query)
    (hregions : regionsOf provider configs answer query r.text = some [(binding, t)])
    (hinner : provider.engine.parses binding.grammar t = true) :
    Embeds provider configs answer r ⟨binding, t⟩ := by
  obtain ⟨found, hfound, hfiltered⟩ := Option.map_eq_some_iff.mp hregions
  have hsearch : provider.engine.search query r.text = .ok found := by
    cases hsearch : provider.engine.search query r.text with
    | ok found' =>
      rw [hsearch] at hfound
      exact congrArg Except.ok (Option.some.inj hfound)
    | error e =>
      rw [hsearch] at hfound
      cases hfound
  have hmem : (binding, t) ∈ found.filterMap fun m =>
      (m.region? configs answer).map fun region => (region.binding, region.content.text) := by
    rw [hfiltered]
    exact List.mem_cons_self
  obtain ⟨m, hm, hmap⟩ := List.mem_filterMap.mp hmem
  obtain ⟨region, hregion, heq⟩ := Option.map_eq_some_iff.mp hmap
  obtain ⟨rfl, rfl⟩ := Prod.mk.inj heq
  exact .region ⟨hparses, query, found, hquery, hsearch, hm⟩ hregion hinner

/-- Injections nest deeper than they may, and another region keeps highlighting from coming to that. -/
theorem failsBy_highlight_zeroPath :
    let provider := Host.platform.provider patternEngine .standard 16
    let s : HostSession := .ofConfigs zeroHost zeroConfigs
    let answer := provider.loaded zeroHost
    ∃ binding, Session.answerTo zeroConfigs answer "x" = .ok binding ∧
      Exceeds provider zeroConfigs answer 16 ⟨binding, "ba"⟩ ∧
      ((provider.highlight "x" "ba").outcome s).1 = .error (.load (.unreadable (.badName .zero))) := by
  intro provider s answer
  let marking : PatternQuery :=
    [⟨.run [98], [(0, "injection.content")], [("injection.language", some "bad")]⟩,
      ⟨.run [97], [(0, "injection.content")], [("injection.language", some "x")]⟩]
  let binding : HostBinding := ⟨"x", ⟨15, true⟩, [], some marking, none⟩
  obtain ⟨hbinding, houter, hinner, hresult⟩ :
      Session.answerTo zeroConfigs answer "x" = .ok binding ∧
        regionsOf provider zeroConfigs answer marking "ba" = some [(binding, Text.ofString "a")] ∧
        regionsOf provider zeroConfigs answer marking "a" = some [(binding, Text.ofString "a")] ∧
        ((provider.highlight "x" "ba").outcome s).1 = .error (.load (.unreadable (.badName .zero))) := by
    decide +kernel
  have hself : Exceeds provider zeroConfigs answer 15 ⟨binding, "a"⟩ :=
    exceeds_of_embeds_self (embeds_of_regionsOf rfl rfl hinner rfl) 15
  obtain ⟨inner, m, lang, content, hchain, hfinds, htarget⟩ := hself
  have hembeds : Embeds provider zeroConfigs answer ⟨binding, "ba"⟩ ⟨binding, "a"⟩ :=
    embeds_of_regionsOf rfl rfl houter rfl
  exact ⟨binding, hbinding, ⟨inner, m, lang, content, .deeper hembeds hchain, hfinds, htarget⟩, hresult⟩

end Provider

end SemanticHighlight
