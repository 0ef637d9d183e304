import Mathlib.Logic.Relation
import Mathlib.Tactic.SplitIfs
import SemanticHighlight.Proofs.Highlight.Attempt

/-!
# The texts that highlighting visits

Highlighting a document visits its text, the texts of the injected regions in it, the texts of the
regions in those, and so on. A visit knows how deep it may still go and in which session it begins,
because loading a language for one region is seen by all that follow. `Nests` is the step from a text
to a region in it, `Visits` its closure from the document; what holds along a step holds of a whole
run, by induction on the budget that every step lowers by one.
-/

namespace SemanticHighlight

/-- A text that is read with a binding, from a session on, with injections nesting `budget` deep. -/
structure Visit (World Grammar Query : Type) where
  budget : Nat
  binding : Binding Grammar Query
  text : Text
  session : Session World Grammar Query

variable {World Grammar Query : Type}

namespace Provider

variable (provider : Provider World Grammar Query)

def deeper : Nat → Option (Binding Grammar Query → Text → Attempt World Grammar Query (List Token))
  | 0 => none
  | budget + 1 => some (provider.tokens budget)

theorem tokens_eq (budget : Nat) :
    provider.tokens budget = provider.tokensWith (provider.deeper budget) := by
  cases budget with
  | zero => rfl
  | succ budget => rfl

def outcomeOf (v : Visit World Grammar Query) :
    Except HighlightError (List Token) × Session World Grammar Query :=
  (provider.tokens v.budget v.binding v.text).outcome v.session

/-- The engine reads the text of the visit and finds these matches of its highlight query. -/
def Highlights (v : Visit World Grammar Query) (found : List Match) : Prop :=
  provider.engine.parses v.binding.grammar v.text = true ∧
    provider.engine.search v.binding.highlights v.text = .ok found

/-- The visit has its own tokens, and goes on to its injection query in the session `s`. -/
def Continues (v : Visit World Grammar Query) (query : Query) (s : Session World Grammar Query) :
    Prop :=
  provider.engine.parses v.binding.grammar v.text = true ∧ v.binding.injections = some query ∧
    ∃ own, (provider.ownTokens v.binding v.text).outcome v.session = (.ok own, s)

/-- The visit finds these matches of its injection query, and goes through them from `s` on. -/
def Marks (v : Visit World Grammar Query) (found : List Match) (s : Session World Grammar Query) :
    Prop :=
  ∃ query, provider.Continues v query s ∧ provider.engine.search query v.text = .ok found

/-- The visit ends up with these injections. -/
def Injects (v : Visit World Grammar Query) (injections : List Injection) : Prop :=
  ∃ found s results s', provider.Marks v found s ∧
    (found.mapM (provider.injectionOf (provider.deeper v.budget))).outcome s = (.ok results, s') ∧
    injections = results.filterMap id

/-- What the tokens of the visit are merged from: those of its own language and the injections. -/
inductive Parts (v : Visit World Grammar Query) : List Token → List Injection → Prop where
  | unread (h : ¬ provider.engine.parses v.binding.grammar v.text = true) : Parts v [] []
  | plain {found : List Match} {own : List Token} (hfound : provider.Highlights v found)
      (hown : Token.normalize (classify provider.legend v.binding found).1 = .ok own)
      (hquery : v.binding.injections = none) : Parts v own []
  | injected {found : List Match} {own : List Token} {injections : List Injection}
      (hfound : provider.Highlights v found)
      (hown : Token.normalize (classify provider.legend v.binding found).1 = .ok own)
      (hinjects : provider.Injects v injections) : Parts v own injections

/-- The second text is that of a region in the first, visited after the regions before it. -/
inductive Nests : Visit World Grammar Query → Visit World Grammar Query → Prop where
  | region {v : Visit World Grammar Query} {budget : Nat} {before after : List Match} {m : Match}
      {done : List (Option Injection)} {region : Region Grammar Query}
      {s₁ s₂ s₃ : Session World Grammar Query}
      (hbudget : v.budget = budget + 1)
      (hmarks : provider.Marks v (before ++ m :: after) s₁)
      (hbefore : (before.mapM (provider.injectionOf (provider.deeper v.budget))).outcome s₁ =
        (.ok done, s₂))
      (hregion : (provider.regionOf true m).outcome s₂ = (.ok (some region), s₃)) :
      Nests v ⟨budget, region.binding, region.content.text, s₃⟩

structure Starts (lang t : Text) (s : Session World Grammar Query) (v : Visit World Grammar Query) :
    Prop where
  configured : s.registry.isConfigured lang = true
  resolved : (Session.resolve provider lang).run s = (.ok v.binding, v.session)
  text : v.text = t
  budget : v.budget = provider.maxDepth

/-- Highlighting the document in the session `s` visits this text. -/
def Visits (lang t : Text) (s : Session World Grammar Query) (v : Visit World Grammar Query) : Prop :=
  ∃ first, provider.Starts lang t s first ∧ Relation.ReflTransGen provider.Nests first v

variable {provider} {v w : Visit World Grammar Query} {s s' : Session World Grammar Query}

/-- Every region costs one of the budget. -/
theorem Nests.budget_lt (h : provider.Nests v w) : w.budget < v.budget := by
  cases h with
  | region hbudget _ _ _ =>
    rw [hbudget]
    exact Nat.lt_succ_self _

/-- What holds of a text once it holds of all regions in it holds of every text. -/
theorem visit_induction {P : Visit World Grammar Query → Prop}
    (step : ∀ v, (∀ w, provider.Nests v w → P w) → P v) (v : Visit World Grammar Query) : P v := by
  obtain ⟨n, hn⟩ : ∃ n, v.budget < n := ⟨v.budget + 1, Nat.lt_succ_self _⟩
  -- By induction on a bound of the budget, which every region lowers.
  induction n generalizing v with
  | zero => exact absurd hn (Nat.not_lt_zero _)
  | succ n ih =>
    apply step v
    intro w hw
    have hlt := hw.budget_lt
    exact ih w (by omega)

/-! ## What one region can come to -/

open Attempt

variable {lang : Text} {content : Capture} {mayNest : Bool} {m : Match}
  {region : Region Grammar Query}
  {deeper : Option (Binding Grammar Query → Text → Attempt World Grammar Query (List Token))}

theorem regionIn_eq_some {answer : Except ResolveError (Binding Grammar Query)} :
    (regionIn lang content answer).outcome s = (.ok (some region), s') ↔
      ∃ binding, answer = .ok binding ∧ region = ⟨lang, content, binding⟩ ∧ s' = s := by
  rcases answer with (_ | _ | _) | binding <;> simp [regionIn, eq_comm]

/-- A match marks a region if it names a configured language that loads, where nesting goes on. -/
theorem regionOf_eq_some :
    (provider.regionOf mayNest m).outcome s = (.ok (some region), s') ↔
      m.injection? s.registry.isConfigured = some (region.lang, region.content) ∧
        s.registry.isConfigured region.lang = true ∧ mayNest = true ∧
        (Session.resolve provider region.lang).run s = (.ok region.binding, s') := by
  unfold regionOf
  rw [outcome_bind, outcome_get]
  constructor
  · intro h
    dsimp only at h
    cases hfound : m.injection? s.registry.isConfigured with
    | none => simp [hfound] at h
    | some found =>
      obtain ⟨lang, content⟩ := found
      rw [hfound] at h
      dsimp only at h
      split_ifs at h with hconfigured hnest
      · simp at h
      · simp at h
      · obtain ⟨answer, s₁, hresolve, h⟩ := bind_ok.mp h
        obtain ⟨binding, rfl, rfl, rfl⟩ := regionIn_eq_some.mp h
        exact ⟨rfl, by simpa using hconfigured, by simpa using hnest, lift_ok.mp hresolve⟩
  · rintro ⟨hfound, hconfigured, rfl, hresolve⟩
    simp only [hfound, hconfigured, Bool.not_true, Bool.false_eq_true, if_false]
    exact bind_ok.mpr ⟨_, _, lift_ok.mpr hresolve, regionIn_eq_some.mpr ⟨_, rfl, rfl, rfl⟩⟩

theorem content_mem (h : (provider.regionOf mayNest m).outcome s = (.ok (some region), s')) :
    region.content ∈ m.captures := by
  have hfound := (regionOf_eq_some.mp h).1
  unfold Match.injection? at hfound
  split at hfound
  · obtain ⟨c, hc, hpair⟩ := Option.map_eq_some_iff.mp hfound
    cases hpair
    rcases Option.or_eq_some_iff.mp hc with hc | ⟨-, hc⟩
    · exact List.mem_of_find?_eq_some hc
    · exact List.mem_of_head? hc
  · obtain ⟨c, hc, hpair⟩ := Option.map_eq_some_iff.mp hfound
    cases hpair
    exact List.mem_of_find?_eq_some hc
  · next hnamed =>
    have hcontent : _ = region.content := congrArg Prod.snd (Option.some.inj hfound)
    rw [← hcontent]
    exact List.mem_of_find?_eq_some hnamed
  · cases hfound

theorem injectionOf_eq_some {injection : Injection}
    (h : (provider.injectionOf deeper m).outcome s = (.ok (some injection), s')) :
    ∃ highlight region s₁ tokens, deeper = some highlight ∧
      (provider.regionOf true m).outcome s = (.ok (some region), s₁) ∧
      (highlight region.binding region.content.text).outcome s₁ = (.ok tokens, s') ∧
      injection = region.injection tokens := by
  obtain ⟨region?, s₁, hregion, h⟩ := bind_ok.mp h
  cases region? with
  | none => simp at h
  | some region =>
    cases deeper with
    | none => simp at h
    | some highlight =>
      obtain ⟨tokens, s₂, htokens, h⟩ := bind_ok.mp h
      cases h
      exact ⟨highlight, region, s₁, tokens, rfl, hregion, htokens, rfl⟩

/-! ## What one visit can come to -/

variable {binding : Binding Grammar Query} {t : Text} {own : List Token}

theorem ownTokens_ok (h : (provider.ownTokens binding t).outcome s = (.ok own, s')) :
    ∃ found, provider.engine.search binding.highlights t = .ok found ∧
      Token.normalize (classify provider.legend binding found).1 = .ok own := by
  obtain ⟨found, s₁, hfound, h⟩ := bind_ok.mp h
  obtain ⟨_, s₂, -, h⟩ := bind_ok.mp h
  exact ⟨found, (checked_ok.mp hfound).1, (checked_ok.mp h).1⟩

theorem mem_classify {legend : Legend} {found : List Match} {u : Token}
    (h : u ∈ (classify legend binding found).1) :
    ∃ m ∈ found, ∃ c ∈ m.captures, u.range = c.range := by
  obtain ⟨entry, hentry, hu⟩ := List.mem_filterMap.mp h
  obtain ⟨c, hc, rfl⟩ := List.mem_map.mp hentry
  obtain ⟨m, hm, hc⟩ := List.mem_flatMap.mp hc
  refine ⟨m, hm, c, hc, ?_⟩
  unfold tokenOf at hu
  split at hu
  · cases hu
  · obtain ⟨candidate, -, rfl⟩ := Option.map_eq_some_iff.mp hu
    rfl

theorem injectionsOf_ok {query : Query} {injections : List Injection}
    (h : (provider.injectionsOf deeper query t).outcome s = (.ok injections, s')) :
    ∃ found results, provider.engine.search query t = .ok found ∧
      (found.mapM (provider.injectionOf deeper)).outcome s = (.ok results, s') ∧
      injections = results.filterMap id := by
  obtain ⟨found, s₁, hfound, hrest⟩ := bind_ok.mp h
  obtain ⟨results, s₂, hresults, hpure⟩ := bind_ok.mp hrest
  obtain ⟨hsearch, rfl⟩ := checked_ok.mp hfound
  rw [outcome_pure, Prod.mk.injEq, Except.ok.injEq] at hpure
  exact ⟨found, results, hsearch, hpure.2 ▸ hresults, hpure.1.symm⟩

/-- A text that is read gives its own tokens first and then, with an injection query, those of its
regions. -/
theorem outcomeOf_of_parses (h : provider.engine.parses v.binding.grammar v.text = true) :
    provider.outcomeOf v = (provider.ownTokens v.binding v.text >>= fun own =>
      match v.binding.injections with
      | none => pure own
      | some query => do
        return Token.merge own (← provider.injectionsOf (provider.deeper v.budget) query v.text)).outcome
          v.session := by
  unfold outcomeOf
  rw [tokens_eq]
  exact congrArg (fun x => Attempt.outcome x v.session) (if_neg (by simp [h]))

theorem outcomeOf_of_not_parses (h : ¬ provider.engine.parses v.binding.grammar v.text = true) :
    provider.outcomeOf v = (.ok [], v.session) := by
  unfold outcomeOf
  rw [tokens_eq]
  exact congrArg (fun x => Attempt.outcome x v.session) (if_pos (by simpa using h))

theorem outcomeOf_parts {tokens : List Token} (h : provider.outcomeOf v = (.ok tokens, s')) :
    ∃ own injections, provider.Parts v own injections ∧ tokens = Token.merge own injections := by
  by_cases hparses : provider.engine.parses v.binding.grammar v.text = true
  · rw [outcomeOf_of_parses hparses] at h
    obtain ⟨own, s₁, hown, h⟩ := bind_ok.mp h
    obtain ⟨found, hfound, hnormalize⟩ := ownTokens_ok hown
    cases hquery : v.binding.injections with
    | none =>
      rw [hquery] at h
      cases h
      exact ⟨tokens, [], .plain ⟨hparses, hfound⟩ hnormalize hquery, (Token.merge_nil tokens).symm⟩
    | some query =>
      rw [hquery] at h
      obtain ⟨injections, s₂, hinjections, hpure⟩ := bind_ok.mp h
      obtain ⟨marked, results, hmarked, hresults, heq⟩ := injectionsOf_ok hinjections
      rw [outcome_pure, Prod.mk.injEq, Except.ok.injEq] at hpure
      have hinjects : provider.Injects v injections := ⟨marked, s₁, results, s₂,
        ⟨query, ⟨hparses, hquery, own, hown⟩, hmarked⟩, hresults, heq⟩
      exact ⟨own, injections, .injected ⟨hparses, hfound⟩ hnormalize hinjects, hpure.1.symm⟩
  · rw [outcomeOf_of_not_parses hparses, Prod.mk.injEq, Except.ok.injEq] at h
    exact ⟨[], [], .unread hparses, h.1.symm⟩

/-- What a visit returns: nothing, the tokens of its own language, or these merged with those of its
injections. -/
theorem outcomeOf_ok {tokens : List Token} (h : provider.outcomeOf v = (.ok tokens, s')) :
    tokens = [] ∨ ∃ found own, provider.Highlights v found ∧
      Token.normalize (classify provider.legend v.binding found).1 = .ok own ∧
      (tokens = own ∨ ∃ injections, provider.Injects v injections ∧
        tokens = Token.merge own injections) := by
  obtain ⟨own, injections, hparts, rfl⟩ := outcomeOf_parts h
  cases hparts with
  | unread hparses => exact Or.inl rfl
  | plain hfound hown hquery => exact Or.inr ⟨_, own, hfound, hown, Or.inl (Token.merge_nil own)⟩
  | injected hfound hown hinjects =>
    exact Or.inr ⟨_, own, hfound, hown, Or.inr ⟨injections, hinjects, rfl⟩⟩

/-- Where a marked region is highlighted, the visit of its text is one step further. -/
theorem Marks.nests {before after : List Match} {done : List (Option Injection)}
    {highlight : Binding Grammar Query → Text → Attempt World Grammar Query (List Token)}
    {s₁ s₂ s₃ : Session World Grammar Query} (h : provider.Marks v (before ++ m :: after) s₁)
    (hdeeper : provider.deeper v.budget = some highlight)
    (hbefore : (before.mapM (provider.injectionOf (provider.deeper v.budget))).outcome s₁ =
      (.ok done, s₂))
    (hregion : (provider.regionOf true m).outcome s₂ = (.ok (some region), s₃)) :
    ∃ w, provider.Nests v w ∧ w.text = region.content.text ∧
      provider.outcomeOf w = (highlight region.binding region.content.text).outcome s₃ := by
  cases hbudget : v.budget with
  | zero =>
    rw [hbudget] at hdeeper
    cases hdeeper
  | succ budget =>
    have hhighlight : provider.tokens budget = highlight := by
      rw [hbudget] at hdeeper
      exact Option.some.inj hdeeper
    refine ⟨_, .region hbudget h hbefore hregion, rfl, ?_⟩
    rw [← hhighlight]
    rfl

/-- Each injection of a visit is a region of its text together with the tokens of that visit. -/
theorem Injects.mem {injections : List Injection} (h : provider.Injects v injections)
    {i : Injection} (hi : i ∈ injections) :
    ∃ (found : List Match) (s₁ : Session World Grammar Query) (m : Match)
      (w : Visit World Grammar Query) (region : Region Grammar Query) (tokens : List Token)
      (s₂ : Session World Grammar Query),
      provider.Marks v found s₁ ∧ m ∈ found ∧ region.content ∈ m.captures ∧ provider.Nests v w ∧
      w.text = region.content.text ∧ provider.outcomeOf w = (.ok tokens, s₂) ∧
      i = region.injection tokens := by
  obtain ⟨found, s, results, s', hmarks, hresults, rfl⟩ := h
  have hmem : some i ∈ results := by simpa using hi
  obtain ⟨before, m, after, zs, s₁, s₂, rfl, hbefore, hm⟩ := mapM_ok_mem hresults hmem
  obtain ⟨highlight, region, s₃, tokens, hdeeper, hregion, htokens, rfl⟩ := injectionOf_eq_some hm
  obtain ⟨w, hnests, htext, houtcome⟩ := hmarks.nests hdeeper hbefore hregion
  have hmatch : m ∈ before ++ m :: after := List.mem_append_right _ List.mem_cons_self
  refine ⟨_, s, m, w, region, tokens, s₂, hmarks, hmatch, content_mem hregion, hnests, htext, ?_, rfl⟩
  rw [houtcome, htokens]

/-! ## What highlighting a document can come to -/

/-- A document is highlighted as the first text; then its tokens are sorted, and that is reported. -/
theorem Starts.outcome_highlight (h : provider.Starts lang t s v) :
    ∃ log, (provider.highlight lang t).outcome s =
      match provider.outcomeOf v with
      | (.ok found, s₁) => (.ok (Token.sort found), { s₁ with log := log })
      | (.error e, s₁) => (.error e, s₁) := by
  obtain ⟨hconfigured, hresolve, rfl, hbudget⟩ := h
  unfold highlight
  rw [outcome_bind, outcome_get]
  simp only [hconfigured, Bool.not_true, Bool.false_eq_true, if_false]
  rw [outcome_bind, lift_ok.mpr hresolve]
  dsimp only
  rw [outcome_bind, outcomeOf, ← hbudget]
  rcases (provider.tokens v.budget v.binding v.text).outcome v.session with ⟨_ | found, s₁⟩
  · exact ⟨[], rfl⟩
  · exact ⟨_, rfl⟩

theorem exists_starts_or_fails :
    (∃ v, provider.Starts lang t s v) ∨
      ∃ e s', (provider.highlight lang t).outcome s = (.error e, s') := by
  by_cases hconfigured : s.registry.isConfigured lang = true
  · rcases hresolve : (Session.resolve provider lang).run s with ⟨error | binding, s₁⟩
    · refine Or.inr ⟨.ofResolve error, s₁, ?_⟩
      unfold highlight
      rw [outcome_bind, outcome_get]
      simp only [hconfigured, Bool.not_true, Bool.false_eq_true, if_false]
      rw [outcome_bind, lift_ok.mpr hresolve]
      rfl
    · exact Or.inl ⟨⟨provider.maxDepth, binding, t, s₁⟩, hconfigured, hresolve, rfl, rfl⟩
  · refine Or.inr ⟨.unconfigured lang, s, ?_⟩
    unfold highlight
    rw [outcome_bind, outcome_get]
    simp only [hconfigured, Bool.not_false, if_true]
    rfl

theorem highlight_ok {tokens : List Token}
    (h : (provider.highlight lang t).outcome s = (.ok tokens, s')) :
    ∃ first found s₁, provider.Starts lang t s first ∧ provider.outcomeOf first = (.ok found, s₁) ∧
      tokens = Token.sort found := by
  rcases exists_starts_or_fails with ⟨first, hstarts⟩ | ⟨e, s₁, hfails⟩
  · obtain ⟨log, heq⟩ := hstarts.outcome_highlight
    rw [heq] at h
    rcases hrun : provider.outcomeOf first with ⟨_ | found, s₁⟩
    · rw [hrun] at h
      cases h
    · rw [hrun] at h
      cases h
      exact ⟨first, found, s₁, hstarts, hrun, rfl⟩
  · rw [hfails] at h
    cases h

end Provider
end SemanticHighlight
