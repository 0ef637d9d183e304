import SemanticHighlight.Proofs.Highlight.Marked
import SemanticHighlight.Proofs.Highlight.Requests
import SemanticHighlight.Proofs.Strand.Conduct
import SemanticHighlight.Proofs.Strand.Ending

/-!
# What errands do and meet

Errands change the session by what they write to the log and by asking for languages, and by nothing
else; they wait only for loads that the registry waits for (`behaves_errand`). In sessions whose entries
and generation stay the same, a language comes to what a load of its first entry told (`ends_settle`),
and so does the region of a match (`ends_regionErrand`).
-/

namespace SemanticHighlight

variable {World Grammar Query α : Type}

/-- Neither a line in the log nor a request for a language changes whether the property holds. -/
structure Session.Kept (P : Session World Grammar Query → Prop) : Prop where
  report : ∀ s entries, P s → P { s with log := s.log ++ entries }
  ask : ∀ s lang, P s → P { s with registry := (s.registry.request lang).2 }

def Session.Pends (s : Session World Grammar Query) (load : Load) : Prop :=
  ∃ lang, (lang, load) ∈ s.registry.pending

namespace Provider

open Attempt

/-! ## What errands do -/

section Behaviour

variable {provider : Provider World Grammar Query} {P : Session World Grammar Query → Prop}
  {asked : Session World Grammar Query → Load → Prop} {mayNest : Bool} {lang t : Text}
  {deeper : Option (Binding Grammar Query → Text → Errand World Grammar Query (List Token))}
  {s : Session World Grammar Query} {load : Load} {m : Match}

/-- The property is kept, however the attempt ends. -/
abbrev KeptBy (P : Session World Grammar Query → Prop) (x : Attempt World Grammar Query α) : Prop :=
  Ends P x (fun _ => True) fun _ => True

theorem keptBy_report (h : Session.Kept P) (entries : Log) : KeptBy P (Attempt.report entries) :=
  fun s hs => ⟨trivial, h.report s entries hs⟩

theorem keptBy_ask (h : Session.Kept P) (lang : Text) :
    KeptBy P (Attempt.ask lang : Attempt World Grammar Query _) :=
  fun s hs => ⟨trivial, h.ask s lang hs⟩

theorem keptBy_skip (h : Session.Kept P) (entry : LogEntry) :
    KeptBy P (Attempt.skip entry : Attempt World Grammar Query (Option α)) :=
  ends_bind (keptBy_report h [entry]) fun _ _ => ends_pure trivial

theorem keptBy_checked (e : Except InvertedRange α) :
    KeptBy P (checked e : Attempt World Grammar Query α) :=
  ends_checked (fun _ _ => trivial) fun _ _ => trivial

theorem keptBy_askRegion (h : Session.Kept P) (found : Match) :
    KeptBy P (provider.askRegion mayNest found) := by
  unfold askRegion
  apply ends_get_bind
  intro s hs
  dsimp only
  cases found.injection? s.registry.isConfigured with
  | none => exact ends_pure trivial
  | some marked =>
    dsimp only
    split_ifs
    · exact keptBy_skip h _
    · exact ends_throw trivial
    · exact ends_bind (keptBy_ask h _) fun _ _ => ends_pure trivial

theorem keptBy_regionIn (h : Session.Kept P) (lang : Text) (content : Capture)
    (answer : Except ResolveError (Binding Grammar Query)) :
    KeptBy P (regionIn lang content answer) := by
  rcases answer with (_ | _ | _) | binding
  · exact ends_throw trivial
  · exact keptBy_skip h _
  · exact ends_throw trivial
  · exact ends_throw trivial
  · exact ends_pure trivial

theorem keptBy_ownTokens (h : Session.Kept P) (binding : Binding Grammar Query) (t : Text) :
    KeptBy P (provider.ownTokens binding t) := by
  refine ends_bind (keptBy_checked _) fun found _ => ?_
  exact ends_bind (keptBy_report h _) fun _ _ => keptBy_checked _

theorem keptBy_askDocument (h : Session.Kept P) (lang : Text) :
    KeptBy P (askDocument lang : Attempt World Grammar Query _) := by
  unfold askDocument
  apply ends_get_bind
  intro s hs
  dsimp only
  split_ifs
  · exact fun _ hs => ⟨trivial, hs⟩
  · exact keptBy_ask h lang

theorem behaves_of_keptBy {x : Attempt World Grammar Query α} (h : KeptBy P x) :
    (Strand.sync x : Errand World Grammar Query α).Behaves P asked :=
  Strand.behaves_sync fun s hs => (h s hs).2

/-- Whoever is told to wait for a load is not alone: the registry waits for it as well. -/
theorem pends_ask (h : ((Attempt.ask lang).outcome s).1 = .ok (.waiting load)) :
    ((Attempt.ask lang).outcome s).2.Pends load := by
  have hrequested := s.registry.requested_request lang
  have hanswer : (s.registry.request lang).1 = .waiting load := Except.ok.inj h
  show ∃ key, (key, load) ∈ (s.registry.request lang).2.pending
  generalize s.registry.request lang = asked at hrequested hanswer
  cases hrequested with
  | cached _ => cases hanswer
  | unconfigured _ _ _ => cases hanswer
  | joined _ hpending =>
    cases hanswer
    exact ⟨lang, mem_of_lookup hpending⟩
  | begun _ _ _ =>
    cases hanswer
    exact ⟨lang, List.mem_cons_self⟩

theorem pends_askRegion {content : Capture}
    (h : ((provider.askRegion mayNest m).outcome s).1 = .ok (some (lang, content, .waiting load))) :
    ((provider.askRegion mayNest m).outcome s).2.Pends load := by
  unfold askRegion at h ⊢
  rw [outcome_bind, outcome_get] at h ⊢
  dsimp only at h ⊢
  cases hfound : m.injection? s.registry.isConfigured with
  | none =>
    rw [hfound] at h
    cases h
  | some marked =>
    rw [hfound] at h
    dsimp only at h ⊢
    split_ifs at h ⊢
    · cases h
    · cases h
    · obtain ⟨rfl, hrest⟩ := Prod.mk.inj (Option.some.inj (Except.ok.inj h))
      obtain ⟨rfl, hanswer⟩ := Prod.mk.inj hrest
      exact pends_ask (congrArg Except.ok hanswer)

theorem pends_askDocument (h : ((askDocument lang).outcome s).1 = .ok (.waiting load)) :
    ((askDocument lang).outcome s).2.Pends load := by
  unfold askDocument at h ⊢
  rw [outcome_bind, outcome_get] at h ⊢
  dsimp only at h ⊢
  split_ifs at h ⊢
  · cases h
  · exact pends_ask h

theorem behaves_settle (lang : Text) (answer : Answer (Binding Grammar Query)) :
    (settle lang answer : Errand World Grammar Query _).Behaves P asked := by
  cases answer with
  | waiting load => exact fun _ => ⟨fun _ => id, trivial⟩
  | _ => exact trivial

/-- Only a load is waited for, and only the one that the registry named. -/
theorem eq_of_awaits_settle {answer : Answer (Binding Grammar Query)}
    (h : (settle lang answer : Errand World Grammar Query _).Awaits load) : answer = .waiting load := by
  cases answer with
  | waiting l => exact congrArg Answer.waiting (Eq.symm h)
  | _ => exact h.elim

theorem behaves_settle_bind {answer : Answer (Binding Grammar Query)}
    {f : Except ResolveError (Binding Grammar Query) → Errand World Grammar Query α}
    (hnone : ∀ resolved key, ¬ (f resolved).Awaits key)
    (hf : ∀ resolved, (f resolved).Behaves P Session.Pends)
    (hpends : ∀ load, answer = .waiting load → s.Pends load) :
    (∀ key, (settle lang answer >>= f).Awaits key → s.Pends key) ∧
      (settle lang answer >>= f).Behaves P Session.Pends := by
  refine ⟨fun key hkey => ?_, Strand.behaves_bind (behaves_settle lang answer) hnone hf⟩
  exact hpends key (eq_of_awaits_settle (Strand.awaits_bind hnone hkey))

theorem behaves_regionErrand (h : Session.Kept P) (found : Match) :
    (provider.regionErrand mayNest found).Behaves P Session.Pends := by
  apply Strand.behaves_sync_bind fun s hs => (keptBy_askRegion h found s hs).2
  rintro s (_ | ⟨lang, content, answer⟩) hasked
  · exact ⟨fun _ => False.elim, trivial⟩
  · apply behaves_settle_bind
    · exact fun _ _ => id
    · exact fun resolved => behaves_of_keptBy (keptBy_regionIn h lang content resolved)
    · rintro load rfl
      exact pends_askRegion hasked

/-- What highlights the texts of regions: it behaves, and it does something before it waits. -/
def Prompt (P : Session World Grammar Query → Prop)
    (deeper : Option (Binding Grammar Query → Text → Errand World Grammar Query (List Token))) : Prop :=
  ∀ errand, deeper = some errand → ∀ binding t,
    (errand binding t).Behaves P Session.Pends ∧ ∀ key, ¬ (errand binding t).Awaits key

theorem behaves_injectionErrand (h : Session.Kept P) (hdeeper : Prompt P deeper) (found : Match) :
    (provider.injectionErrand deeper found).Behaves P Session.Pends := by
  refine Strand.behaves_bind (behaves_regionErrand h found) ?_ ?_
  · rintro (_ | region) key
    · exact id
    · cases deeper with
      | none => exact id
      | some errand =>
        intro hkey
        exact (hdeeper errand rfl _ _).2 key (Strand.awaits_bind (fun _ _ => id) hkey)
  · rintro (_ | region)
    · exact trivial
    · cases deeper with
      | none => exact trivial
      | some errand =>
        exact Strand.behaves_bind (hdeeper errand rfl _ _).1 (fun _ _ => id) fun _ => trivial

theorem not_awaits_injectionErrand (found : Match) (load : Load) :
    ¬ (provider.injectionErrand deeper found).Awaits load := id

theorem behaves_injectionsErrand (h : Session.Kept P) (hdeeper : Prompt P deeper) (query : Query)
    (t : Text) : (provider.injectionsErrand deeper query t).Behaves P Session.Pends := by
  refine Strand.behaves_bind (behaves_of_keptBy (keptBy_checked _)) ?_ ?_
  · intro found key hkey
    obtain ⟨i, hi⟩ := Strand.awaits_bind (fun _ _ => id) hkey
    exact not_awaits_injectionErrand _ _ hi
  · intro found
    refine Strand.behaves_bind (Strand.behaves_forAll fun m _ => ?_) (fun _ _ => id) fun _ => trivial
    exact behaves_injectionErrand h hdeeper m

theorem prompt_tokensErrandWith (h : Session.Kept P) (hdeeper : Prompt P deeper) :
    Prompt P (some (provider.tokensErrandWith deeper)) := by
  rintro _ ⟨⟩ binding t
  unfold tokensErrandWith
  split_ifs
  · exact ⟨trivial, fun _ => id⟩
  · refine ⟨?_, fun _ => id⟩
    refine Strand.behaves_bind (behaves_of_keptBy (keptBy_ownTokens h binding t)) ?_ ?_
    · intro own key
      cases binding.injections <;> exact id
    · intro own
      cases binding.injections with
      | none => exact trivial
      | some query =>
        refine Strand.behaves_bind ?_ (fun _ _ => id) fun _ => trivial
        exact behaves_injectionsErrand h hdeeper query t

theorem prompt_tokensErrand (h : Session.Kept P) (budget : Nat) :
    Prompt P (some (provider.tokensErrand budget)) := by
  induction budget with
  | zero => exact prompt_tokensErrandWith h fun _ hnone => nomatch hnone
  | succ budget ih => exact prompt_tokensErrandWith h ih

theorem behaves_documentErrand (h : Session.Kept P) (lang t : Text)
    (resolved : Except ResolveError (Binding Grammar Query)) :
    (provider.documentErrand lang t resolved).Behaves P Session.Pends ∧
      ∀ key, ¬ (provider.documentErrand lang t resolved).Awaits key := by
  cases resolved with
  | error e => exact ⟨trivial, fun _ => id⟩
  | ok binding =>
    obtain ⟨htokens, hawaits⟩ := prompt_tokensErrand h provider.maxDepth _ rfl binding t
    refine ⟨Strand.behaves_bind htokens (fun _ _ => id) fun tokens => ?_, fun key hkey => ?_⟩
    · exact Strand.behaves_bind (behaves_of_keptBy (keptBy_report h _)) (fun _ _ => id) fun _ => trivial
    · exact hawaits key (Strand.awaits_bind (fun _ _ => id) hkey)

/-- The work on a document keeps what asking for languages keeps, and waits for what it asked for. -/
theorem behaves_errand (h : Session.Kept P) (lang t : Text) :
    (provider.errand lang t).Behaves P Session.Pends := by
  apply Strand.behaves_sync_bind fun s hs => (keptBy_askDocument h lang s hs).2
  intro s answer hasked
  apply behaves_settle_bind
  · exact fun resolved => (behaves_documentErrand h lang t resolved).2
  · exact fun resolved => (behaves_documentErrand h lang t resolved).1
  · rintro load rfl
    exact pends_askDocument hasked

end Behaviour

end Provider

/-! ## What errands meet -/

theorem Match.configured_of_target? {configs : List LanguageConfig} {m : Match} {lang : Text}
    {content : Capture} (h : m.target? configs = some (lang, content)) :
    ∃ config, findConfig? configs lang = some config :=
  Option.isSome_iff_exists.mp (Option.filter_eq_some_iff.mp h).2

namespace Session

variable {configs : List LanguageConfig} {generation : Nat}
  {tells : Load → Except LoadError (Binding Grammar Query) → Prop} {s : Session World Grammar Query}
  {lang : Text}

/-- The session has these entries and is of this generation, and what it keeps was told by a load. -/
structure Answering (configs : List LanguageConfig) (generation : Nat)
    (tells : Load → Except LoadError (Binding Grammar Query) → Prop)
    (s : Session World Grammar Query) : Prop where
  consistent : s.registry.Consistent
  entries : s.registry.configs = configs
  generation : s.registry.generation = generation
  cached : ∀ lang held, (lang, held) ∈ s.registry.cached → tells held.load (.ok held.binding)

theorem Answering.isConfigured (h : s.Answering configs generation tells) :
    s.registry.isConfigured = fun lang => (findConfig? configs lang).isSome := by
  funext lang
  rw [Registry.isConfigured, Registry.config?, h.entries]

/-- What a language comes to: a load of this generation of its first entry told so. -/
inductive Opens (configs : List LanguageConfig) (generation : Nat)
    (tells : Load → Except LoadError (Binding Grammar Query) → Prop) (lang : Text) :
    Except ResolveError (Binding Grammar Query) → Prop
  | unconfigured (hconfig : findConfig? configs lang = none) :
      Opens configs generation tells lang (.error (.unconfigured lang))
  | loaded {load : Load} {binding : Binding Grammar Query} (hgeneration : load.generation = generation)
      (hconfig : findConfig? configs lang = some load.config) (htells : tells load (.ok binding)) :
      Opens configs generation tells lang (.ok binding)
  | failed {load : Load} {e : LoadError} (hgeneration : load.generation = generation)
      (hconfig : findConfig? configs lang = some load.config) (htells : tells load (.error e)) :
      Opens configs generation tells lang (.error (.failed e))

/-- The answer of the registry leads to nothing else. -/
def Leads (configs : List LanguageConfig) (generation : Nat)
    (tells : Load → Except LoadError (Binding Grammar Query) → Prop) (lang : Text) :
    Answer (Binding Grammar Query) → Prop
  | .cached held => Opens configs generation tells lang (.ok held.binding)
  | .waiting load => load.generation = generation ∧ findConfig? configs lang = some load.config
  | .unconfigured => findConfig? configs lang = none

theorem Answering.request (h : s.Answering configs generation tells) (lang : Text) :
    Leads configs generation tells lang (s.registry.request lang).1 ∧
      Answering configs generation tells { s with registry := (s.registry.request lang).2 } := by
  have hconsistent := h.consistent.request lang
  have hconfig : ∀ load, s.registry.Current lang load →
      load.generation = generation ∧ findConfig? configs lang = some load.config := by
    intro load hcurrent
    exact ⟨hcurrent.generation.trans h.generation, h.entries ▸ hcurrent.first⟩
  have hrequested := s.registry.requested_request lang
  generalize s.registry.request lang = asked at hrequested hconsistent
  cases hrequested with
  | cached hcached =>
    have hmem := mem_of_lookup hcached
    obtain ⟨hgeneration, hfirst⟩ := hconfig _ (h.consistent.cached_current lang _ hmem)
    exact ⟨.loaded hgeneration hfirst (h.cached lang _ hmem), h⟩
  | joined _ hpending =>
    exact ⟨hconfig _ (h.consistent.pending_current lang _ (mem_of_lookup hpending)), h⟩
  | unconfigured _ _ hnone => exact ⟨h.entries ▸ hnone, h⟩
  | begun _ _ hsome =>
    exact ⟨⟨h.generation, h.entries ▸ hsome⟩, hconsistent, h.entries, h.generation, h.cached⟩

theorem kept_answering :
    Kept fun s : Session World Grammar Query => s.Answering configs generation tells where
  report _ _ h := ⟨h.consistent, h.entries, h.generation, h.cached⟩
  ask _ lang h := (h.request lang).2

end Session

namespace Provider

open Attempt Session

variable {provider : Provider World Grammar Query} {configs : List LanguageConfig}
  {generation : Nat} {tells : Load → Except LoadError (Binding Grammar Query) → Prop}
  {lang : Text} {fails : HighlightError → Prop} {mayNest : Bool} {m : Match} {content : Capture}

theorem ends_report_of (entries : Log) :
    Ends (Answering configs generation tells)
      (Attempt.report entries : Attempt World Grammar Query Unit) (fun _ => True) fails :=
  fun s hs => ⟨trivial, kept_answering.report s entries hs⟩

theorem ends_skip_of {entry : LogEntry} {gives : Option α → Prop} (h : gives none) :
    Ends (Answering configs generation tells)
      (Attempt.skip entry : Attempt World Grammar Query (Option α)) gives fails :=
  fun s hs => ⟨h, kept_answering.report s [entry] hs⟩

theorem ends_sync_of {P : Session World Grammar Query → Prop} {x : Attempt World Grammar Query α}
    {gives : α → Prop} (h : Ends P x gives fails) :
    (Strand.sync x : Errand World Grammar Query α).Ends P tells gives fails := by
  apply Strand.ends_sync
  intro s hs
  have hmeets : Meets gives fails (x.run.run s).1 := (h s hs).1
  cases hrun : (x.run.run s).1 with
  | ok a =>
    rw [hrun] at hmeets
    exact hmeets
  | error e =>
    rw [hrun] at hmeets
    exact hmeets

theorem ends_ask (lang : Text) :
    Ends (Answering configs generation tells) (Attempt.ask lang : Attempt World Grammar Query _)
      (Leads configs generation tells lang) fails :=
  fun _ hs => hs.request lang

theorem ends_settle {P : Session World Grammar Query → Prop} {answer : Answer (Binding Grammar Query)}
    (h : Leads configs generation tells lang answer) :
    (settle lang answer : Errand World Grammar Query _).Ends P tells
      (Opens configs generation tells lang) fails := by
  cases answer with
  | cached held => exact h
  | unconfigured => exact .unconfigured h
  | waiting load =>
    rintro (e | binding) htells
    · exact Opens.failed h.1 h.2 htells
    · exact Opens.loaded h.1 h.2 htells

/-- The region of a match, if it marks one, is in a language that was opened. -/
inductive Yields (configs : List LanguageConfig) (generation : Nat)
    (tells : Load → Except LoadError (Binding Grammar Query) → Prop) (mayNest : Bool) (m : Match) :
    Option (Region Grammar Query) → Prop
  | unmarked (htarget : m.target? configs = none) : Yields configs generation tells mayNest m none
  | unloaded {lang : Text} {content : Capture} {e : LoadFailure} (hnest : mayNest = true)
      (htarget : m.target? configs = some (lang, content))
      (hopens : Opens configs generation tells lang (.error (.failed (.failure e)))) :
      Yields configs generation tells mayNest m none
  | region {region : Region Grammar Query} (hnest : mayNest = true)
      (htarget : m.target? configs = some (region.lang, region.content))
      (hopens : Opens configs generation tells region.lang (.ok region.binding)) :
      Yields configs generation tells mayNest m (some region)

/-- The match ends the work: it nests too deep, or its language fails to load in a way that is not
accounted for. -/
inductive Stops (provider : Provider World Grammar Query) (configs : List LanguageConfig)
    (generation : Nat) (tells : Load → Except LoadError (Binding Grammar Query) → Prop)
    (mayNest : Bool) (m : Match) : HighlightError → Prop
  | tooDeep {lang : Text} {content : Capture} (hnest : mayNest = false)
      (htarget : m.target? configs = some (lang, content)) :
      Stops provider configs generation tells mayNest m (.tooDeep lang provider.maxDepth)
  | foreign {lang : Text} {content : Capture} {e : LoadError}
      (htarget : m.target? configs = some (lang, content))
      (hopens : Opens configs generation tells lang (.error (.failed e)))
      (hfailure : e.failure? = none) : Stops provider configs generation tells mayNest m (.load e)

theorem ends_askRegion (mayNest : Bool) (m : Match) :
    Ends (Answering configs generation tells) (provider.askRegion mayNest m)
      (fun asked => (asked = none ∧ m.target? configs = none) ∨
        ∃ lang content answer, asked = some (lang, content, answer) ∧ mayNest = true ∧
          m.target? configs = some (lang, content) ∧ Leads configs generation tells lang answer)
      (Stops provider configs generation tells mayNest m) := by
  unfold askRegion
  apply ends_get_bind
  intro s hs
  rw [hs.isConfigured]
  dsimp only
  cases hfound : m.injection? fun lang => (findConfig? configs lang).isSome with
  | none =>
    refine ends_pure (Or.inl ⟨rfl, ?_⟩)
    rw [Match.target?, hfound, Option.filter_none]
  | some marked =>
    obtain ⟨lang, content⟩ := marked
    cases hconfig : findConfig? configs lang with
    | none =>
      simp only [hconfig, Option.isSome_none, Bool.not_false, if_true]
      exact ends_skip_of (Or.inl ⟨rfl, Match.target?_of_unconfigured hfound hconfig⟩)
    | some config =>
      have htarget := Match.target?_of_configured hfound hconfig
      simp only [hconfig, Option.isSome_some, Bool.not_true, Bool.false_eq_true, if_false]
      cases mayNest with
      | false =>
        rw [if_pos Bool.not_false]
        exact ends_throw (.tooDeep rfl htarget)
      | true =>
        rw [if_neg (by decide)]
        refine ends_bind (ends_ask lang) fun answer hleads => ?_
        exact ends_pure (Or.inr ⟨lang, content, answer, rfl, rfl, htarget, hleads⟩)

theorem ends_regionIn_of_opens {resolved : Except ResolveError (Binding Grammar Query)}
    (htarget : m.target? configs = some (lang, content))
    (hopens : Opens configs generation tells lang resolved) :
    Ends (Answering configs generation tells)
      (regionIn lang content resolved : Attempt World Grammar Query _)
      (Yields configs generation tells true m)
      (Stops provider configs generation tells mayNest m) := by
  cases hopens with
  | unconfigured hconfig =>
    obtain ⟨config, hsome⟩ := Match.configured_of_target? htarget
    rw [hconfig] at hsome
    cases hsome
  | loaded hgeneration hconfig htells =>
    exact ends_pure (.region rfl htarget (.loaded hgeneration hconfig htells))
  | @failed _ e hgeneration hconfig htells =>
    have hopens := Opens.failed hgeneration hconfig htells
    cases e with
    | failure e => exact ends_skip_of (.unloaded rfl htarget hopens)
    | escaped kind text => exact ends_throw (.foreign htarget hopens rfl)
    | unreadable e => exact ends_throw (.foreign htarget hopens rfl)

theorem ends_regionErrand (mayNest : Bool) (m : Match) :
    (provider.regionErrand mayNest m).Ends (Answering configs generation tells) tells
      (Yields configs generation tells mayNest m)
      (Stops provider configs generation tells mayNest m) := by
  apply Strand.ends_bind (ends_sync_of (ends_askRegion mayNest m))
  rintro asked (⟨rfl, htarget⟩ | ⟨lang, content, answer, rfl, rfl, htarget, hleads⟩)
  · exact Strand.ends_pure (.unmarked htarget)
  · apply Strand.ends_bind (ends_settle hleads)
    intro resolved hopens
    exact ends_sync_of (ends_regionIn_of_opens htarget hopens)

end Provider

end SemanticHighlight
