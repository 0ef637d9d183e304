import SemanticHighlight.Proofs.Highlight.Answers

/-!
# One outcome for all orders

If the loads of an entry all tell the same, there is one thing that a language can come to, and so there
is one that the work on a document can come to, whatever the order in which its parts take turns
(`decided_errand`): it has one result, or it fails. Which of several errors it fails with does depend on
the order.
-/

namespace SemanticHighlight

variable {World Grammar Query : Type} {configs : List LanguageConfig} {generation : Nat}
  {tells : Load → Except LoadError (Binding Grammar Query) → Prop} {lang t : Text}
  {answer : LanguageConfig → Except LoadError (Binding Grammar Query)}

/-- The loads of this generation tell these answers. -/
def Session.Tells (answer : LanguageConfig → Except LoadError (Binding Grammar Query))
    (generation : Nat) (tells : Load → Except LoadError (Binding Grammar Query) → Prop) : Prop :=
  ∀ load outcome, tells load outcome → load.generation = generation → outcome = answer load.config

theorem Session.Opens.eq_answerTo {resolved : Except ResolveError (Binding Grammar Query)}
    (htells : Tells answer generation tells) (h : Opens configs generation tells lang resolved) :
    resolved = answerTo configs answer lang := by
  unfold answerTo
  cases h with
  | unconfigured hconfig => rw [hconfig]
  | loaded hgeneration hconfig htold =>
    rw [hconfig]
    dsimp only
    rw [← htells _ _ htold hgeneration]
    rfl
  | failed hgeneration hconfig htold =>
    rw [hconfig]
    dsimp only
    rw [← htells _ _ htold hgeneration]
    rfl

namespace Provider

open Strand Session

variable {provider : Provider World Grammar Query} {mayNest : Bool}
  {deeper : Option (Binding Grammar Query → Text → Errand World Grammar Query (List Token))}

theorem decided_of_constant {x : Attempt World Grammar Query α} {result : Except HighlightError α}
    (h : ∀ s, (x.outcome s).1 = result) :
    (sync x : Errand World Grammar Query α).Decided (Answering configs generation tells) tells :=
  decided_sync fun s _ => h s

theorem constant_ownTokens (binding : Binding Grammar Query) (t : Text) :
    ∃ result, ∀ s : Session World Grammar Query, ((provider.ownTokens binding t).outcome s).1 = result := by
  unfold ownTokens
  cases hsearch : provider.engine.search binding.highlights t with
  | error e => exact ⟨.error (.inverted e), fun _ => rfl⟩
  | ok found => exact ⟨_, fun _ => rfl⟩

/-! ## Regions -/

/-- The region of a match is settled by what languages load to. -/
theorem Yields.eq_region? (htells : Tells answer generation tells) {m : Match}
    {found : Option (Region Grammar Query)} (h : Yields configs generation tells mayNest m found) :
    found = m.region? configs answer := by
  cases h with
  | unmarked htarget => exact (Match.region?_eq_none htarget).symm
  | unloaded _ htarget hopens =>
    rw [Match.region?_eq htarget, ← hopens.eq_answerTo htells]
    rfl
  | region _ htarget hopens =>
    rw [Match.region?_eq htarget, ← hopens.eq_answerTo htells]
    rfl

theorem Stops.not_yields (htells : Tells answer generation tells) {m : Match} {e : HighlightError}
    (h : Stops provider configs generation tells mayNest m e) (a : Option (Region Grammar Query)) :
    ¬ Yields configs generation tells mayNest m a := by
  intro ha
  cases h with
  | tooDeep hnest htarget =>
    cases ha with
    | unmarked htarget' => simp [htarget] at htarget'
    | unloaded hnest' => simp [hnest] at hnest'
    | region hnest' => simp [hnest] at hnest'
  | foreign htarget hopens hfailure =>
    cases ha with
    | unmarked htarget' => simp [htarget] at htarget'
    | unloaded _ htarget' hopens' =>
      obtain ⟨rfl, rfl⟩ := Prod.mk.inj (Option.some.inj (htarget.symm.trans htarget'))
      cases (hopens.eq_answerTo htells).trans (hopens'.eq_answerTo htells).symm
      cases hfailure
    | region _ htarget' hopens' =>
      obtain ⟨rfl, rfl⟩ := Prod.mk.inj (Option.some.inj (htarget.symm.trans htarget'))
      cases (hopens.eq_answerTo htells).trans (hopens'.eq_answerTo htells).symm

theorem decided_regionErrand (htells : Tells answer generation tells) (mayNest : Bool) (m : Match) :
    (provider.regionErrand mayNest m).Decided (Answering configs generation tells) tells :=
  decided_of_ends (ends_regionErrand mayNest m)
    (fun _ _ ha hb => (ha.eq_region? htells).trans (hb.eq_region? htells).symm)
    fun a _ ha he => he.not_yields htells a ha

/-! ## Documents -/

variable {query : Query} {binding : Binding Grammar Query}

theorem decided_injectionErrand (htells : Tells answer generation tells)
    (hdeeper : ∀ errand, deeper = some errand → ∀ binding t,
      (errand binding t).Decided (Answering configs generation tells) tells) (m : Match) :
    (provider.injectionErrand deeper m).Decided (Answering configs generation tells) tells := by
  apply decided_bind (decided_regionErrand htells _ m)
  intro region
  cases region with
  | none => exact decided_pure none
  | some region =>
    cases deeper with
    | none => exact decided_pure none
    | some errand => exact decided_bind (hdeeper errand rfl _ _) fun tokens => decided_pure _

theorem decided_tokensErrandWith (htells : Tells answer generation tells)
    (hdeeper : ∀ errand, deeper = some errand → ∀ binding t,
      (errand binding t).Decided (Answering configs generation tells) tells)
    (binding : Binding Grammar Query) (t : Text) :
    (provider.tokensErrandWith deeper binding t).Decided (Answering configs generation tells)
      tells := by
  unfold tokensErrandWith
  split_ifs
  · exact decided_pure []
  · obtain ⟨own, hown⟩ := provider.constant_ownTokens binding t
    apply decided_bind (decided_of_constant hown)
    intro tokens
    cases binding.injections with
    | none => exact decided_pure tokens
    | some query =>
      refine decided_bind ?_ fun injections => decided_pure _
      apply decided_bind (decided_of_constant fun _ => rfl)
      intro found
      refine decided_bind (decided_forAll ?_) fun results => decided_pure _
      exact decided_injectionErrand htells hdeeper

theorem decided_tokensErrand (htells : Tells answer generation tells) (budget : Nat)
    (binding : Binding Grammar Query) (t : Text) :
    (provider.tokensErrand budget binding t).Decided (Answering configs generation tells) tells := by
  induction budget generalizing binding t with
  | zero =>
    apply decided_tokensErrandWith htells
    intro errand hnone
    cases hnone
  | succ budget ih =>
    apply decided_tokensErrandWith htells
    rintro _ ⟨⟩
    exact ih

theorem ends_askDocument (lang : Text) :
    Attempt.Ends (Answering configs generation tells) (askDocument lang : Attempt World Grammar Query _)
      (Leads configs generation tells lang)
      fun error => error = .unconfigured lang ∧ findConfig? configs lang = none := by
  unfold askDocument
  apply Attempt.ends_get_bind
  intro s hs
  rw [hs.isConfigured]
  cases hconfig : findConfig? configs lang with
  | none =>
    simp only [hconfig, Option.isSome_none, Bool.not_false, if_true]
    exact fun _ hs => ⟨⟨rfl, trivial⟩, hs⟩
  | some config =>
    simp only [hconfig, Option.isSome_some, Bool.not_true, Bool.false_eq_true, if_false]
    exact ends_ask lang

theorem decided_documentErrand (htells : Tells answer generation tells) (lang t : Text)
    (resolved : Except ResolveError (Binding Grammar Query)) :
    (provider.documentErrand lang t resolved).Decided (Answering configs generation tells) tells := by
  cases resolved with
  | error e => exact decided_fail _
  | ok binding =>
    refine decided_bind (decided_tokensErrand htells _ binding t) fun tokens => ?_
    exact decided_bind (decided_of_constant fun _ => rfl) fun _ => decided_pure _

/-- The language of a document comes to one thing, and so does the work on its text. -/
theorem decided_errand (htells : Tells answer generation tells) (lang t : Text) :
    (provider.errand lang t).Decided (Answering configs generation tells) tells := by
  obtain ⟨result, hresult⟩ : (provider.documentErrand lang t (answerTo configs answer lang)).Decided
    (Answering configs generation tells) tells := decided_documentErrand htells lang t _
  refine ⟨result, ends_bind ((ends_sync_of (ends_askDocument lang)).imp (fun _ h => h) ?_) ?_⟩
  · rintro _ ⟨-, hnone⟩
    rw [answerTo, hnone] at hresult
    exact hresult
  · intro asked hleads
    refine ends_bind (ends_settle hleads) fun resolved hopens => ?_
    rw [hopens.eq_answerTo htells]
    exact hresult

end Provider

end SemanticHighlight
