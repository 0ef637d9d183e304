import SemanticHighlight.Proofs.Highlight.Scenes

/-!
# What requests come to

If the work on every document ends as stated, given what loads tell, then so does every request, in
whatever order strands take turns and loads go on (`Follows.run`). Requests may come in at any time, and
what earlier requests left behind may still go on. While the surroundings stay as they are, loads tell
what they come to there (`Truthful.run`).
-/

namespace SemanticHighlight.Scene

open Relation

variable {World Grammar Query : Type} {provider : Provider World Grammar Query}
  {edits : World → World → Prop} {scene scene' : Scene World Grammar Query} {load : Load}
  {outcome : Except LoadError (Binding Grammar Query)} {configs : List LanguageConfig}
  {generation n : Nat} {tells : Load → Except LoadError (Binding Grammar Query) → Prop}
  {gives : Text → Text → List Token → Prop} {fails : Text → Text → HighlightError → Prop}
  {answer : LanguageConfig → Except LoadError (Binding Grammar Query)}

/-! ## News that stays -/

theorem Known.step (hstep : Step provider edits scene scene') (h : scene.Known load outcome) :
    scene'.Known load outcome := by
  cases hstep with
  | ask lang t => exact h
  | edit hedit => exact h
  | move hmove =>
    rcases hmove.cases with ⟨α, x, x', strays, hturned⟩ | ⟨l, -, -, rfl⟩ | ⟨l, o, -, -, rfl⟩
    · rw [Known, hturned.ended]
      exact h
    · exact h
    · exact List.mem_cons_of_mem _ h

/-! ## Requests -/

theorem answering_taking (h : scene.session.Answering configs generation tells)
    (hrunning : load ∈ scene.session.registry.running) (htells : tells load outcome) :
    (scene.taking load outcome).session.Answering configs generation tells := by
  obtain ⟨hgeneration, hconfigs⟩ := generation_finish scene.session.registry load outcome
  refine ⟨h.consistent.finish hrunning outcome, hconfigs.trans h.entries,
    hgeneration.trans h.generation, ?_⟩
  intro lang held hheld
  rcases Registry.mem_cached_finish.mp hheld with hkept | ⟨-, -, hload, houtcome⟩
  · exact h.cached lang held hkept
  · rw [hload, ← houtcome]
    exact htells

/-- The session has these entries and is of this generation, and all requests from number `n` on end as
stated. -/
structure Follows (configs : List LanguageConfig) (generation : Nat)
    (tells : Load → Except LoadError (Binding Grammar Query) → Prop)
    (gives : Text → Text → List Token → Prop) (fails : Text → Text → HighlightError → Prop) (n : Nat)
    (scene : Scene World Grammar Query) : Prop where
  orderly : scene.Orderly
  answering : scene.session.Answering configs generation tells
  ends : ∀ i request, n ≤ i → scene.requests[i]? = some request →
    request.rest.Ends (Session.Answering configs generation tells) tells
      (gives request.lang request.text) (fails request.lang request.text)

theorem Follows.move (h : Follows configs generation tells gives fails n scene)
    (hmove : Move provider scene scene') (htells : ∀ load outcome, scene'.Known load outcome →
      tells load outcome) : Follows configs generation tells gives fails n scene' := by
  have horderly := h.orderly.move hmove
  cases hmove with
  | @request i request _ _ _ hrequest hadvance =>
    have hmem : ⟨List Token, request.rest⟩ ∈ scene.strands :=
      List.mem_append_left _ (List.mem_map_of_mem (List.mem_of_getElem? hrequest))
    refine ⟨horderly, ?_, ?_⟩
    · exact (hadvance.behaves (h.orderly.behaves _ Session.kept_answering _ hmem)).1 h.answering
    · intro j other hj hother
      rw [List.getElem?_set] at hother
      split_ifs at hother with hij
      · subst hij
        obtain rfl := Option.some.inj hother
        exact hadvance.ends h.answering htells (h.ends i request hj hrequest)
      · exact h.ends j other hj hother
  | stray hstray hadvance =>
    have hmem := List.mem_append_right (scene.requests.map fun r => ⟨List Token, r.rest⟩)
      (List.mem_of_getElem? hstray)
    refine ⟨horderly, ?_, h.ends⟩
    exact (hadvance.behaves (h.orderly.behaves _ Session.kept_answering _ hmem)).1 h.answering
  | read hrunning hunread =>
    have hsession := h.answering
    exact ⟨horderly, ⟨hsession.consistent, hsession.entries, hsession.generation, hsession.cached⟩,
      h.ends⟩
  | take hrunning hread =>
    exact ⟨horderly, answering_taking h.answering hrunning (htells _ _ List.mem_cons_self), h.ends⟩

theorem Follows.step (h : Follows configs generation tells gives fails n scene)
    (hstep : Step provider edits scene scene')
    (herrand : ∀ lang t, (provider.errand lang t).Ends (Session.Answering configs generation tells)
      tells (gives lang t) (fails lang t))
    (htells : ∀ load outcome, scene'.Known load outcome → tells load outcome) :
    Follows configs generation tells gives fails n scene' := by
  have horderly := h.orderly.step hstep
  cases hstep with
  | move hmove => exact h.move hmove htells
  | edit hedit =>
    have hsession := h.answering
    exact ⟨horderly, ⟨hsession.consistent, hsession.entries, hsession.generation, hsession.cached⟩,
      h.ends⟩
  | ask lang t =>
    refine ⟨horderly, h.answering, ?_⟩
    intro i request hi hrequest
    by_cases hold : i < scene.requests.length
    · exact h.ends i request hi ((List.getElem?_append_left hold).symm.trans hrequest)
    · rw [Scene.asking, List.getElem?_append_right (Nat.le_of_not_lt hold)] at hrequest
      obtain rfl := List.mem_singleton.mp (List.mem_of_getElem? hrequest)
      exact herrand lang t

/-- From the news of the last scene on, all of a run follows. -/
theorem Follows.run (h : Follows configs generation tells gives fails n scene)
    (hrun : ReflTransGen (Step provider edits) scene scene')
    (herrand : ∀ lang t, (provider.errand lang t).Ends (Session.Answering configs generation tells)
      tells (gives lang t) (fails lang t))
    (htells : ∀ load outcome, scene'.Known load outcome → tells load outcome) :
    Follows configs generation tells gives fails n scene' := by
  induction hrun with
  | refl => exact h
  | tail _ hstep ih =>
    exact (ih fun load outcome hknown => htells load outcome (hknown.step hstep)).step hstep herrand
      htells

theorem Follows.meets (h : Follows configs generation tells gives fails n scene) {i : Nat} (hi : n ≤ i)
    {request : Request World Grammar Query} (hrequest : scene.requests[i]? = some request)
    {result : Except HighlightError (List Token)} (hanswer : request.answer? = some result) :
    Attempt.Meets (gives request.lang request.text) (fails request.lang request.text) result := by
  have hends := h.ends i request hi hrequest
  unfold Request.answer? at hanswer
  cases hrest : request.rest with
  | pure tokens =>
    rw [hrest] at hanswer hends
    obtain rfl := Option.some.inj hanswer
    exact hends
  | fail e =>
    rw [hrest] at hanswer hends
    obtain rfl := Option.some.inj hanswer
    exact hends
  | _ =>
    rw [hrest] at hanswer
    cases hanswer

/-! ## Unchanged surroundings -/

/-- Loads of this generation tell what they come to in these surroundings. -/
structure Truthful (provider : Provider World Grammar Query)
    (answer : LanguageConfig → Except LoadError (Binding Grammar Query)) (generation : Nat)
    (scene : Scene World Grammar Query) : Prop where
  orderly : scene.Orderly
  world : provider.loaded scene.session.world = answer
  read : ∀ load outcome, (load, outcome) ∈ scene.read → load.generation = generation →
    outcome = answer load.config
  ended : ∀ load outcome, scene.Known load outcome → load.generation = generation →
    outcome = answer load.config

theorem Truthful.step (hload : provider.LoadsApart) (h : Truthful provider answer generation scene)
    (hstep : Step provider Eq scene scene') : Truthful provider answer generation scene' := by
  have horderly := h.orderly.step hstep
  have hsame : ∀ world world', world = world' → provider.loaded world = answer →
      provider.loaded world' = answer := by
    rintro world _ rfl hworld
    exact hworld
  have hworld := h.orderly.world_step (W := fun world => provider.loaded world = answer)
    (fun world config hworld => (hload world config).trans hworld) hsame hstep h.world
  cases hstep with
  | ask lang t => exact ⟨horderly, hworld, h.read, h.ended⟩
  | edit hedit => exact ⟨horderly, hworld, h.read, h.ended⟩
  | move hmove =>
    rcases hmove.cases with ⟨α, x, x', strays, hturned⟩ | ⟨load, -, -, rfl⟩ |
      ⟨load, outcome, -, hread, rfl⟩
    · refine ⟨horderly, hworld, ?_, ?_⟩
      · rw [hturned.read]
        exact h.read
      · intro load outcome hknown
        rw [Known, hturned.ended] at hknown
        exact h.ended load outcome hknown
    · refine ⟨horderly, hworld, ?_, h.ended⟩
      intro l o hmem hgeneration
      rcases List.mem_cons.mp hmem with heq | hmem
      · obtain ⟨rfl, rfl⟩ := Prod.mk.inj heq
        exact congrFun h.world l.config
      · exact h.read l o hmem hgeneration
    · refine ⟨horderly, hworld, ?_, ?_⟩
      · intro l o hmem hgeneration
        exact h.read l o (List.mem_filter.mp hmem).1 hgeneration
      · intro l o hmem hgeneration
        rcases List.mem_cons.mp hmem with heq | hmem
        · obtain ⟨rfl, rfl⟩ := Prod.mk.inj heq
          exact h.read l o hread hgeneration
        · exact h.ended l o hmem hgeneration

theorem Truthful.run (hload : provider.LoadsApart) (h : Truthful provider answer generation scene)
    (hrun : ReflTransGen (Step provider Eq) scene scene') :
    Truthful provider answer generation scene' := by
  induction hrun with
  | refl => exact h
  | tail _ hstep ih => exact ih.step hload hstep

end SemanticHighlight.Scene
