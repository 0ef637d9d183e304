import SemanticHighlight.Highlight.Setup
import SemanticHighlight.Proofs.Engine.Loading
import SemanticHighlight.Proofs.Highlight.Alone
import SemanticHighlight.Proofs.Highlight.Completion
import SemanticHighlight.Proofs.Highlight.Decided

/-!
# What was loaded before cannot be seen

A provider keeps bindings, and its engine keeps grammar libraries. As long as the surroundings stay as
they are this is invisible, on a platform that is steady and keeps libraries: every request is answered,
and it has the result that it has with a new provider, or it fails as it does there
(`answers_eq_fresh`). Other requests may be under way at the same time, failed ones may have left regions
and loads behind, and the new provider may be built in the same process at any time.
-/

namespace SemanticHighlight

open Relation

namespace Scene

variable {World Grammar Query : Type} {provider : Provider World Grammar Query}
  {scene scene' : Scene World Grammar Query}

/-- Nothing is kept or waited for, and no load of this generation has read anything. -/
structure Blank (scene : Scene World Grammar Query) : Prop where
  orderly : scene.Orderly
  cached : scene.session.registry.cached = []
  pending : scene.session.registry.pending = []
  read : ∀ load outcome, (load, outcome) ∈ scene.read →
    load.generation ≠ scene.session.registry.generation
  ended : ∀ load outcome, scene.Known load outcome →
    load.generation ≠ scene.session.registry.generation

theorem blank_ofConfigs (world : World) (configs : List LanguageConfig) :
    (ofConfigs world configs : Scene World Grammar Query).Blank :=
  ⟨orderly_ofConfigs world configs, rfl, rfl, fun _ _ => (nomatch ·), fun _ _ => (nomatch ·)⟩

theorem Orderly.blank_reloaded (h : scene.Orderly) (given : Option (List LanguageConfig)) :
    (scene.reloaded given).Blank where
  orderly := h.reloaded given
  cached := rfl
  pending := rfl
  read load outcome hmem := Nat.ne_of_lt (Nat.lt_succ_of_le (h.read_le load outcome hmem))
  ended load outcome hmem := Nat.ne_of_lt (Nat.lt_succ_of_le (h.ended_le load outcome hmem))

/-- The session of a scene with nothing else under way. -/
def emptied (scene : Scene World Grammar Query) : Scene World Grammar Query :=
  ⟨scene.session, [], [], [], []⟩

theorem Blank.emptied (h : scene.Blank) : scene.emptied.Blank := by
  refine ⟨⟨h.orderly.consistent, ?_, ?_, ?_, ?_⟩, h.cached, h.pending, ?_, ?_⟩
  all_goals simp [Scene.emptied, strands, Known]

theorem Blank.follows (h : scene.Blank)
    (tells : Load → Except LoadError (Binding Grammar Query) → Prop)
    (gives : Text → Text → List Token → Prop) (fails : Text → Text → HighlightError → Prop) :
    Follows scene.session.registry.configs scene.session.registry.generation tells gives fails
      scene.requests.length scene := by
  refine ⟨h.orderly, ⟨h.orderly.consistent, rfl, rfl, ?_⟩, ?_⟩
  · intro lang held hheld
    rw [h.cached] at hheld
    cases hheld
  · intro i request hi hrequest
    rw [List.getElem?_eq_none hi] at hrequest
    cases hrequest

theorem Blank.truthful (h : scene.Blank) (provider : Provider World Grammar Query) :
    Truthful provider (provider.loaded scene.session.world) scene.session.registry.generation scene :=
  ⟨h.orderly, rfl, fun load outcome hmem heq => absurd heq (h.read load outcome hmem),
    fun load outcome hmem heq => absurd heq (h.ended load outcome hmem)⟩

/-- There is one outcome of a document for all runs that begin in this way. -/
theorem exists_expected (hload : provider.LoadsApart) (configs : List LanguageConfig)
    (generation : Nat) (answer : LanguageConfig → Except LoadError (Binding Grammar Query)) :
    ∃ expected : Text → Text → Option (List Token), ∀ scene scene' : Scene World Grammar Query,
      scene.Blank → scene.session.registry.configs = configs →
      scene.session.registry.generation = generation →
      provider.loaded scene.session.world = answer → ReflTransGen (Step provider Eq) scene scene' →
      ∀ i request result, scene.requests.length ≤ i → scene'.requests[i]? = some request →
        request.answer? = some result → result.toOption = expected request.lang request.text := by
  let tells (load : Load) (outcome : Except LoadError (Binding Grammar Query)) : Prop :=
    load.generation = generation → outcome = answer load.config
  have htells : Session.Tells answer generation tells := fun load outcome h => h
  have hdecided : ∀ lang t, (provider.errand lang t).Decided
      (Session.Answering configs generation tells) tells := Provider.decided_errand htells
  choose expected hexpected using hdecided
  refine ⟨expected, ?_⟩
  rintro scene scene' hblank rfl rfl rfl hrun i request result hi hrequest hanswer
  have hfollows := hblank.follows tells (fun lang t tokens => expected lang t = some tokens)
    fun lang t _ => expected lang t = none
  have htold := ((hblank.truthful provider).run hload hrun).ended
  have hmeets := (hfollows.run hrun hexpected htold).meets hi hrequest hanswer
  cases result with
  | ok tokens => exact Eq.symm hmeets
  | error e => exact Eq.symm hmeets

/-- A request comes to what `highlight` comes to with a new session, if loads come to the same there. -/
theorem Blank.toOption_eq (h : scene.Blank) (hload : provider.LoadsApart)
    (hrun : ReflTransGen (Step provider Eq) scene scene') {i : Nat}
    (hi : scene.requests.length ≤ i) {request : Request World Grammar Query}
    (hrequest : scene'.requests[i]? = some request)
    {result : Except HighlightError (List Token)} (hanswer : request.answer? = some result)
    {world : World} (hworld : provider.loaded world = provider.loaded scene.session.world) :
    result.toOption = ((provider.highlight request.lang request.text).outcome
      (.ofConfigs world scene.session.registry.configs)).1.toOption := by
  obtain ⟨expected, hexpected⟩ := exists_expected hload scene.session.registry.configs
    scene.session.registry.generation (provider.loaded scene.session.world)
  -- Alone in the same session, the request can go the way of `highlight`.
  have hempty : scene.emptied.Idle := ⟨h.pending, rfl⟩
  obtain ⟨alone, halone, -, -, hlast⟩ :=
    exists_run_highlight provider hempty request.lang request.text
  have hsettled : scene.session.Settled provider scene.session.registry.configs
      (provider.loaded scene.session.world) := by
    refine ⟨rfl, h.pending, fun _ _ => rfl, fun lang held hheld => ?_⟩
    rw [h.cached] at hheld
    cases hheld
  have hfresh := Session.settled_ofConfigs provider world scene.session.registry.configs
  rw [hworld] at hfresh
  rw [hexpected scene scene' h rfl rfl rfl hrun i request result hi hrequest hanswer,
    ← hsettled.highlight_eq hload hfresh]
  refine (hexpected scene.emptied alone h.emptied rfl rfl rfl ?_ 0 _ _ (Nat.le_refl 0)
    (congrArg (·[0]?) hlast) ?_).symm
  · exact .head (.ask _ _) (steps_of_moves halone)
  · exact Strand.result?_ofResult _

end Scene

/-! ## Machines -/

namespace Platform

variable {Packages Process Library Grammar Query : Type}
  {platform : Platform Packages Process Library Grammar Query} {engine : Engine Grammar Query}
  {legend : Legend} {maxDepth : Nat} {scene scene' : Scene (Machine Packages Process Library) Grammar Query}

theorem loaded_provider (machine : Machine Packages Process Library) :
    (platform.provider engine legend maxDepth).loaded machine = platform.binding machine := by
  funext config
  show ((platform.loadLanguage config).run machine).1.1 = _
  rw [run_loadLanguage]

theorem afterLoad_provider (machine : Machine Packages Process Library) (config : LanguageConfig) :
    (platform.provider engine legend maxDepth).afterLoad machine config =
      platform.loaded machine config := by
  show ((platform.loadLanguage config).run machine).2 = _
  rw [run_loadLanguage]

theorem loadsApart_provider (hsteady : platform.Steady) :
    (platform.provider engine legend maxDepth).LoadsApart := by
  intro machine config
  rw [afterLoad_provider, loaded_provider, loaded_provider]
  exact (alike_loaded hsteady machine config).binding_eq

/-- What a machine keeps is kept in its process after every run. -/
theorem kept_of_run (hkeeps : platform.KeepsLibraries) (h : scene.Orderly)
    {edits : Machine Packages Process Library → Machine Packages Process Library → Prop}
    (hedits : ∀ machine machine', edits machine machine' → platform.Kept machine → platform.Kept machine')
    (hrun : ReflTransGen (Scene.Turn (platform.provider engine legend maxDepth) edits) scene scene')
    (hkept : platform.Kept scene.session.world) : platform.Kept scene'.session.world := by
  apply Scene.world_of_run h ?_ hedits hrun hkept
  intro machine config hmachine
  rw [afterLoad_provider]
  exact (touched_loaded machine config).kept hkeeps hmachine

/-- Loads come to the same all the way if nothing else changes the surroundings. -/
theorem binding_of_run (hsteady : platform.Steady) (h : scene.Orderly)
    (hrun : ReflTransGen (Scene.Turn (platform.provider engine legend maxDepth) Eq) scene scene') :
    platform.binding scene'.session.world = platform.binding scene.session.world := by
  apply Scene.world_of_run
    (W := fun machine => platform.binding machine = platform.binding scene.session.world) h ?_ ?_ hrun rfl
  · intro machine config hmachine
    rw [afterLoad_provider, (alike_loaded hsteady machine config).binding_eq]
    exact hmachine
  · rintro machine _ rfl
    exact id

/-- From a blank scene on, requests come to what `highlight` comes to with a new provider in the same
process, whether that is built in the beginning or in the end. -/
theorem answers_eq_new (hsteady : platform.Steady) (hkeeps : platform.KeepsLibraries) (h : scene.Blank)
    (hkept : platform.Kept scene.session.world)
    (hrun : ReflTransGen (Scene.Step (platform.provider engine legend maxDepth) Eq) scene scene')
    {i : Nat} (hi : scene.requests.length ≤ i)
    {request : Request (Machine Packages Process Library) Grammar Query}
    (hrequest : scene'.requests[i]? = some request)
    {result : Except HighlightError (List Token)} (hanswer : request.answer? = some result) :
    ∀ fresh ∈ [scene.session.world.renewed, scene'.session.world.renewed],
      result.toOption = (((platform.provider engine legend maxDepth).highlight request.lang
        request.text).outcome (.ofConfigs fresh scene.session.registry.configs)).1.toOption := by
  have hturns : ReflTransGen (Scene.Turn (platform.provider engine legend maxDepth) Eq) scene scene' :=
    Scene.turns_of_steps hrun
  have hsame : ∀ fresh ∈ [scene.session.world.renewed, scene'.session.world.renewed],
      platform.binding fresh = platform.binding scene.session.world := by
    have hkept' : platform.Kept scene'.session.world := by
      apply kept_of_run hkeeps h.orderly ?_ hturns hkept
      rintro machine _ rfl
      exact id
    intro fresh hfresh
    rcases List.mem_pair.mp hfresh with rfl | rfl
    · exact hkept.alike_renewed.binding_eq.symm
    · exact hkept'.alike_renewed.binding_eq.symm.trans (binding_of_run hsteady h.orderly hturns)
  intro fresh hfresh
  apply h.toOption_eq (loadsApart_provider hsteady) hrun hi hrequest hanswer
  rw [loaded_provider, loaded_provider]
  exact hsame fresh hfresh

/-- The surroundings stay as they are, and requests come in at any time. Every request is answered if
the scene goes on by itself, and the tokens are those that a new provider gives for the same document, or
both fail. -/
theorem answers_eq_fresh (hsteady : platform.Steady) (hkeeps : platform.KeepsLibraries)
    (engine : Engine Grammar Query) (legend : Legend) (maxDepth : Nat)
    (machine : Machine Packages Process Library) (configs : List LanguageConfig)
    {scene : Scene (Machine Packages Process Library) Grammar Query}
    (hrun : ReflTransGen (Scene.Step (platform.provider engine legend maxDepth) Eq)
      (.ofConfigs machine.renewed configs) scene) :
    Inevitable (Scene.Move (platform.provider engine legend maxDepth)) Scene.Answered scene ∧
      ∀ request ∈ scene.requests, ∀ result, request.answer? = some result →
        ∀ fresh ∈ [machine.renewed, scene.session.world.renewed],
          result.toOption = (((platform.provider engine legend maxDepth).highlight request.lang
            request.text).outcome (.ofConfigs fresh configs)).1.toOption := by
  have hblank : (Scene.ofConfigs machine.renewed configs : Scene _ Grammar Query).Blank :=
    Scene.blank_ofConfigs machine.renewed configs
  refine ⟨?_, ?_⟩
  · exact (Scene.orderly_of_run hblank.orderly (Scene.turns_of_steps hrun)).inevitable
  · intro request hmem result hanswer
    obtain ⟨i, hi⟩ := List.mem_iff_getElem?.mp hmem
    exact answers_eq_new hsteady hkeeps hblank (kept_renewed machine) hrun (Nat.zero_le i) hi hanswer

/-! ### Two languages and one that does not load -/

def plainLibrary : Text := "\x7b\"symbols\":\x7b\"g\":\x7b\x7d\x7d\x7d"

/-- Finds every text as a whole. -/
def wholeQuery (name : Text) : Text := "[\x7b\"whole\":1,\"captures\":[[0,\"" ++ name ++ "\"]]\x7d]"

def sharedHost : Host :=
  .ofFiles (Host.rootFiles [("g.so", plainLibrary), ("h", wholeQuery "string"),
    ("i", Host.markingQuery "bad" "y")]) []

/-- Three languages with one library. No file has the name of the last one's query. -/
def sharedConfigs : List LanguageConfig :=
  [⟨"x", "/g.so", "/h", some "/i", false, none, some "g"⟩,
    ⟨"y", "/g.so", "/h", none, false, none, some "g"⟩,
    ⟨"bad", "/g.so", Host.zeroPath, none, false, none, some "g"⟩]

/-- The first request fails whatever becomes of its other region, and the second one is answered. -/
theorem answers_eq_fresh_beside_failure :
    let provider := Host.platform.provider patternEngine .standard 2
    ∃ scene, ReflTransGen (Scene.Step provider Eq) (.ofConfigs sharedHost sharedConfigs) scene ∧
      scene.requests.map (fun r => (r.lang, r.text, r.answer?.map fun result =>
        result.toOption.map (List.map Token.type))) =
        [(Text.ofString "x", Text.ofString "ab", some none),
          (Text.ofString "y", Text.ofString "a", some (some [Text.ofString "string"]))] := by
  intro provider
  let start : Scene Host Grammar PatternQuery := .ofConfigs sharedHost.renewed sharedConfigs
  let asked := (start.asking provider "x" "ab").asking provider "y" "a"
  have hasked : ReflTransGen (Scene.Step provider Eq) start asked :=
    .tail (.single (.ask "x" "ab")) (.ask "y" "a")
  obtain ⟨hinevitable, -⟩ := answers_eq_fresh Host.steady_platform Host.keepsLibraries_platform
    patternEngine .standard 2 sharedHost sharedConfigs hasked
  obtain ⟨scene, hmoves, hanswered⟩ := hinevitable.exists_run
  have hrun := hasked.trans (Scene.steps_of_moves hmoves)
  obtain ⟨-, hfresh⟩ := answers_eq_fresh Host.steady_platform Host.keepsLibraries_platform
    patternEngine .standard 2 sharedHost sharedConfigs hrun
  refine ⟨scene, hrun, ?_⟩
  let fresh (lang t : Text) : Option (List Text) := (((provider.highlight lang t).outcome
    (.ofConfigs sharedHost.renewed sharedConfigs)).1.toOption).map (List.map Token.type)
  have heach : ∀ r ∈ scene.requests, (r.lang, r.text, r.answer?.map fun result =>
      result.toOption.map (List.map Token.type)) = (r.lang, r.text, some (fresh r.lang r.text)) := by
    intro r hr
    obtain ⟨result, hresult⟩ := Option.isSome_iff_exists.mp (hanswered r hr)
    rw [hresult, Option.map_some, hfresh r hr result hresult _ List.mem_cons_self]
  have hasks : scene.requests.map (fun r => (r.lang, r.text)) =
      [(Text.ofString "x", Text.ofString "ab"), (Text.ofString "y", Text.ofString "a")] :=
    Scene.asks_of_moves hmoves
  calc scene.requests.map _
      = (scene.requests.map fun r => (r.lang, r.text)).map
          fun p => (p.1, p.2, some (fresh p.1 p.2)) := by
        rw [List.map_map]
        exact List.map_congr_left heach
    _ = _ := by
      rw [hasks]
      decide +kernel

end Platform

end SemanticHighlight
