import SemanticHighlight.Proofs.Highlight.Caching

/-!
# What a reload brings up to date

Files and packages may change while documents are highlighted, and the registry is reloaded now and then.
After a reload, documents come to what they come to with a new provider in the same process, on the files
and packages as they are now (`answers_eq_reloaded`). What was under way before the reload may still go on
meanwhile. The libraries that the provider has kept cannot be told from those that a new one opens: the
process has them.
-/

namespace SemanticHighlight

open Relation

variable {Packages Process Library Grammar Query : Type}

/-- Files and packages change. -/
def Machine.Edited (machine machine' : Machine Packages Process Library) : Prop :=
  ∃ files packages, machine' = { machine with files, packages }

namespace Platform

variable {platform : Platform Packages Process Library Grammar Query}

theorem Kept.edited {machine machine' : Machine Packages Process Library}
    (hedited : machine.Edited machine') (h : platform.Kept machine) : platform.Kept machine' := by
  obtain ⟨files, packages, rfl⟩ := hedited
  exact h

/-- Whatever happened before, every request that comes in after a reload is answered if the scene goes on
by itself. The tokens are those that a new provider with the same entries gives, or both fail, as long as
nothing but loads changes the surroundings again. -/
theorem answers_eq_reloaded (hsteady : platform.Steady) (hkeeps : platform.KeepsLibraries)
    (engine : Engine Grammar Query) (legend : Legend) (maxDepth : Nat)
    (machine : Machine Packages Process Library) (configs : List LanguageConfig)
    {before after : Scene (Machine Packages Process Library) Grammar Query}
    (hhistory : ReflTransGen (Scene.Turn (platform.provider engine legend maxDepth) Machine.Edited)
      (.ofConfigs machine.renewed configs) before)
    (given : Option (List LanguageConfig))
    (hrun : ReflTransGen (Scene.Step (platform.provider engine legend maxDepth) Eq)
      (before.reloaded given) after) :
    Inevitable (Scene.Move (platform.provider engine legend maxDepth)) Scene.Answered after ∧
      ∀ i request, before.requests.length ≤ i → after.requests[i]? = some request →
        ∀ result, request.answer? = some result →
          ∀ fresh ∈ [before.session.world.renewed, after.session.world.renewed],
            result.toOption = (((platform.provider engine legend maxDepth).highlight request.lang
              request.text).outcome (.ofConfigs fresh
                (given.getD before.session.registry.configs))).1.toOption := by
  have hstart : (Scene.ofConfigs machine.renewed configs : Scene _ Grammar Query).Orderly :=
    Scene.orderly_ofConfigs machine.renewed configs
  have hblank : (before.reloaded given).Blank :=
    (Scene.orderly_of_run hstart hhistory).blank_reloaded given
  have hkept : platform.Kept before.session.world :=
    kept_of_run hkeeps hstart (fun _ _ hedited => Kept.edited hedited) hhistory (kept_renewed machine)
  refine ⟨?_, ?_⟩
  · exact (Scene.orderly_of_run hblank.orderly (Scene.turns_of_steps hrun)).inevitable
  · intro i request hi hrequest result hanswer
    exact answers_eq_new hsteady hkeeps hblank hkept hrun hi hrequest hanswer

/-! ### A new query and a lost library -/

def keptEntry : LanguageConfig := ⟨"x", "/g.so", "/q", none, false, none, some "g"⟩

def keptHost : Host := .ofFiles (Host.rootFiles [("g.so", plainLibrary), ("q", wholeQuery "string")]) []

/-- Another query, and something in the place of the library that is none. -/
def changedFiles : FileTree := Host.rootFiles [("g.so", "gone"), ("q", wholeQuery "number")]

/-- The tokens follow the new query, and the library is still there for both. -/
theorem answers_eq_reloaded_newQuery :
    let provider := Host.platform.provider patternEngine .standard 2
    ∃ before after, ReflTransGen (Scene.Turn provider Machine.Edited)
        (.ofConfigs keptHost.renewed [keptEntry]) before ∧
      before.session.world.files = changedFiles ∧
      ReflTransGen (Scene.Step provider Eq) (before.reloaded none) after ∧
      after.requests.map (fun r => r.answer?.map fun result =>
        result.toOption.map (List.map Token.type)) =
        [some (some [Text.ofString "string"]), some (some [Text.ofString "number"])] := by
  intro provider
  let told (s : HostSession) := ((provider.highlight "x" "ab").outcome s).1
  let start : Scene Host Grammar PatternQuery := .ofConfigs keptHost.renewed [keptEntry]
  have hstart : start.Idle := ⟨rfl, rfl⟩
  obtain ⟨first, hfirst, hidle, hsession, hrequests⟩ :=
    Scene.exists_run_highlight provider hstart "x" "ab"
  let before : Scene Host Grammar PatternQuery := { first with
    session := { first.session with world := { first.session.world with files := changedFiles } } }
  have hhistory : ReflTransGen (Scene.Turn provider Machine.Edited) start before := by
    have hasked : ReflTransGen (Scene.Turn provider Machine.Edited) start first :=
      Scene.turns_of_steps (.head (.ask "x" "ab") (Scene.steps_of_moves hfirst))
    exact hasked.tail (.step (.edit ⟨changedFiles, first.session.world.packages, rfl⟩))
  have hreloaded : (before.reloaded none).Idle := ⟨rfl, hidle.read⟩
  obtain ⟨after, hafter, -, -, hanswers⟩ :=
    Scene.exists_run_highlight provider hreloaded "x" "ab"
  have hrun : ReflTransGen (Scene.Step provider Eq) (before.reloaded none) after :=
    .head (.ask "x" "ab") (Scene.steps_of_moves hafter)
  obtain ⟨-, hfresh⟩ := answers_eq_reloaded Host.steady_platform Host.keepsLibraries_platform
    patternEngine .standard 2 keptHost [keptEntry] hhistory none hrun
  have hbefore : before.requests = [⟨"x", "ab", .ofResult (told start.session)⟩] := hrequests
  have hboth : after.requests = [⟨"x", "ab", .ofResult (told start.session)⟩,
      ⟨"x", "ab", .ofResult (told (before.reloaded none).session)⟩] :=
    hanswers.trans (congrArg (· ++ _) hbefore)
  have hsame : (told (before.reloaded none).session).toOption = (told (.ofConfigs
      before.session.world.renewed before.session.registry.configs)).toOption :=
    hfresh 1 ⟨"x", "ab", .ofResult _⟩ (Nat.le_of_eq (congrArg List.length hbefore))
      (congrArg (·[1]?) hboth) _ (Strand.result?_ofResult _) _ List.mem_cons_self
  have hnow : before.session = { ((provider.highlight "x" "ab").outcome start.session).2 with
      world := { ((provider.highlight "x" "ab").outcome start.session).2.world with
        files := changedFiles } } := by
    rw [← hsession]
  have hnumber : (told (.ofConfigs before.session.world.renewed
      before.session.registry.configs)).toOption.map (List.map Token.type) =
        some [Text.ofString "number"] := by
    rw [hnow]
    decide +kernel
  have hstring : (told start.session).toOption.map (List.map Token.type) =
      some [Text.ofString "string"] := by
    decide +kernel
  refine ⟨before, after, hhistory, rfl, hrun, ?_⟩
  rw [hboth]
  simp only [List.map_cons, List.map_nil, Request.answer?, Strand.result?_ofResult, Option.map_some,
    hsame, hnumber, hstring]

end Platform

end SemanticHighlight
