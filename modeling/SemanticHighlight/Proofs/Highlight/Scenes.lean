import SemanticHighlight.Proofs.Highlight.Errands

/-!
# Scenes over time

Whatever happens to a scene, its registry stays consistent, its strands behave, and every load that is
waited for runs or has ended (`Orderly.turn`). The surroundings change by loads and from outside, and
by nothing else (`Orderly.world_turn`).
-/

namespace SemanticHighlight

variable {World Grammar Query : Type}

theorem exists_set_eq {α : Type*} {l : List α} {i : Nat} {a : α} (h : l[i]? = some a) :
    ∃ before after, l = before ++ a :: after ∧ ∀ b, l.set i b = before ++ b :: after := by
  obtain ⟨hi, rfl⟩ := List.getElem?_eq_some_iff.mp h
  refine ⟨l.take i, l.drop (i + 1), by simp, fun b => ?_⟩
  rw [List.set_eq_take_append_cons_drop, if_pos hi]

namespace Scene

variable {provider : Provider World Grammar Query} {edits : World → World → Prop}
  {scene scene' : Scene World Grammar Query} {load : Load}
  {outcome : Except LoadError (Binding Grammar Query)}

def strands (scene : Scene World Grammar Query) : List (Stray (Session World Grammar Query) Load
    (Except LoadError (Binding Grammar Query)) HighlightError) :=
  scene.requests.map (fun request => ⟨List Token, request.rest⟩) ++ scene.strays

/-- A strand took a turn: it is another one now, strays are added, and nothing else happened to the
other strands. -/
structure Turned (scene scene' : Scene World Grammar Query) {α : Type}
    (x x' : Errand World Grammar Query α)
    (strays : List (Stray (Session World Grammar Query) Load
      (Except LoadError (Binding Grammar Query)) HighlightError)) : Prop where
  advance : x.Advance scene.Known scene.session scene'.session x' strays
  read : scene'.read = scene.read
  ended : scene'.ended = scene.ended
  others : ∃ before after, scene.strands = before ++ ⟨α, x⟩ :: after ∧
    scene'.strands.Perm (before ++ ⟨α, x'⟩ :: after ++ strays)

theorem Move.cases (h : Move provider scene scene') :
    (∃ (α : Type) (x x' : Errand World Grammar Query α) (strays : _),
      Turned scene scene' x x' strays) ∨
    (∃ load, load ∈ scene.session.registry.running ∧ (∀ outcome, (load, outcome) ∉ scene.read) ∧
      scene' = scene.reading provider load) ∨
    ∃ load outcome, load ∈ scene.session.registry.running ∧ (load, outcome) ∈ scene.read ∧
      scene' = scene.taking load outcome := by
  cases h with
  | request hrequest hadvance =>
    obtain ⟨before, after, hbefore, hset⟩ := exists_set_eq hrequest
    refine Or.inl ⟨_, _, _, _, hadvance, rfl, rfl, before.map (fun r => ⟨List Token, r.rest⟩),
      after.map (fun r => ⟨List Token, r.rest⟩) ++ scene.strays, ?_, ?_⟩
    · simp [strands, hbefore]
    · simp [strands, hset]
  | stray hstray hadvance =>
    obtain ⟨before, after, hbefore, hset⟩ := exists_set_eq hstray
    refine Or.inl ⟨_, _, _, _, hadvance, rfl, rfl,
      scene.requests.map (fun r => ⟨List Token, r.rest⟩) ++ before, after, ?_, ?_⟩
    · simp [strands, hbefore]
    · simp [strands, hset]
  | read hrunning hunread => exact Or.inr (Or.inl ⟨_, hrunning, hunread, rfl⟩)
  | take hrunning hread => exact Or.inr (Or.inr ⟨_, _, hrunning, hread, rfl⟩)

theorem Turned.mem_strands {α : Type} {x x' : Errand World Grammar Query α} {strays : List (Stray _ _ _ _)}
    (h : Turned scene scene' x x' strays) {y : Stray _ _ _ _} (hy : y ∈ scene'.strands) :
    y ∈ scene.strands ∨ y = ⟨α, x'⟩ ∨ y ∈ strays := by
  obtain ⟨before, after, hbefore, hperm⟩ := h.others
  have hmem := hperm.mem_iff.mp hy
  simp only [List.mem_append, List.mem_cons] at hmem
  rw [hbefore]
  simp only [List.mem_append, List.mem_cons]
  tauto

theorem Turned.mem {α : Type} {x x' : Errand World Grammar Query α} {strays : List (Stray _ _ _ _)}
    (h : Turned scene scene' x x' strays) : ⟨α, x⟩ ∈ scene.strands := by
  obtain ⟨before, after, hbefore, -⟩ := h.others
  rw [hbefore]
  exact List.mem_append_right _ List.mem_cons_self

theorem steps_of_moves (h : Relation.ReflTransGen (Move provider) scene scene') :
    Relation.ReflTransGen (Step provider edits) scene scene' :=
  h.lift id fun _ _ hmove => .move hmove

theorem turns_of_steps (h : Relation.ReflTransGen (Step provider edits) scene scene') :
    Relation.ReflTransGen (Turn provider edits) scene scene' :=
  h.lift id fun _ _ hstep => .step hstep

/-- Moves go on with requests, they bring none and take none away. -/
theorem Move.asks (h : Move provider scene scene') :
    scene'.requests.map (fun r => (r.lang, r.text)) = scene.requests.map fun r => (r.lang, r.text) := by
  cases h with
  | request hrequest hadvance =>
    obtain ⟨before, after, hbefore, hset⟩ := exists_set_eq hrequest
    dsimp only
    rw [hset, hbefore]
    simp
  | stray hstray hadvance => rfl
  | read hrunning hunread => rfl
  | take hrunning hread => rfl

theorem asks_of_moves (h : Relation.ReflTransGen (Move provider) scene scene') :
    scene'.requests.map (fun r => (r.lang, r.text)) = scene.requests.map fun r => (r.lang, r.text) := by
  induction h with
  | refl => rfl
  | tail _ hmove ih => exact hmove.asks.trans ih

/-! ## What always holds -/

/-- The load runs or has ended. -/
def Minds (scene : Scene World Grammar Query) (load : Load) : Prop :=
  load ∈ scene.session.registry.running ∨ ∃ outcome, scene.Known load outcome

structure Orderly (scene : Scene World Grammar Query) : Prop where
  consistent : scene.session.registry.Consistent
  read_le : ∀ load outcome, (load, outcome) ∈ scene.read →
    load.generation ≤ scene.session.registry.generation
  ended_le : ∀ load outcome, (load, outcome) ∈ scene.ended →
    load.generation ≤ scene.session.registry.generation
  behaves : ∀ P, Session.Kept P → ∀ x ∈ scene.strands, x.2.Behaves P Session.Pends
  minds : ∀ x ∈ scene.strands, ∀ load, x.2.Awaits load → scene.Minds load

theorem orderly_ofConfigs (world : World) (configs : List LanguageConfig) :
    (ofConfigs world configs : Scene World Grammar Query).Orderly := by
  constructor
  case consistent => exact .ofConfigs configs
  all_goals simp [ofConfigs, strands]

theorem kept_consistent : Session.Kept fun s : Session World Grammar Query => s.registry.Consistent where
  report _ _ h := h
  ask _ lang h := h.request lang

theorem kept_generation (generation : Nat) :
    Session.Kept fun s : Session World Grammar Query => s.registry.generation = generation := by
  refine ⟨fun _ _ h => h, fun s lang h => ?_⟩
  have hrequested := s.registry.requested_request lang
  generalize s.registry.request lang = asked at hrequested
  cases hrequested <;> exact h

/-- A request never takes a load off the list of those that run. -/
theorem kept_running (load : Load) :
    Session.Kept fun s : Session World Grammar Query => load ∈ s.registry.running := by
  refine ⟨fun _ _ h => h, fun s lang h => ?_⟩
  have hrequested := s.registry.requested_request lang
  generalize s.registry.request lang = asked at hrequested
  cases hrequested with
  | begun => exact List.mem_append_left _ h
  | _ => exact h

theorem kept_world (W : World → Prop) :
    Session.Kept fun s : Session World Grammar Query => W s.world := ⟨fun _ _ h => h, fun _ _ h => h⟩

theorem Orderly.turned {α : Type} {x x' : Errand World Grammar Query α}
    {strays : List (Stray _ _ _ _)} (h : scene.Orderly) (hturned : Turned scene scene' x x' strays) :
    scene'.Orderly := by
  have hkeeps : ∀ P, Session.Kept P → P scene.session → P scene'.session := fun P hP =>
    (hturned.advance.behaves (h.behaves P hP _ hturned.mem)).1
  have hgeneration := hkeeps _ (kept_generation _) rfl
  have hconsistent := hkeeps _ kept_consistent h.consistent
  have hminds : ∀ load, scene.Minds load → scene'.Minds load := by
    rintro load (hrunning | ⟨outcome, hknown⟩)
    · exact Or.inl (hkeeps _ (kept_running load) hrunning)
    · refine Or.inr ⟨outcome, ?_⟩
      rw [Known, hturned.ended]
      exact hknown
  have hpends : ∀ load, scene'.session.Pends load → scene'.Minds load := by
    rintro load ⟨lang, hpending⟩
    exact Or.inl ((hconsistent.mem_pending lang load).mp hpending).1
  obtain ⟨-, ⟨-, hawaits⟩, hstrays⟩ := hturned.advance.behaves
    (h.behaves _ kept_consistent _ hturned.mem)
  constructor
  case consistent => exact hconsistent
  case read_le =>
    rw [hturned.read, hgeneration]
    exact h.read_le
  case ended_le =>
    rw [hturned.ended, hgeneration]
    exact h.ended_le
  case behaves =>
    intro P hP y hy
    obtain ⟨-, ⟨hbehaves, -⟩, hleft⟩ := hturned.advance.behaves (h.behaves P hP _ hturned.mem)
    rcases hturned.mem_strands hy with hy | rfl | hy
    · exact h.behaves P hP y hy
    · exact hbehaves
    · exact (hleft y hy).1
  case minds =>
    have hx := h.minds _ hturned.mem
    intro y hy load hload
    rcases hturned.mem_strands hy with hy | rfl | hy
    · exact hminds load (h.minds y hy load hload)
    · exact (hawaits load hload).elim (fun h => hminds load (hx load h)) (hpends load)
    · exact ((hstrays y hy).2 load hload).elim (fun h => hminds load (hx load h)) (hpends load)

theorem Orderly.reading (h : scene.Orderly) (hrunning : load ∈ scene.session.registry.running) :
    (scene.reading provider load).Orderly := by
  constructor
  case consistent => exact h.consistent
  case read_le =>
    intro l o hmem
    rcases List.mem_cons.mp hmem with heq | hmem
    · obtain ⟨rfl, -⟩ := Prod.mk.inj heq
      exact h.consistent.generation_le _ hrunning
    · exact h.read_le l o hmem
  case ended_le => exact h.ended_le
  case behaves => exact h.behaves
  case minds => exact h.minds

theorem generation_finish (r : Registry (Binding Grammar Query)) (load : Load)
    (outcome : Except LoadError (Binding Grammar Query)) :
    (r.finish load outcome).1.generation = r.generation ∧
      (r.finish load outcome).1.configs = r.configs := by
  by_cases h : load.generation = r.generation
  · cases outcome with
    | error e => rw [Registry.finish_error h]; exact ⟨rfl, rfl⟩
    | ok binding => rw [Registry.finish_ok h]; exact ⟨rfl, rfl⟩
  · rw [Registry.finish_late h]
    exact ⟨rfl, rfl⟩

theorem Orderly.taking (h : scene.Orderly) (hrunning : load ∈ scene.session.registry.running) :
    (scene.taking load outcome).Orderly := by
  have hgeneration : (scene.taking load outcome).session.registry.generation =
      scene.session.registry.generation := (generation_finish _ load outcome).1
  constructor
  case consistent => exact h.consistent.finish hrunning outcome
  case read_le =>
    intro l o hmem
    rw [hgeneration]
    exact h.read_le l o (List.mem_filter.mp hmem).1
  case ended_le =>
    intro l o hmem
    rw [hgeneration]
    rcases List.mem_cons.mp hmem with heq | hmem
    · obtain ⟨rfl, -⟩ := Prod.mk.inj heq
      exact h.consistent.generation_le _ hrunning
    · exact h.ended_le l o hmem
  case behaves => exact h.behaves
  case minds =>
    intro x hx l hl
    by_cases heq : l = load
    · subst heq
      exact Or.inr ⟨outcome, List.mem_cons_self⟩
    · rcases h.minds x hx l hl with hmem | ⟨o, hknown⟩
      · apply Or.inl
        show l ∈ (scene.session.registry.finish load outcome).1.running
        rw [Registry.running_finish]
        exact Registry.mem_running_ended.mpr ⟨hmem, heq⟩
      · exact Or.inr ⟨o, List.mem_cons_of_mem _ hknown⟩

theorem Orderly.move (h : scene.Orderly) (hmove : Move provider scene scene') : scene'.Orderly := by
  rcases hmove.cases with ⟨α, x, x', strays, hturned⟩ | ⟨load, hrunning, -, rfl⟩ |
    ⟨load, outcome, hrunning, -, rfl⟩
  · exact h.turned hturned
  · exact h.reading hrunning
  · exact h.taking hrunning

theorem Orderly.asking (h : scene.Orderly) (lang t : Text) :
    (scene.asking provider lang t).Orderly := by
  have hmem : ∀ x, x ∈ (scene.asking provider lang t).strands →
      x ∈ scene.strands ∨ x = ⟨List Token, provider.errand lang t⟩ := by
    intro x hx
    simp only [strands, Scene.asking, List.map_append, List.map_cons, List.map_nil,
      List.mem_append, List.mem_singleton] at hx ⊢
    tauto
  refine ⟨h.consistent, h.read_le, h.ended_le, ?_, ?_⟩
  · intro P hP x hx
    rcases hmem x hx with hx | rfl
    · exact h.behaves P hP x hx
    · exact Provider.behaves_errand hP lang t
  · intro x hx load hload
    rcases hmem x hx with hx | rfl
    · exact h.minds x hx load hload
    · exact hload.elim

theorem Orderly.step (h : scene.Orderly) (hstep : Step provider edits scene scene') :
    scene'.Orderly := by
  cases hstep with
  | move hmove => exact h.move hmove
  | ask lang t => exact h.asking lang t
  | edit _ => exact ⟨h.consistent, h.read_le, h.ended_le, h.behaves, h.minds⟩

theorem Orderly.reloaded (h : scene.Orderly) (given : Option (List LanguageConfig)) :
    (scene.reloaded given).Orderly where
  consistent := h.consistent.reload given
  read_le load outcome hmem := Nat.le_succ_of_le (h.read_le load outcome hmem)
  ended_le load outcome hmem := Nat.le_succ_of_le (h.ended_le load outcome hmem)
  behaves := h.behaves
  minds := h.minds

/-- Whatever happens, an orderly scene stays orderly. -/
theorem Orderly.turn (h : scene.Orderly) (hturn : Turn provider edits scene scene') :
    scene'.Orderly := by
  cases hturn with
  | step hstep => exact h.step hstep
  | reload given => exact h.reloaded given

theorem orderly_of_run (h : scene.Orderly)
    (hrun : Relation.ReflTransGen (Turn provider edits) scene scene') : scene'.Orderly := by
  induction hrun with
  | refl => exact h
  | tail _ hturn ih => exact ih.turn hturn

/-! ## The surroundings -/

section World

variable {W : World → Prop}

theorem Orderly.world_step (h : scene.Orderly)
    (hload : ∀ world config, W world → W (provider.afterLoad world config))
    (hedits : ∀ world world', edits world world' → W world → W world')
    (hstep : Step provider edits scene scene') (hW : W scene.session.world) :
    W scene'.session.world := by
  cases hstep with
  | ask lang t => exact hW
  | edit hedit => exact hedits _ _ hedit hW
  | move hmove =>
    rcases hmove.cases with ⟨α, x, x', strays, hturned⟩ | ⟨load, -, -, rfl⟩ | ⟨load, outcome, -, -, rfl⟩
    · exact (hturned.advance.behaves (h.behaves _ (kept_world W) _ hturned.mem)).1 hW
    · exact hload _ load.config hW
    · exact hW

/-- What loads and edits keep of the surroundings stays so. -/
theorem Orderly.world_turn (h : scene.Orderly)
    (hload : ∀ world config, W world → W (provider.afterLoad world config))
    (hedits : ∀ world world', edits world world' → W world → W world')
    (hturn : Turn provider edits scene scene') (hW : W scene.session.world) :
    W scene'.session.world := by
  cases hturn with
  | step hstep => exact h.world_step hload hedits hstep hW
  | reload given => exact hW

theorem world_of_run (h : scene.Orderly)
    (hload : ∀ world config, W world → W (provider.afterLoad world config))
    (hedits : ∀ world world', edits world world' → W world → W world')
    (hrun : Relation.ReflTransGen (Turn provider edits) scene scene') (hW : W scene.session.world) :
    W scene'.session.world := by
  induction hrun with
  | refl => exact hW
  | tail hrun hturn ih => exact (orderly_of_run h hrun).world_turn hload hedits hturn ih

end World

end Scene

end SemanticHighlight
