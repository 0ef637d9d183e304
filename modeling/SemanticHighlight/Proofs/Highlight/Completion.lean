import SemanticHighlight.Proofs.Highlight.Scenes
import SemanticHighlight.Proofs.Strand.Progress

/-!
# Every request is answered

Turns of strands cut heads off, and each load takes two moves. So moves come to an end, and as long as
a request has no answer there is one: its strand can take a turn, or the load that it waits for can go
on. Every request is answered if nothing but moves happens for long enough (`Orderly.inevitable`).
-/

namespace SemanticHighlight

open Relation

/-- Every sequence of steps that is long enough comes to the goal, and none stops before. -/
inductive Inevitable {α : Type*} (step : α → α → Prop) (goal : α → Prop) : α → Prop where
  | now {a : α} (h : goal a) : Inevitable step goal a
  | later {a : α} (hsome : ∃ b, step a b) (hall : ∀ b, step a b → Inevitable step goal b) :
      Inevitable step goal a

theorem Inevitable.exists_run {α : Type*} {step : α → α → Prop} {goal : α → Prop} {a : α}
    (h : Inevitable step goal a) : ∃ b, ReflTransGen step a b ∧ goal b := by
  induction h with
  | now h => exact ⟨_, .refl, h⟩
  | later hsome _ ih =>
    obtain ⟨b, hstep⟩ := hsome
    obtain ⟨c, hrun, hgoal⟩ := ih b hstep
    exact ⟨c, .head hstep hrun, hgoal⟩

namespace Scene

variable {World Grammar Query : Type} {provider : Provider World Grammar Query}
  {scene scene' : Scene World Grammar Query} {load : Load}
  {outcome : Except LoadError (Binding Grammar Query)}

def Unread (scene : Scene World Grammar Query) (load : Load) : Prop := load ∉ scene.read.map Prod.fst

instance (scene : Scene World Grammar Query) : DecidablePred scene.Unread :=
  fun _ => inferInstanceAs (Decidable (¬ _))

/-- How many moves the running loads have left. -/
def loadMoves (scene : Scene World Grammar Query) : Nat :=
  scene.session.registry.running.length +
    (scene.session.registry.running.filter (scene.Unread ·)).length

theorem loadMoves_reading (hrunning : load ∈ scene.session.registry.running)
    (hunread : ∀ outcome, (load, outcome) ∉ scene.read) :
    (scene.reading provider load).loadMoves < scene.loadMoves := by
  have hread : ∀ l, (scene.reading provider load).Unread l ↔ l ≠ load ∧ scene.Unread l := by
    intro l
    show l ∉ load :: scene.read.map Prod.fst ↔ _
    rw [List.mem_cons, not_or]
    rfl
  have hrest : scene.session.registry.running.filter ((scene.reading provider load).Unread ·) =
      (scene.session.registry.running.filter (scene.Unread ·)).filter (· ≠ load) := by
    rw [List.filter_filter]
    apply List.filter_congr
    intro l _
    simp [hread]
  have hmem : load ∈ scene.session.registry.running.filter (scene.Unread ·) := by
    refine List.mem_filter.mpr ⟨hrunning, decide_eq_true ?_⟩
    intro hknown
    obtain ⟨known, hmem, rfl⟩ := List.mem_map.mp hknown
    exact hunread known.2 hmem
  apply Nat.add_lt_add_left
  show (scene.session.registry.running.filter _).length < _
  rw [hrest]
  exact List.length_filter_lt_length_iff_exists.mpr ⟨load, hmem, by simp⟩

theorem loadMoves_taking (hrunning : load ∈ scene.session.registry.running) :
    (scene.taking load outcome).loadMoves < scene.loadMoves := by
  have hread : ∀ l, l ≠ load → ((scene.taking load outcome).Unread l ↔ scene.Unread l) := by
    intro l hl
    simp only [Unread, Scene.taking, List.mem_map, List.mem_filter]
    aesop
  have hleft : (scene.taking load outcome).session.registry.running =
      scene.session.registry.running.filter (· ≠ load) :=
    Registry.running_finish scene.session.registry load outcome
  have hrest : (scene.session.registry.running.filter (· ≠ load)).filter
        ((scene.taking load outcome).Unread ·) =
      (scene.session.registry.running.filter (scene.Unread ·)).filter (· ≠ load) := by
    rw [List.filter_filter, List.filter_filter]
    apply List.filter_congr
    intro l _
    by_cases hl : l = load
    · simp [hl]
    · simp [hl, hread l hl]
  unfold loadMoves
  rw [hleft, hrest]
  apply Nat.add_lt_add_of_lt_of_le
  · exact List.length_filter_lt_length_iff_exists.mpr ⟨load, hrunning, by simp⟩
  · exact List.length_filter_le _ _

/-- What is ahead: the heads of all strands, and then the moves of loads. -/
noncomputable def ahead (scene : Scene World Grammar Query) : Multiset Ordinal.{0} × Nat :=
  (Strand.strayHeads scene.strands, scene.loadMoves)

theorem Turned.cutExpand {α : Type} {x x' : Errand World Grammar Query α} {strays : List (Stray _ _ _ _)}
    (h : Turned scene scene' x x' strays) :
    CutExpand (· < ·) (Strand.strayHeads scene'.strands) (Strand.strayHeads scene.strands) := by
  obtain ⟨before, after, hbefore, hperm⟩ := h.others
  have hheads : Strand.strayHeads scene.strands =
      Strand.strayHeads before + (x.heads + Strand.strayHeads after) := by
    rw [hbefore, Strand.strayHeads_append, Strand.strayHeads_cons]
  have hheads' : Strand.strayHeads scene'.strands =
      Strand.strayHeads before + (x'.heads + Strand.strayHeads strays + Strand.strayHeads after) := by
    rw [Strand.strayHeads_of_perm hperm, Strand.strayHeads_append, Strand.strayHeads_append,
      Strand.strayHeads_cons, add_assoc, add_right_comm x'.heads]
  rw [hheads, hheads']
  exact (cutExpand_add_left _).mpr ((cutExpand_add_right _).mpr h.advance.cutExpand)

theorem Move.ahead_lt (h : Move provider scene scene') :
    Prod.Lex (CutExpand (· < ·)) (· < ·) scene'.ahead scene.ahead := by
  rcases h.cases with ⟨α, x, x', strays, hturned⟩ | ⟨load, hrunning, hunread, rfl⟩ |
    ⟨load, outcome, hrunning, -, rfl⟩
  · exact Prod.Lex.left _ _ hturned.cutExpand
  · exact Prod.Lex.right _ (loadMoves_reading hrunning hunread)
  · exact Prod.Lex.right _ (loadMoves_taking hrunning)

theorem wellFounded_move (provider : Provider World Grammar Query) :
    WellFounded fun scene' scene => Move provider scene scene' := by
  have hahead : WellFounded fun scene' scene : Scene World Grammar Query =>
      Prod.Lex (CutExpand (· < ·)) (· < ·) scene'.ahead scene.ahead :=
    InvImage.wf ahead (wellFounded_lt.cutExpand.prod_lex wellFounded_lt)
  exact Subrelation.wf (fun hmove => hmove.ahead_lt) hahead

/-- An open request can take a turn, or it waits for a load that can go on. -/
theorem Orderly.exists_move (h : scene.Orderly) (hopen : ¬ scene.Answered) :
    ∃ scene', Move provider scene scene' := by
  simp only [Answered, not_forall, Bool.not_eq_true, Option.isSome_eq_false_iff,
    Option.isNone_iff_eq_none] at hopen
  obtain ⟨request, hmem, hnone⟩ := hopen
  obtain ⟨i, hi⟩ := List.mem_iff_getElem?.mp hmem
  rcases Strand.exists_advance hnone scene.session scene.Known with
    ⟨s', rest', strays, hadvance⟩ | ⟨load, hawaits, hnews⟩
  · exact ⟨_, .request hi hadvance⟩
  · have hstrand : ⟨List Token, request.rest⟩ ∈ scene.strands :=
      List.mem_append_left _ (List.mem_map_of_mem hmem)
    rcases h.minds _ hstrand load hawaits with hrunning | ⟨outcome, hknown⟩
    · by_cases hread : ∃ outcome, (load, outcome) ∈ scene.read
      · obtain ⟨outcome, hread⟩ := hread
        exact ⟨_, .take hrunning hread⟩
      · exact ⟨_, .read hrunning fun outcome hmem => hread ⟨outcome, hmem⟩⟩
    · exact absurd hknown (hnews outcome)

theorem Orderly.inevitable (h : scene.Orderly) : Inevitable (Move provider) Answered scene := by
  induction scene using (wellFounded_move provider).induction with
  | _ scene ih =>
    by_cases hanswered : scene.Answered
    · exact .now hanswered
    · exact .later (h.exists_move hanswered) fun scene' hmove => ih scene' hmove (h.move hmove)

end Scene

end SemanticHighlight
