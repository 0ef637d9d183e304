import Mathlib.Logic.Hydra
import Mathlib.SetTheory.Ordinal.Family
import Mathlib.Algebra.BigOperators.Fin
import SemanticHighlight.Proofs.Strand.Conduct

/-!
# How strands go on

A strand has heads: one for each of its parts that can still take turns. A turn cuts one head off, and
only lower ones grow in its place (`Advance.cutExpand`), so turns come to an end however often strands
are started together. As long as a strand has no result and no error, it can take a turn or waits for
news that there are none of yet (`exists_advance`).
-/

namespace SemanticHighlight.Strand

open Relation

variable {State Key News Error α β γ : Type} {known : Key → News → Prop} {s s' : State}
  {x x' : Strand State Key News Error α}
  {strays : List (Stray State Key News Error)}

/-! ## Heads -/

/-- A height that no head of the strand goes beyond. -/
noncomputable def height : {α : Type} → Strand State Key News Error α → Ordinal.{0}
  | _, pure _ => 0
  | _, fail _ => 0
  | _, act _ next => Order.succ (⨆ b, height (next b))
  | _, await _ next => Order.succ (⨆ news, height (next news))
  | _, together _ children next =>
    max (⨆ i, height (children i)) (Order.succ (⨆ values, height (next values)))

noncomputable def heads : {α : Type} → Strand State Key News Error α → Multiset Ordinal.{0}
  | _, pure _ => 0
  | _, fail _ => 0
  | _, act _ next => {Order.succ (⨆ b, height (next b))}
  | _, await _ next => {Order.succ (⨆ news, height (next news))}
  | _, together _ children next =>
    (∑ i, heads (children i)) + {Order.succ (⨆ values, height (next values))}

theorem le_height_of_mem_heads {o : Ordinal.{0}} (h : o ∈ x.heads) : o ≤ x.height := by
  induction x with
  | pure a => simp [heads] at h
  | fail e => simp [heads] at h
  | act work next _ => exact (Multiset.mem_singleton.mp h).le
  | await key next _ => exact (Multiset.mem_singleton.mp h).le
  | together count children next ihchildren _ =>
    rcases Multiset.mem_add.mp h with h | h
    · obtain ⟨i, -, hi⟩ := Multiset.mem_sum.mp h
      exact ((ihchildren i hi).trans (Ordinal.le_iSup _ i)).trans (le_max_left _ _)
    · exact (Multiset.mem_singleton.mp h).le.trans (le_max_right _ _)

/-- What comes next has lower heads than the wait for it. -/
theorem lt_of_mem_heads {next : β → Strand State Key News Error α} {b : β} {o : Ordinal.{0}}
    (h : o ∈ (next b).heads) : o < Order.succ (⨆ b, (next b).height) :=
  Order.lt_succ_of_le ((le_height_of_mem_heads h).trans (Ordinal.le_iSup (fun b => (next b).height) b))

noncomputable def strayHeads (strays : List (Stray State Key News Error)) : Multiset Ordinal.{0} :=
  (strays.map fun stray => stray.2.heads).sum

theorem strayHeads_append (strays more : List (Stray State Key News Error)) :
    strayHeads (strays ++ more) = strayHeads strays + strayHeads more := by
  rw [strayHeads, List.map_append, List.sum_append, strayHeads, strayHeads]

theorem strayHeads_cons (stray : Stray State Key News Error) (strays : List (Stray State Key News Error)) :
    strayHeads (stray :: strays) = stray.2.heads + strayHeads strays := by
  rw [strayHeads, List.map_cons, List.sum_cons, strayHeads]

theorem strayHeads_of_perm {strays others : List (Stray State Key News Error)}
    (h : strays.Perm others) : strayHeads strays = strayHeads others :=
  (h.map _).sum_eq

theorem exists_sum_heads_eq {count : Nat} (children : Fin count → Strand State Key News Error β)
    (i : Fin count) : ∃ others : Multiset Ordinal.{0},
      ∑ j, (children j).heads = (children i).heads + others ∧
        ∀ child, ∑ j, (Function.update children i child j).heads = child.heads + others := by
  refine ⟨∑ j ∈ Finset.univ.erase i, (children j).heads,
    (Finset.add_sum_erase _ _ (Finset.mem_univ i)).symm, ?_⟩
  intro child
  rw [← Finset.add_sum_erase _ _ (Finset.mem_univ i), Function.update_self]
  congr 1
  apply Finset.sum_congr rfl
  intro j hj
  rw [Function.update_of_ne (Finset.ne_of_mem_erase hj)]

/-- A turn cuts one head off, and only lower ones grow. -/
theorem Advance.cutExpand (h : Advance known s x s' x' strays) :
    CutExpand (· < ·) (x'.heads + strayHeads strays) x.heads := by
  induction h with
  | act =>
    simp only [strayHeads, List.map_nil, List.sum_nil, add_zero]
    exact cutExpand_singleton fun o ho => lt_of_mem_heads ho
  | await =>
    simp only [strayHeads, List.map_nil, List.sum_nil, add_zero]
    exact cutExpand_singleton fun o ho => lt_of_mem_heads ho
  | @child _ _ _ _ _ children next i child strays _ ih =>
    obtain ⟨others, hbefore, hafter⟩ := exists_sum_heads_eq children i
    simp only [heads]
    rw [hbefore, hafter child, add_assoc child.heads, add_right_comm, add_assoc (children i).heads]
    exact (cutExpand_add_right _).mpr ih
  | @join _ _ _ _ children next values hvalues =>
    have hnone : ∑ i, (children i).heads = 0 := by
      apply Finset.sum_eq_zero
      intro i _
      rw [hvalues i, heads]
    simp only [strayHeads, List.map_nil, List.sum_nil, add_zero, heads, hnone, zero_add]
    exact cutExpand_singleton fun o ho => lt_of_mem_heads ho
  | @fall _ _ _ _ children next i e hfail =>
    have hstrays : strayHeads (List.ofFn fun j => (⟨_, children j⟩ : Stray State Key News Error)) =
        ∑ j, (children j).heads := by
      rw [strayHeads, List.map_ofFn, List.sum_ofFn]
      rfl
    rw [hstrays]
    simp only [heads, zero_add]
    exact ⟨0, Order.succ (⨆ values, (next values).height), by simp, by simp⟩

/-- What has no result and no error can take a turn or waits for news. -/
theorem exists_advance (h : x.result? = none) (s : State) (known : Key → News → Prop) :
    (∃ s' x' strays, Advance known s x s' x' strays) ∨
      ∃ key, x.Awaits key ∧ ∀ news, ¬ known key news := by
  induction x with
  | pure a => cases h
  | fail e => cases h
  | act work next _ => exact Or.inl ⟨_, _, _, .act⟩
  | await key next _ =>
    by_cases hnews : ∃ news, known key news
    · obtain ⟨news, hknown⟩ := hnews
      exact Or.inl ⟨_, _, _, .await hknown⟩
    · exact Or.inr ⟨key, rfl, fun news hknown => hnews ⟨news, hknown⟩⟩
  | together count children next ih _ =>
    by_cases hopen : ∃ i, (children i).result? = none
    · obtain ⟨i, hi⟩ := hopen
      rcases ih i hi with ⟨s', x', strays, hadvance⟩ | ⟨key, hawaits, hnews⟩
      · exact Or.inl ⟨_, _, _, .child hadvance⟩
      · exact Or.inr ⟨key, ⟨i, hawaits⟩, hnews⟩
    · by_cases hfailed : ∃ i e, children i = fail e
      · obtain ⟨i, e, hi⟩ := hfailed
        exact Or.inl ⟨_, _, _, .fall hi⟩
      · have hdone : ∀ i, ∃ a, children i = pure a := by
          intro i
          cases hi : children i with
          | pure a => exact ⟨a, rfl⟩
          | fail e => exact absurd ⟨i, e, hi⟩ hfailed
          | act => exact absurd ⟨i, by rw [hi]; rfl⟩ hopen
          | await => exact absurd ⟨i, by rw [hi]; rfl⟩ hopen
          | together => exact absurd ⟨i, by rw [hi]; rfl⟩ hopen
        choose values hvalues using hdone
        exact Or.inl ⟨_, _, _, .join hvalues⟩

end SemanticHighlight.Strand
