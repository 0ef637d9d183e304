/-!
# Bisection

Where an initial stretch of an ordered array ends, found by halving.
-/

namespace SemanticHighlight.Bisection

variable {α : Type}

/-- Halves the candidates `low … high` until one is left. -/
def search (inside : α → Bool) (xs : Array α) (low high : Nat) (h : high ≤ xs.size) : Nat :=
  if hlt : low < high then
    let middle := (low + high) / 2
    have : middle < high := by omega
    have : middle < xs.size := by omega
    if inside xs[middle] then search inside xs (middle + 1) high h
    else search inside xs low middle (by omega)
  else low
termination_by high - low

/-- The number of elements `inside` holds of, if they all stand before the others. -/
def boundary (inside : α → Bool) (xs : Array α) : Nat :=
  search inside xs 0 xs.size (Nat.le_refl _)

/-- A list in which a condition can only turn false is cut where it does. -/
theorem exists_append_of_pairwise {p : α → Bool} {xs : List α}
    (h : xs.Pairwise fun a b => p b = true → p a = true) :
    ∃ ys zs, xs = ys ++ zs ∧ (∀ y ∈ ys, p y = true) ∧ ∀ z ∈ zs, p z = false := by
  induction xs with
  | nil => exact ⟨[], [], rfl, by simp, by simp⟩
  | cons a xs ih =>
    obtain ⟨hhead, htail⟩ := List.pairwise_cons.mp h
    by_cases ha : p a = true
    · obtain ⟨ys, zs, rfl, hys, hzs⟩ := ih htail
      exact ⟨a :: ys, zs, rfl, by simpa [ha] using hys, hzs⟩
    · refine ⟨[], a :: xs, rfl, by simp, ?_⟩
      intro z hz
      rw [← Bool.not_eq_true]
      rcases List.mem_cons.mp hz with rfl | hz
      · exact ha
      · exact fun hpz => ha (hhead z hz hpz)

theorem search_append {inside : α → Bool} {xs ys : List α} (hxs : ∀ x ∈ xs, inside x = true)
    (hys : ∀ y ∈ ys, inside y = false) {low high : Nat} (h : high ≤ (xs ++ ys).toArray.size)
    (hlow : low ≤ xs.length) (hhigh : xs.length ≤ high) :
    search inside (xs ++ ys).toArray low high h = xs.length := by
  fun_induction search inside (xs ++ ys).toArray low high h with
  | case1 low high h hlt middle _ hsize hin ih =>
    refine ih ?_ hhigh
    refine Nat.lt_of_not_le fun hle => ?_
    rw [List.getElem_toArray, List.getElem_append_right hle, hys _ (List.getElem_mem _)] at hin
    exact Bool.noConfusion hin
  | case2 low high h hlt middle _ hsize hin ih =>
    refine ih hlow ?_
    refine Nat.le_of_not_lt fun hlt => ?_
    rw [List.getElem_toArray, List.getElem_append_left hlt] at hin
    exact hin (hxs _ (List.getElem_mem _))
  | case3 low high h hge => exact Nat.le_antisymm hlow (Nat.le_trans hhigh (Nat.le_of_not_lt hge))

theorem boundary_append {inside : α → Bool} {xs ys : List α} (hxs : ∀ x ∈ xs, inside x = true)
    (hys : ∀ y ∈ ys, inside y = false) : boundary inside (xs ++ ys).toArray = xs.length :=
  search_append hxs hys _ (Nat.zero_le _) (by simp)

end SemanticHighlight.Bisection
