import SemanticHighlight.Config.Comparison
import SemanticHighlight.Proofs.Checked

/-!
# Where comparisons end

In a document in which nothing contains itself every value has a depth, and a comparison that may go
deeper than that comes to its end. Equality is then always decided. An order may be missing, but no
comparison and no sorting goes on for ever, so it is always known whether a list holds something twice
(`hasRepeats_total`).
-/

namespace SemanticHighlight

namespace Value

variable {v name : Value}

theorem depth_le_depthOfItems {items : List Value} (h : v ∈ items) : v.depth ≤ depthOfItems items := by
  induction items with
  | nil => exact absurd h List.not_mem_nil
  | cons x rest ih =>
    rw [depthOfItems]
    rcases List.mem_cons.mp h with rfl | h
    · exact Nat.le_max_left _ _
    · exact Nat.le_trans (ih h) (Nat.le_max_right _ _)

theorem depth_le_depthOfEntries {entries : List (Value × Value)} (h : (name, v) ∈ entries) :
    v.depth ≤ depthOfEntries entries := by
  induction entries with
  | nil => exact absurd h List.not_mem_nil
  | cons entry rest ih =>
    obtain ⟨n, x⟩ := entry
    rw [depthOfEntries]
    rcases List.mem_cons.mp h with h | h
    · cases h
      exact Nat.le_max_left _ _
    · exact Nat.le_trans (ih h) (Nat.le_max_right _ _)

theorem depth_lt_of_mem_row {v x : Value} {xs : List Value} (hrow : v.row? = some xs) (hx : x ∈ xs) :
    x.depth < v.depth := by
  cases v with
  | list items =>
    cases hrow
    exact Nat.lt_succ_of_le (depth_le_depthOfItems hx)
  | pair a b =>
    cases hrow
    rw [depth]
    rcases List.mem_cons.mp hx with rfl | hx
    · omega
    · cases List.mem_singleton.mp hx
      omega
  | bytes b =>
    cases hrow
    obtain ⟨byte, -, rfl⟩ := List.mem_map.mp hx
    simp [depth]
  | _ => cases hrow

theorem depth_lt_of_mem_table {x : Value} {entries : List (Value × Value)} (h : (name, x) ∈ entries) :
    x.depth < (table entries).depth :=
  Nat.lt_succ_of_le (depth_le_depthOfEntries h)

end Value

namespace Comparing

variable {α : Type} {x : Comparing α}

theorem allM_total {p : α → Comparing Bool} {xs : List α} (h : ∀ x ∈ xs, ∃ b, p x = .ok b) :
    ∃ b, xs.allM p = .ok b := by
  induction xs with
  | nil => exact ⟨true, rfl⟩
  | cons x xs ih =>
    obtain ⟨b, hb⟩ := h x List.mem_cons_self
    rw [List.allM, hb]
    cases b with
    | true => exact ih fun y hy => h y (List.mem_cons_of_mem x hy)
    | false => exact ⟨false, rfl⟩

theorem anyM_total {p : α → Comparing Bool} {xs : List α} (h : ∀ x ∈ xs, ∃ b, p x = .ok b) :
    ∃ b, xs.anyM p = .ok b := by
  induction xs with
  | nil => exact ⟨false, rfl⟩
  | cons x xs ih =>
    obtain ⟨b, hb⟩ := h x List.mem_cons_self
    rw [List.anyM, hb]
    cases b with
    | true => exact ⟨true, rfl⟩
    | false => exact ih fun y hy => h y (List.mem_cons_of_mem x hy)

variable {equal : Value → Value → Comparing Bool}

theorem sameRow_total {xs ys : List Value} (h : ∀ x ∈ xs, ∀ y, ∃ r, equal x y = .ok r) :
    ∃ r, sameRow equal xs ys = .ok r := by
  unfold sameRow
  split
  · exact ⟨false, rfl⟩
  · exact allM_total fun p hp => h p.1 (List.of_mem_zip hp).1 p.2

theorem sameTable_total {xs ys : List (Value × Value)}
    (h : ∀ e ∈ xs, ∀ y, ∃ r, equal e.2 y = .ok r) : ∃ r, sameTable equal xs ys = .ok r := by
  unfold sameTable
  split
  · exact ⟨false, rfl⟩
  · refine allM_total fun e he => ?_
    dsimp only
    split
    · exact h e he _
    · exact ⟨false, rfl⟩

/-! ## Sorting ends -/

/-- The comparison comes to its end, with an answer or without. -/
def Ends (x : Comparing α) : Prop := x ≠ .error .endless

theorem Ends.ok (a : α) : Ends (.ok a) := by simp [Ends]

theorem Ends.incomparable : Ends (.error .incomparable : Comparing α) := by simp [Ends]

theorem Ends.bind {β : Type} {f : α → Comparing β} (hx : x.Ends) (hf : ∀ a, (f a).Ends) :
    (x >>= f).Ends := by
  intro h
  rcases bind_eq_error.mp h with h | ⟨a, -, h⟩
  · exact hx h
  · exact hf a h

variable {less : Value → Value → Comparing Bool}

theorem takeRun_ends (hless : ∀ a b, (less a b).Ends) (down : Bool) (last : Value)
    (run rest : List Value) : (takeRun less down last run rest).Ends := by
  induction rest generalizing last run with
  | nil => exact .ok _
  | cons x rest ih =>
    rw [takeRun]
    refine (hless x last).bind fun b => ?_
    split
    · exact ih x (x :: run)
    · exact .ok _

theorem placeOf_ends (hless : ∀ a b, (less a b).Ends) (x : Value) (xs : Array Value)
    (fuel low high : Nat) : (placeOf less x xs fuel low high).Ends := by
  induction fuel generalizing low high with
  | zero => exact .ok low
  | succ fuel ih =>
    rw [placeOf]
    split
    · refine (hless _ _).bind fun b => ?_
      cases b with
      | true => exact ih _ _
      | false => exact ih _ _
    · exact .ok low

theorem foldlM_ends {β : Type} {f : β → α → Comparing β} (hf : ∀ b a, (f b a).Ends) (b : β)
    (xs : List α) : Ends (xs.foldlM f b) := by
  induction xs generalizing b with
  | nil => exact .ok b
  | cons x xs ih => exact (hf b x).bind fun b => ih b

theorem sort_ends (hless : ∀ a b, (less a b).Ends) (xs : List Value) : (sort less xs).Ends := by
  match xs with
  | [] => exact .ok []
  | [x] => exact .ok [x]
  | x :: y :: rest =>
    rw [sort]
    refine (hless y x).bind fun down => (takeRun_ends hless down y [y, x] rest).bind fun taken => ?_
    refine Ends.bind (foldlM_ends (fun xs x => ?_) _ _) fun sorted => .ok _
    exact (placeOf_ends hless x xs _ _ _).bind fun place => .ok _

theorem lessRow_ends {xs : List Value} (hequal : ∀ x ∈ xs, ∀ y, ∃ r, equal x y = .ok r)
    (hless : ∀ x ∈ xs, ∀ y, (less x y).Ends) (ys : List Value) : (lessRow equal less xs ys).Ends := by
  induction xs generalizing ys with
  | nil =>
    cases ys with
    | nil => exact .ok false
    | cons y ys => exact .ok true
  | cons x xs ih =>
    cases ys with
    | nil => exact .ok false
    | cons y ys =>
      obtain ⟨same, hsame⟩ := hequal x List.mem_cons_self y
      rw [lessRow, hsame]
      cases same with
      | true =>
        exact ih (fun z hz => hequal z (List.mem_cons_of_mem x hz))
          (fun z hz => hless z (List.mem_cons_of_mem x hz)) ys
      | false => exact hless x List.mem_cons_self y

end Comparing

theorem Value.isLess_ends (a b : Value) : (a.isLess b).Ends := by
  unfold Value.isLess
  split
  · exact .ok _
  · exact .ok _
  · exact .ok _
  · split
    · exact .ok _
    · exact .incomparable
  · exact .ok _
  · split
    · exact .ok _
    · exact .incomparable

namespace Content

variable {c : Content} {n : Nat} {a b : Value}

theorem view_of_knots (hc : c.knots = []) (v : Value) : c.view v = v := by
  cases v with
  | knot brackets number => simp [view, hc]
  | _ => rfl

theorem looselyEqual_total (hc : c.knots = []) (h : a.depth < n) :
    ∃ r, c.looselyEqual n a b = .ok r := by
  induction n generalizing a b with
  | zero => exact absurd h (Nat.not_lt_zero _)
  | succ n ih =>
    have hrow : ∀ xs ys, a.row? = some xs → ∃ r, Comparing.sameRow (c.looselyEqual n) xs ys = .ok r :=
      fun xs ys hxs => Comparing.sameRow_total fun x hx y =>
        ih (Nat.lt_of_lt_of_le (Value.depth_lt_of_mem_row hxs hx) (Nat.le_of_lt_succ h))
    unfold looselyEqual
    split
    · exact ⟨true, rfl⟩
    · rw [view_of_knots hc, view_of_knots hc]
      split
      · exact hrow _ _ rfl
      · exact hrow _ _ rfl
      · refine Comparing.sameTable_total fun e he y => ih ?_
        exact Nat.lt_of_lt_of_le (Value.depth_lt_of_mem_table he) (Nat.le_of_lt_succ h)
      · exact ⟨_, rfl⟩
      · exact ⟨_, rfl⟩

theorem strictlyEqual_total (hc : c.knots = []) (h : a.depth + 1 < n) :
    ∃ r, c.strictlyEqual n a b = .ok r := by
  induction n generalizing a b with
  | zero => exact absurd h (Nat.not_lt_zero _)
  | succ n ih =>
    have hlt : a.depth < n := Nat.lt_of_succ_lt_succ h
    unfold strictlyEqual
    split
    · exact ⟨true, rfl⟩
    · rw [view_of_knots hc, view_of_knots hc]
      split
      · exact ⟨_, rfl⟩
      · exact ⟨false, rfl⟩
      · exact ⟨false, rfl⟩
      · refine Comparing.sameTable_total fun e he y => ih ?_
        have hdepth := Value.depth_lt_of_mem_table he
        omega
      · split
        · next xs ys hxs hys =>
          refine Comparing.sameRow_total fun x hx y => ih ?_
          have hdepth := Value.depth_lt_of_mem_row hxs hx
          omega
        · exact looselyEqual_total hc hlt

theorem isLess_ends (hc : c.knots = []) (h : a.depth < n) : (c.isLess n a b).Ends := by
  induction n generalizing a b with
  | zero => exact absurd h (Nat.not_lt_zero _)
  | succ n ih =>
    have hrow : ∀ xs ys, a.row? = some xs →
        (Comparing.lessRow (c.looselyEqual n) (c.isLess n) xs ys).Ends := by
      intro xs ys hxs
      have hlt : ∀ x ∈ xs, x.depth < n := fun x hx =>
        Nat.lt_of_lt_of_le (Value.depth_lt_of_mem_row hxs hx) (Nat.le_of_lt_succ h)
      exact Comparing.lessRow_ends (fun x hx y => looselyEqual_total hc (hlt x hx))
        (fun x hx y => ih (hlt x hx)) ys
    unfold isLess
    dsimp only
    rw [view_of_knots hc, view_of_knots hc]
    split
    · exact hrow _ _ rfl
    · exact hrow _ _ rfl
    · exact Value.isLess_ends _ _

/-! ## Lists that may hold something twice -/

theorem reach_of_knots (hc : c.knots = []) (v : Value) : c.reach v = v.depth + 2 := by
  simp [reach, hc]

theorem isLessItem_ends (hc : c.knots = []) (a b : Value) : (c.isLessItem a b).Ends := by
  unfold isLessItem
  split
  · exact .incomparable
  · rw [reach_of_knots hc]
    exact isLess_ends hc (by omega)

theorem equalItems_total (hc : c.knots = []) (a b : Value) :
    ∃ r, c.strictlyEqual (c.reach a) a b = .ok r := by
  rw [reach_of_knots hc]
  exact strictlyEqual_total hc (Nat.lt_succ_self _)

theorem hasEqualPair_total (hc : c.knots = []) (before xs : List Value) :
    ∃ r, c.hasEqualPair before xs = .ok r := by
  induction xs generalizing before with
  | nil => exact ⟨false, rfl⟩
  | cons x rest ih =>
    have hknown : ∃ r, before.anyM (fun y => c.strictlyEqual (c.reach y) y x) = .ok r :=
      Comparing.anyM_total fun y _ => equalItems_total hc y x
    obtain ⟨found, hfound⟩ := hknown
    rw [hasEqualPair, hfound]
    cases found with
    | true => exact ⟨true, rfl⟩
    | false => exact ih (before ++ [x])

/-- It is always known whether a list holds something twice. -/
theorem hasRepeats_total (hc : c.knots = []) (xs : List Value) : ∃ r, c.hasRepeats xs = .ok r := by
  unfold hasRepeats
  split
  · exact Comparing.anyM_total fun p _ => equalItems_total hc p.1 p.2
  · exact hasEqualPair_total hc [] xs
  · next h => exact absurd h (Comparing.sort_ends (isLessItem_ends hc) xs)

end Content

end SemanticHighlight
