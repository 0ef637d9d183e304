import SemanticHighlight.Highlight.Document
import SemanticHighlight.Proofs.Checked

/-!
# Running attempts

The outcome of an attempt is a result or an error together with the session that it leaves. One
attempt after the other, or over a list, has an outcome exactly if each part has the right one in the
session that the parts before it left.
-/

namespace SemanticHighlight.Attempt

variable {World Grammar Query α β : Type} {s s' : Session World Grammar Query}

def outcome (x : Attempt World Grammar Query α) (s : Session World Grammar Query) :
    Except HighlightError α × Session World Grammar Query :=
  (ExceptT.run x).run s

@[simp] theorem outcome_pure (a : α) :
    (pure a : Attempt World Grammar Query α).outcome s = (.ok a, s) := rfl

@[simp] theorem outcome_throw (e : HighlightError) :
    (throw e : Attempt World Grammar Query α).outcome s = (.error e, s) := rfl

@[simp] theorem outcome_get :
    (get : Attempt World Grammar Query (Session World Grammar Query)).outcome s = (.ok s, s) := rfl

@[simp] theorem outcome_report (entries : Log) :
    (report entries : Attempt World Grammar Query Unit).outcome s =
      (.ok (), { s with log := s.log ++ entries }) := rfl

@[simp] theorem outcome_skip (entry : LogEntry) :
    (skip entry : Attempt World Grammar Query (Option α)).outcome s =
      (.ok none, { s with log := s.log ++ [entry] }) := rfl

@[simp] theorem outcome_lift (work : Work World Grammar Query α) :
    (liftM work : Attempt World Grammar Query α).outcome s = (.ok (work.run s).1, (work.run s).2) :=
  rfl

theorem outcome_checked (e : Except InvertedRange α) :
    (checked e : Attempt World Grammar Query α).outcome s = (e.mapError .inverted, s) := rfl

theorem checked_ok {e : Except InvertedRange α} {a : α} :
    (checked e : Attempt World Grammar Query α).outcome s = (.ok a, s') ↔ e = .ok a ∧ s = s' := by
  rw [outcome_checked]
  cases e with
  | error e => simp [mapError_error]
  | ok a => simp [mapError_ok]

theorem lift_ok {work : Work World Grammar Query α} {a : α} :
    (liftM work : Attempt World Grammar Query α).outcome s = (.ok a, s') ↔ work.run s = (a, s') := by
  rw [outcome_lift]
  constructor
  · intro h
    cases h
    rfl
  · intro h
    rw [h]

variable {x : Attempt World Grammar Query α} {f : α → Attempt World Grammar Query β}

theorem outcome_bind : (x >>= f).outcome s =
    match x.outcome s with
    | (.ok a, s₁) => (f a).outcome s₁
    | (.error e, s₁) => (.error e, s₁) := by
  simp only [outcome, ExceptT.run_bind, StateT.run_bind]
  rcases h : StateT.run (ExceptT.run x) s with ⟨_ | a, s₁⟩ <;> rfl

theorem bind_ok {b : β} : (x >>= f).outcome s = (.ok b, s') ↔
    ∃ a s₁, x.outcome s = (.ok a, s₁) ∧ (f a).outcome s₁ = (.ok b, s') := by
  rw [outcome_bind]
  rcases x.outcome s with ⟨_ | a, s₁⟩ <;> simp [and_assoc]

variable {xs : List α}

/-- Each result of a list comes from one of its elements, after the elements before it. -/
theorem mapM_ok_mem {ys : List β} (h : (xs.mapM f).outcome s = (.ok ys, s')) {y : β} (hy : y ∈ ys) :
    ∃ before x after zs s₁ s₂, xs = before ++ x :: after ∧
      (before.mapM f).outcome s = (.ok zs, s₁) ∧ (f x).outcome s₁ = (.ok y, s₂) := by
  induction xs generalizing s s' ys with
  | nil =>
    simp only [List.mapM_nil, outcome_pure, Prod.mk.injEq, Except.ok.injEq] at h
    rw [← h.1] at hy
    cases hy
  | cons x xs ih =>
    rw [List.mapM_cons] at h
    obtain ⟨z, s₁, hx, h⟩ := bind_ok.mp h
    obtain ⟨zs, s₂, hxs, h⟩ := bind_ok.mp h
    simp only [outcome_pure, Prod.mk.injEq, Except.ok.injEq] at h
    rw [← h.1] at hy
    rcases List.mem_cons.mp hy with rfl | hy
    · exact ⟨[], x, xs, [], s, s₁, rfl, rfl, hx⟩
    · obtain ⟨before, x', after, ws, t, t', rfl, hbefore, hx'⟩ := ih hxs hy
      refine ⟨x :: before, x', after, z :: ws, t, t', rfl, ?_, hx'⟩
      rw [List.mapM_cons]
      exact bind_ok.mpr ⟨z, s₁, hx, bind_ok.mpr ⟨ws, t, hbefore, rfl⟩⟩

/-- What holds of any two elements of a list carries over to their results. -/
theorem mapM_ok_pairwise {R : α → α → Prop} {S : β → β → Prop} {ys : List β}
    (h : (xs.mapM f).outcome s = (.ok ys, s')) (hxs : xs.Pairwise R)
    (hresults : ∀ x x' y y', R x x' → (∃ s₁ s₂, (f x).outcome s₁ = (.ok y, s₂)) →
      (∃ s₁ s₂, (f x').outcome s₁ = (.ok y', s₂)) → S y y') : ys.Pairwise S := by
  induction xs generalizing s s' ys with
  | nil =>
    simp only [List.mapM_nil, outcome_pure, Prod.mk.injEq, Except.ok.injEq] at h
    rw [← h.1]
    exact List.Pairwise.nil
  | cons x xs ih =>
    rw [List.mapM_cons] at h
    obtain ⟨z, s₁, hx, h⟩ := bind_ok.mp h
    obtain ⟨zs, s₂, hrest, h⟩ := bind_ok.mp h
    simp only [outcome_pure, Prod.mk.injEq, Except.ok.injEq] at h
    obtain ⟨hfirst, hpairs⟩ := List.pairwise_cons.mp hxs
    rw [← h.1, List.pairwise_cons]
    refine ⟨fun y hy => ?_, ih hrest hpairs⟩
    obtain ⟨before, x', after, _, t, t', rfl, -, hx'⟩ := mapM_ok_mem hrest hy
    have hmem : x' ∈ before ++ x' :: after := List.mem_append_right _ List.mem_cons_self
    exact hresults x x' z y (hfirst x' hmem) ⟨s, s₁, hx⟩ ⟨t, t', hx'⟩

end SemanticHighlight.Attempt
