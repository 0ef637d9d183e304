import SemanticHighlight.Proofs.Highlight.Agreement

/-!
# What attempts end with

`Ends` says of all runs from sessions of one kind that the session stays of that kind, and what is
known of a result and of an error. `Couples` compares two attempts from sessions of that kind: they
fail in the same way or have results that go together. Both are shown for attempts that are put
together, one after the other or over a list, from what is known of their parts.
-/

namespace SemanticHighlight.Attempt

variable {World Grammar Query α β γ : Type} {P : Session World Grammar Query → Prop}
  {gives gives' : α → Prop} {then_ : β → Prop} {fails fails' : HighlightError → Prop}
  {x : Attempt World Grammar Query α} {f : α → Attempt World Grammar Query β}

/-- A result has one property, an error another. -/
def Meets (gives : α → Prop) (fails : HighlightError → Prop) : Except HighlightError α → Prop
  | .ok a => gives a
  | .error e => fails e

/-- Every run from a session of this kind ends as stated, in a session of this kind. -/
def Ends (P : Session World Grammar Query → Prop) (x : Attempt World Grammar Query α)
    (gives : α → Prop) (fails : HighlightError → Prop) : Prop :=
  ∀ s, P s → Meets gives fails (x.outcome s).1 ∧ P (x.outcome s).2

theorem Meets.imp {result : Except HighlightError α} (h : Meets gives fails result)
    (hgives : ∀ a, gives a → gives' a) (hfails : ∀ e, fails e → fails' e) :
    Meets gives' fails' result := by
  cases result with
  | ok a => exact hgives a h
  | error e => exact hfails e h

theorem Ends.imp (h : Ends P x gives fails) (hgives : ∀ a, gives a → gives' a)
    (hfails : ∀ e, fails e → fails' e) : Ends P x gives' fails' :=
  fun s hs => ⟨(h s hs).1.imp hgives hfails, (h s hs).2⟩

theorem ends_pure {a : α} (h : gives a) : Ends P (pure a) gives fails := fun _ hs => ⟨h, hs⟩

theorem ends_throw {e : HighlightError} (h : fails e) :
    Ends P (throw e : Attempt World Grammar Query α) gives fails := fun _ hs => ⟨h, hs⟩

theorem ends_checked {e : Except InvertedRange α} (hok : ∀ a, e = .ok a → gives a)
    (herror : ∀ r, e = .error r → fails (.inverted r)) : Ends P (checked e) gives fails := by
  intro s hs
  refine ⟨?_, hs⟩
  cases he : e with
  | ok a => exact hok a he
  | error r => exact herror r he

theorem ends_lift {work : Work World Grammar Query α}
    (h : ∀ s, P s → gives (work.run s).1 ∧ P (work.run s).2) : Ends P (liftM work) gives fails := h

theorem ends_bind (hx : Ends P x gives fails) (hf : ∀ a, gives a → Ends P (f a) then_ fails) :
    Ends P (x >>= f) then_ fails := by
  intro s hs
  have hended := hx s hs
  rw [outcome_bind]
  rcases hrun : x.outcome s with ⟨e | a, s₁⟩
  · rw [hrun] at hended
    exact hended
  · rw [hrun] at hended
    exact hf a hended.1 s₁ hended.2

theorem ends_get_bind {f : Session World Grammar Query → Attempt World Grammar Query β}
    (hf : ∀ s, P s → Ends P (f s) then_ fails) : Ends P (get >>= f) then_ fails := by
  intro s hs
  rw [outcome_bind, outcome_get]
  exact hf s hs s hs

theorem ends_mapM {Q : α → Prop} {xs : List α}
    (hf : ∀ a ∈ xs, Ends P (f a) (fun _ => Q a) fails) :
    Ends P (xs.mapM f) (fun _ => ∀ a ∈ xs, Q a) fails := by
  induction xs with
  | nil =>
    apply ends_pure
    intro a ha
    cases ha
  | cons x xs ih =>
    rw [List.mapM_cons]
    refine ends_bind (hf x List.mem_cons_self) fun b hx => ?_
    refine ends_bind (ih fun a ha => hf a (List.mem_cons_of_mem x ha)) fun bs hxs => ?_
    exact ends_pure (List.forall_mem_cons.mpr ⟨hx, hxs⟩)

/-! ## Two attempts -/

/-- Two results go together, two errors are the same. -/
def Pairs (Q : α → β → Prop) : Except HighlightError α → Except HighlightError β → Prop
  | .ok a, .ok b => Q a b
  | .error e, .error e' => e = e'
  | _, _ => False

/-- From any two sessions of this kind, both attempts end alike, in sessions of this kind. -/
def Couples (P : Session World Grammar Query → Prop) (x : Attempt World Grammar Query α)
    (y : Attempt World Grammar Query β) (Q : α → β → Prop) : Prop :=
  ∀ s s', P s → P s' → Pairs Q (x.outcome s).1 (y.outcome s').1 ∧ P (x.outcome s).2 ∧
    P (y.outcome s').2

variable {Q : α → β → Prop} {y : Attempt World Grammar Query β}

theorem pairs_eq {result result' : Except HighlightError α} :
    Pairs (fun a b => a = b) result result' ↔ result = result' := by
  cases result <;> cases result' <;> simp [Pairs]

theorem couples_pure {a : α} {b : β} (h : Q a b) : Couples P (pure a) (pure b) Q :=
  fun _ _ hs hs' => ⟨h, hs, hs'⟩

theorem couples_throw (e : HighlightError) :
    Couples P (throw e : Attempt World Grammar Query α) (throw e) Q :=
  fun _ _ hs hs' => ⟨rfl, hs, hs'⟩

theorem couples_of_agrees (h : Agrees (fun s s' => P s ∧ P s') x) :
    Couples P x x fun a b => a = b := by
  intro s s' hs hs'
  obtain ⟨hresult, hafter, hafter'⟩ := h s s' ⟨hs, hs'⟩
  exact ⟨pairs_eq.mpr hresult, hafter, hafter'⟩

theorem couples_bind {γ' : Type} {then_ : γ → γ' → Prop} {f : α → Attempt World Grammar Query γ}
    {g : β → Attempt World Grammar Query γ'} (hxy : Couples P x y Q)
    (hfg : ∀ a b, Q a b → Couples P (f a) (g b) then_) :
    Couples P (x >>= f) (y >>= g) then_ := by
  intro s s' hs hs'
  obtain ⟨hpairs, hafter, hafter'⟩ := hxy s s' hs hs'
  rw [outcome_bind, outcome_bind]
  generalize x.outcome s = first at hpairs hafter
  generalize y.outcome s' = second at hpairs hafter'
  match first, second, hpairs with
  | (.ok a, s₁), (.ok b, s₂), hQ => exact hfg a b hQ s₁ s₂ hafter hafter'
  | (.error e, s₁), (.error e', s₂), heq => exact ⟨heq, hafter, hafter'⟩

theorem couples_get_bind {f : Session World Grammar Query → Attempt World Grammar Query α}
    {g : Session World Grammar Query → Attempt World Grammar Query β}
    (hsame : ∀ s s', P s → P s' → g s = g s') (hfg : ∀ s, P s → Couples P (f s) (g s) Q) :
    Couples P (get >>= f) (get >>= g) Q := by
  intro s s' hs hs'
  rw [outcome_bind, outcome_bind, outcome_get, outcome_get]
  dsimp only
  rw [← hsame s s' hs hs']
  exact hfg s hs s s' hs hs'

/-- An attempt that does not fail may come first on one side alone. -/
theorem couples_of_ends {then_ : γ → β → Prop} {f : α → Attempt World Grammar Query γ}
    (hx : Ends P x gives fun _ => False) (hf : ∀ a, gives a → Couples P (f a) y then_) :
    Couples P (x >>= f) y then_ := by
  intro s s' hs hs'
  have hended := hx s hs
  rw [outcome_bind]
  rcases hrun : x.outcome s with ⟨e | a, s₁⟩
  · rw [hrun] at hended
    exact hended.1.elim
  · rw [hrun] at hended
    exact hf a hended.1 s₁ s' hended.2 hs'

/-- Over a list, elements may be left out on one side if what they give does not count. -/
theorem couples_mapM_filter {f g : α → Attempt World Grammar Query β} {counts : β → Option γ}
    {keep : α → Bool} {xs : List α}
    (hkeep : ∀ a ∈ xs, keep a = true → Couples P (f a) (g a) fun b c => b = c)
    (hdrop : ∀ a ∈ xs, keep a = false → Ends P (f a) (fun b => counts b = none) fun _ => False) :
    Couples P (xs.mapM f) ((xs.filter keep).mapM g) fun bs cs =>
      bs.filterMap counts = cs.filterMap counts := by
  induction xs with
  | nil => exact couples_pure rfl
  | cons x xs ih =>
    have hrest := ih (fun a ha => hkeep a (List.mem_cons_of_mem x ha))
      fun a ha => hdrop a (List.mem_cons_of_mem x ha)
    rw [List.mapM_cons]
    cases hx : keep x with
    | false =>
      rw [List.filter_cons_of_neg (by simp [hx])]
      refine couples_of_ends (hdrop x List.mem_cons_self hx) fun b hb => ?_
      rw [← bind_pure ((xs.filter keep).mapM g)]
      refine couples_bind hrest fun bs cs h => couples_pure ?_
      rw [List.filterMap_cons_none hb, h]
    | true =>
      rw [List.filter_cons_of_pos hx, List.mapM_cons]
      refine couples_bind (hkeep x List.mem_cons_self hx) ?_
      rintro b _ rfl
      refine couples_bind hrest fun bs cs h => couples_pure ?_
      rw [List.filterMap_cons, List.filterMap_cons, h]

end SemanticHighlight.Attempt
