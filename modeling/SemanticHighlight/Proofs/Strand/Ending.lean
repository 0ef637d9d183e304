import Mathlib.Data.List.Forall2
import SemanticHighlight.Proofs.Strand.Basic

/-!
# What strands end with

`Ends` says what is known of the result of a strand and of its error, given what is known of the states
that it meets and of the news. A turn of the strand does not change that (`Advance.ends`), whoever takes
turns in between, so the order of turns does not matter to it. It is shown for strands that are put
together from what is known of their parts; where each part comes to one thing, so does the whole.
-/

namespace SemanticHighlight

section Lists

variable {β γ : Type} {result : γ → Option β}

theorem mapM_of_forall₂ {xs : List γ} {ys : List β}
    (h : List.Forall₂ (fun x y => result x = some y) xs ys) : xs.mapM result = some ys := by
  induction h with
  | nil => rfl
  | cons hxy _ ih => simp [hxy, ih]

theorem mapM_eq_none_of_mem {xs : List γ} {x : γ} (hx : x ∈ xs) (h : result x = none) :
    xs.mapM result = none := by
  induction xs with
  | nil => cases hx
  | cons y ys ih =>
    rcases List.mem_cons.mp hx with rfl | hx
    · simp [h]
    · cases hy : result y <;> simp [hy, ih hx]

end Lists

namespace Strand

variable {State Key News Error α β γ : Type} {P : State → Prop} {known tells : Key → News → Prop}
  {gives gives' : α → Prop} {then_ : β → Prop} {fails fails' : Error → Prop}
  {x : Strand State Key News Error α} {f : α → Strand State Key News Error β} {s s' : State}
  {x' : Strand State Key News Error α} {strays : List (Stray State Key News Error)}

/-- From states with the property on and with news of this kind, a result and an error are as stated. -/
def Ends (P : State → Prop) (tells : Key → News → Prop) : {α : Type} →
    Strand State Key News Error α → (α → Prop) → (Error → Prop) → Prop
  | _, pure a, gives, _ => gives a
  | _, fail e, _, fails => fails e
  | _, act work next, gives, fails => ∀ s, P s → Ends P tells (next (work.run s).1) gives fails
  | _, await key next, gives, fails => ∀ news, tells key news → Ends P tells (next news) gives fails
  | _, @together _ _ _ _ _ β count children next, gives, fails =>
    ∃ parts : Fin count → β → Prop, (∀ i, Ends P tells (children i) (parts i) fails) ∧
      ∀ values, (∀ i, parts i (values i)) → Ends P tells (next values) gives fails

theorem Ends.imp (h : x.Ends P tells gives fails) (hgives : ∀ a, gives a → gives' a)
    (hfails : ∀ e, fails e → fails' e) : x.Ends P tells gives' fails' := by
  induction x with
  | pure a => exact hgives a h
  | fail e => exact hfails e h
  | act work next ih => exact fun s hs => ih _ (h s hs) hgives
  | await key next ih => exact fun news hnews => ih news (h news hnews) hgives
  | together count children next ihchildren ih =>
    obtain ⟨parts, hchildren, hnext⟩ := h
    refine ⟨parts, ?_, fun values hvalues => ih values (hnext values hvalues) hgives⟩
    exact fun i => ihchildren i (hchildren i) fun _ h => h

theorem ends_pure {a : α} (h : gives a) :
    (Pure.pure a : Strand State Key News Error α).Ends P tells gives fails := h

theorem ends_bind (hx : x.Ends P tells gives fails)
    (hf : ∀ a, gives a → (f a).Ends P tells then_ fails) :
    (x >>= f).Ends P tells then_ fails := by
  show (x.bind f).Ends P tells then_ fails
  induction x with
  | pure a => exact hf a hx
  | fail e => exact hx
  | act work next ih => exact fun s hs => ih _ (hx s hs) hf
  | await key next ih => exact fun news hnews => ih news (hx news hnews) hf
  | together count children next _ ih =>
    obtain ⟨parts, hchildren, hnext⟩ := hx
    exact ⟨parts, hchildren, fun values hvalues => ih values (hnext values hvalues) hf⟩

theorem ends_sync {x : ExceptT Error (StateM State) α}
    (h : ∀ s, P s → match (x.run.run s).1 with
      | .ok a => gives a
      | .error e => fails e) :
    (sync x : Strand State Key News Error α).Ends P tells gives fails := by
  intro s hs
  have hresult := h s hs
  cases hrun : (x.run.run s).1 with
  | ok a =>
    rw [hrun] at hresult
    exact hresult
  | error e =>
    rw [hrun] at hresult
    exact hresult

/-- Over a list, what is known of each element is known of the results one by one. -/
theorem ends_forAll {xs : List γ} {f : γ → Strand State Key News Error β} {each : γ → β → Prop}
    (h : ∀ x ∈ xs, (f x).Ends P tells (each x) fails) :
    (forAll xs f).Ends P tells (List.Forall₂ each xs) fails := by
  refine ⟨fun i => each xs[i], fun i => h _ (List.getElem_mem i.isLt), ?_⟩
  intro values hvalues
  refine List.forall₂_iff_get.mpr ⟨(List.length_ofFn).symm, ?_⟩
  intro i hi hi'
  simpa using hvalues ⟨i, hi⟩

/-- The strand has this result, or it fails if there is none. -/
def Comes (P : State → Prop) (tells : Key → News → Prop) (x : Strand State Key News Error α)
    (result : Option α) : Prop :=
  x.Ends P tells (fun a => result = some a) fun _ => result = none

/-- There is one result that the strand can come to, or it can only fail. -/
def Decided (P : State → Prop) (tells : Key → News → Prop) (x : Strand State Key News Error α) : Prop :=
  ∃ result, x.Comes P tells result

theorem decided_pure (a : α) : (Pure.pure a : Strand State Key News Error α).Decided P tells :=
  ⟨some a, rfl⟩

theorem decided_fail (e : Error) : (fail e : Strand State Key News Error α).Decided P tells :=
  ⟨none, rfl⟩

theorem comes_bind_of_some {a : α} {result : Option β} (hx : x.Comes P tells (some a))
    (hf : (f a).Comes P tells result) : (x >>= f).Comes P tells result := by
  apply ends_bind (hx.imp (fun _ h => h) fun _ h => nomatch h)
  rintro b ⟨⟩
  exact hf

theorem comes_bind_of_none (hx : x.Comes P tells none) :
    (x >>= f).Comes P tells (none : Option β) :=
  ends_bind (hx.imp (fun _ h => h) fun _ _ => rfl) fun _ h => nomatch h

theorem decided_bind (hx : x.Decided P tells) (hf : ∀ a, (f a).Decided P tells) :
    (x >>= f).Decided P tells := by
  obtain ⟨result, hresult⟩ := hx
  cases result with
  | none => exact ⟨none, comes_bind_of_none hresult⟩
  | some a =>
    obtain ⟨result, hnext⟩ := hf a
    exact ⟨result, comes_bind_of_some hresult hnext⟩

theorem decided_sync {x : ExceptT Error (StateM State) α} {result : Except Error α}
    (h : ∀ s, P s → (x.run.run s).1 = result) :
    (sync x : Strand State Key News Error α).Decided P tells := by
  refine ⟨result.toOption, ends_sync fun s hs => ?_⟩
  rw [h s hs]
  cases result <;> rfl

theorem decided_of_ends (h : x.Ends P tells gives fails) (hunique : ∀ a b, gives a → gives b → a = b)
    (hapart : ∀ a e, gives a → ¬ fails e) : x.Decided P tells := by
  by_cases hsome : ∃ a, gives a
  · obtain ⟨a, ha⟩ := hsome
    refine ⟨some a, h.imp (fun b hb => congrArg some (hunique a b ha hb)) ?_⟩
    exact fun e he => absurd he (hapart a e ha)
  · exact ⟨none, h.imp (fun b hb => absurd ⟨b, hb⟩ hsome) fun _ _ => rfl⟩

/-- Strands that take turns come to what they come to one after the other. -/
theorem decided_forAll {xs : List γ} {f : γ → Strand State Key News Error β}
    (h : ∀ x, (f x).Decided P tells) : (forAll xs f).Decided P tells := by
  choose result hresult using h
  have hall : (forAll xs f).Ends P tells (List.Forall₂ (fun x b => result x = some b) xs)
      fun _ => xs.mapM result = none := by
    apply ends_forAll
    intro x hx
    exact (hresult x).imp (fun _ hb => hb) fun _ hnone => mapM_eq_none_of_mem hx hnone
  exact ⟨xs.mapM result, hall.imp (fun _ hbs => mapM_of_forall₂ hbs) fun _ hnone => hnone⟩

/-- A turn changes nothing about what a strand ends with. -/
theorem Advance.ends (h : Advance known s x s' x' strays) (hs : P s)
    (hknown : ∀ key news, known key news → tells key news) (hx : x.Ends P tells gives fails) :
    x'.Ends P tells gives fails := by
  induction h with
  | act => exact hx _ hs
  | await hnews => exact hx _ (hknown _ _ hnews)
  | @child _ _ _ _ _ children _ i child _ _ ih =>
    obtain ⟨parts, hchildren, hnext⟩ := hx
    refine ⟨parts, ?_, hnext⟩
    intro j
    by_cases hj : j = i
    · subst hj
      simpa using ih hs (hchildren j)
    · simpa [hj] using hchildren j
  | join hvalues =>
    obtain ⟨parts, hchildren, hnext⟩ := hx
    apply hnext
    intro i
    have hchild := hchildren i
    rw [hvalues i] at hchild
    exact hchild
  | @fall _ _ _ _ _ _ i _ hfail =>
    obtain ⟨parts, hchildren, -⟩ := hx
    have hchild := hchildren i
    rw [hfail] at hchild
    exact hchild

end Strand

end SemanticHighlight
