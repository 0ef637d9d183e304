import SemanticHighlight.Proofs.Strand.Basic

/-!
# How strands behave

A strand behaves if each of its turns keeps a property of states, whatever it met before, and if its
parts begin to wait only for news that the turn before has asked for. A turn leaves a strand, and
strays, that behave as well (`Advance.behaves`).
-/

namespace SemanticHighlight.Strand

variable {State Key News Error α β γ : Type} {P : State → Prop} {asked : State → Key → Prop}
  {known : Key → News → Prop} {x x' : Strand State Key News Error α}
  {f : α → Strand State Key News Error β} {s s' : State}
  {strays : List (Stray State Key News Error)}

/-- A part of the strand waits for this news now. -/
def Awaits : {α : Type} → Strand State Key News Error α → Key → Prop
  | _, await key _, k => k = key
  | _, together _ children _, k => ∃ i, Awaits (children i) k
  | _, _, _ => False

def Behaves (P : State → Prop) (asked : State → Key → Prop) :
    {α : Type} → Strand State Key News Error α → Prop
  | _, pure _ => True
  | _, fail _ => True
  | _, act work next => ∀ s, (P s → P (work.run s).2) ∧
      (∀ key, (next (work.run s).1).Awaits key → asked (work.run s).2 key) ∧
      Behaves P asked (next (work.run s).1)
  | _, await _ next => ∀ news, (∀ key, ¬ (next news).Awaits key) ∧ Behaves P asked (next news)
  | _, together _ children next => (∀ i, Behaves P asked (children i)) ∧
      ∀ values, (∀ key, ¬ (next values).Awaits key) ∧ Behaves P asked (next values)

theorem awaits_bind (hnone : ∀ a key, ¬ (f a).Awaits key) {key : Key}
    (h : (x.bind f).Awaits key) : x.Awaits key := by
  cases x with
  | pure a => exact absurd h (hnone a key)
  | _ => exact h

theorem behaves_bind (hx : x.Behaves P asked) (hnone : ∀ a key, ¬ (f a).Awaits key)
    (hf : ∀ a, (f a).Behaves P asked) : (x >>= f).Behaves P asked := by
  show (x.bind f).Behaves P asked
  induction x with
  | pure a => exact hf a
  | fail e => exact trivial
  | act work next ih =>
    intro s
    obtain ⟨hstate, hawaits, hnext⟩ := hx s
    exact ⟨hstate, fun key hkey => hawaits key (awaits_bind hnone hkey), ih _ hnext hnone hf⟩
  | await key next ih =>
    intro news
    obtain ⟨hawaits, hnext⟩ := hx news
    exact ⟨fun key hkey => hawaits key (awaits_bind hnone hkey), ih _ hnext hnone hf⟩
  | together count children next _ ih =>
    refine ⟨hx.1, fun values => ?_⟩
    obtain ⟨hawaits, hnext⟩ := hx.2 values
    exact ⟨fun key hkey => hawaits key (awaits_bind hnone hkey), ih _ hnext hnone hf⟩

theorem behaves_sync {x : ExceptT Error (StateM State) α} (h : ∀ s, P s → P (x.run.run s).2) :
    (sync x : Strand State Key News Error α).Behaves P asked := by
  intro s
  refine ⟨h s, ?_⟩
  cases (x.run.run s).1 <;> exact ⟨fun _ => False.elim, trivial⟩

/-- After work that is done at one go, a strand may wait for what that work has asked for. -/
theorem behaves_sync_bind {x : ExceptT Error (StateM State) α} (h : ∀ s, P s → P (x.run.run s).2)
    (hf : ∀ s a, (x.run.run s).1 = .ok a →
      (∀ key, (f a).Awaits key → asked (x.run.run s).2 key) ∧ (f a).Behaves P asked) :
    (sync x >>= f).Behaves P asked := by
  intro s
  refine ⟨h s, ?_⟩
  show (∀ key, (Strand.bind _ f).Awaits key → asked (x.run.run s).2 key) ∧
    (Strand.bind _ f).Behaves P asked
  cases hrun : (x.run.run s).1 with
  | ok a => exact hf s a hrun
  | error e => exact ⟨fun _ => False.elim, trivial⟩

theorem behaves_forAll {xs : List γ} {f : γ → Strand State Key News Error β}
    (h : ∀ x ∈ xs, (f x).Behaves P asked) : (forAll xs f).Behaves P asked :=
  ⟨fun i => h _ (List.getElem_mem i.isLt), fun _ => ⟨fun _ => id, trivial⟩⟩

/-- After a turn, what is waited for was waited for before or has been asked for. -/
theorem Advance.behaves (h : Advance known s x s' x' strays) (hx : x.Behaves P asked) :
    (P s → P s') ∧
      (x'.Behaves P asked ∧ ∀ key, x'.Awaits key → x.Awaits key ∨ asked s' key) ∧
      ∀ stray ∈ strays, stray.2.Behaves P asked ∧
        ∀ key, stray.2.Awaits key → x.Awaits key ∨ asked s' key := by
  induction h with
  | act =>
    obtain ⟨hstate, hawaits, hnext⟩ := hx _
    exact ⟨hstate, ⟨hnext, fun key hkey => Or.inr (hawaits key hkey)⟩, by simp⟩
  | await =>
    obtain ⟨hawaits, hnext⟩ := hx _
    exact ⟨id, ⟨hnext, fun key hkey => absurd hkey (hawaits key)⟩, by simp⟩
  | @child _ _ _ _ _ children _ i child _ _ ih =>
    obtain ⟨hstate, ⟨hchild, hawaits⟩, hstrays⟩ := ih (hx.1 i)
    refine ⟨hstate, ⟨⟨?_, hx.2⟩, ?_⟩, ?_⟩
    · intro j
      by_cases hj : j = i
      · subst hj
        simpa using hchild
      · simpa [hj] using hx.1 j
    · rintro key ⟨j, hkey⟩
      by_cases hj : j = i
      · subst hj
        rw [Function.update_self] at hkey
        exact (hawaits key hkey).imp_left fun h => ⟨j, h⟩
      · rw [Function.update_of_ne hj] at hkey
        exact Or.inl ⟨j, hkey⟩
    · intro stray hstray
      refine ⟨(hstrays stray hstray).1, fun key hkey => ?_⟩
      exact ((hstrays stray hstray).2 key hkey).imp_left fun h => ⟨i, h⟩
  | join =>
    obtain ⟨hawaits, hnext⟩ := hx.2 _
    exact ⟨id, ⟨hnext, fun key hkey => absurd hkey (hawaits key)⟩, by simp⟩
  | @fall _ _ _ _ children _ _ _ _ =>
    refine ⟨id, ⟨trivial, fun _ => False.elim⟩, ?_⟩
    intro stray hstray
    obtain ⟨j, rfl⟩ := (List.mem_ofFn' _ _).mp hstray
    exact ⟨hx.1 j, fun key hkey => Or.inl ⟨j, hkey⟩⟩

end SemanticHighlight.Strand
