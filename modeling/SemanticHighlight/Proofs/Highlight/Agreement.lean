import SemanticHighlight.Proofs.Highlight.Visit

/-!
# Sessions that cannot be told apart

An attempt agrees on a relation between sessions if it comes to the same in related sessions and
leaves related sessions behind. Attempts that agree can be put together, one after the other or over
a list. Of the session, highlighting asks which languages are configured, and it asks for languages;
so it agrees on every relation on which these two do (`Indistinct.highlight`).
-/

namespace SemanticHighlight

variable {World Grammar Query α β : Type}
  {R : Session World Grammar Query → Session World Grammar Query → Prop}

namespace Attempt

/-- Related sessions give the same result and stay related. -/
def Agrees (R : Session World Grammar Query → Session World Grammar Query → Prop)
    (x : Attempt World Grammar Query α) : Prop :=
  ∀ s s', R s s' → (x.outcome s).1 = (x.outcome s').1 ∧ R (x.outcome s).2 (x.outcome s').2

theorem agrees_pure (a : α) : Agrees R (pure a) := fun _ _ h => ⟨rfl, h⟩

theorem agrees_throw (e : HighlightError) :
    Agrees R (throw e : Attempt World Grammar Query α) := fun _ _ h => ⟨rfl, h⟩

theorem agrees_throw_bind (e : HighlightError) (f : α → Attempt World Grammar Query β) :
    Agrees R (throw e >>= f) := fun _ _ h => ⟨rfl, h⟩

theorem agrees_checked (e : Except InvertedRange α) : Agrees R (checked e) := fun _ _ h => ⟨rfl, h⟩

theorem agrees_get_bind {f : Session World Grammar Query → Attempt World Grammar Query β}
    (hsame : ∀ s s', R s s' → f s = f s') (hf : ∀ s, Agrees R (f s)) : Agrees R (get >>= f) := by
  intro s s' hs
  rw [outcome_bind, outcome_bind, outcome_get, outcome_get]
  dsimp only
  rw [← hsame s s' hs]
  exact hf s s s' hs

variable {x : Attempt World Grammar Query α} {f : α → Attempt World Grammar Query β}

theorem agrees_bind (hx : Agrees R x) (hf : ∀ a, Agrees R (f a)) : Agrees R (x >>= f) := by
  intro s s' hs
  obtain ⟨hresult, hafter⟩ := hx s s' hs
  rw [outcome_bind, outcome_bind]
  generalize x.outcome s = first at hresult hafter
  generalize x.outcome s' = second at hresult hafter
  obtain ⟨result, s₁⟩ := first
  obtain ⟨result', s₂⟩ := second
  cases hresult
  cases result with
  | error e => exact ⟨rfl, hafter⟩
  | ok a => exact hf a s₁ s₂ hafter

theorem agrees_mapM (hf : ∀ a, Agrees R (f a)) (xs : List α) : Agrees R (xs.mapM f) := by
  induction xs with
  | nil => exact agrees_pure []
  | cons a rest ih =>
    rw [List.mapM_cons]
    exact agrees_bind (hf a) fun b => agrees_bind ih fun bs => agrees_pure (b :: bs)

end Attempt

namespace Provider

open Attempt

/-- The sessions that are related have the same languages configured, and asking for a language agrees
on them. The log does not count. -/
structure Indistinct (provider : Provider World Grammar Query)
    (R : Session World Grammar Query → Session World Grammar Query → Prop) : Prop where
  isConfigured : ∀ s s', R s s' → s.registry.isConfigured = s'.registry.isConfigured
  report : ∀ entries, Agrees R (Attempt.report entries)
  resolve : ∀ lang, Agrees R (liftM (Session.resolve provider lang) :
    Attempt World Grammar Query (Except ResolveError (Binding Grammar Query)))

namespace Indistinct

variable {provider : Provider World Grammar Query} {mayNest : Bool}
  {deeper : Option (Binding Grammar Query → Text → Attempt World Grammar Query (List Token))}

theorem skip (h : provider.Indistinct R) (entry : LogEntry) :
    Agrees R (Attempt.skip entry : Attempt World Grammar Query (Option α)) :=
  agrees_bind (h.report [entry]) fun _ => agrees_pure none

theorem regionIn (h : provider.Indistinct R) (lang : Text) (content : Capture)
    (answer : Except ResolveError (Binding Grammar Query)) :
    Agrees R (Provider.regionIn lang content answer : Attempt World Grammar Query _) := by
  cases answer with
  | ok binding => exact agrees_pure _
  | error e =>
    cases e with
    | unconfigured lang => exact agrees_throw _
    | failed e =>
      cases e with
      | failure e => exact h.skip _
      | escaped kind text => exact agrees_throw _
      | unreadable e => exact agrees_throw _

theorem regionOf (h : provider.Indistinct R) (found : Match) :
    Agrees R (provider.regionOf mayNest found) := by
  unfold Provider.regionOf
  refine agrees_get_bind (fun s s' hs => by rw [h.isConfigured s s' hs]) ?_
  intro s
  dsimp only
  cases found.injection? s.registry.isConfigured with
  | none => exact agrees_pure none
  | some marked =>
    obtain ⟨lang, content⟩ := marked
    dsimp only
    split_ifs
    · exact h.skip _
    · exact agrees_throw _
    · exact agrees_bind (h.resolve lang) fun answer => h.regionIn lang content answer

theorem injectionOf (h : provider.Indistinct R)
    (hdeeper : ∀ highlight, deeper = some highlight → ∀ binding t, Agrees R (highlight binding t))
    (found : Match) : Agrees R (provider.injectionOf deeper found) := by
  apply agrees_bind (h.regionOf found)
  intro region
  cases region with
  | none => exact agrees_pure none
  | some region =>
    cases deeper with
    | none => exact agrees_pure none
    | some highlight =>
      exact agrees_bind (hdeeper highlight rfl _ _) fun tokens => agrees_pure _

theorem injectionsOf (h : provider.Indistinct R)
    (hdeeper : ∀ highlight, deeper = some highlight → ∀ binding t, Agrees R (highlight binding t))
    (query : Query) (t : Text) : Agrees R (provider.injectionsOf deeper query t) := by
  apply agrees_bind (agrees_checked _)
  intro found
  exact agrees_bind (agrees_mapM (h.injectionOf hdeeper) found) fun results => agrees_pure _

theorem ownTokens (h : provider.Indistinct R) (binding : Binding Grammar Query) (t : Text) :
    Agrees R (provider.ownTokens binding t) := by
  apply agrees_bind (agrees_checked _)
  intro found
  exact agrees_bind (h.report _) fun _ => agrees_checked _

theorem tokensWith (h : provider.Indistinct R)
    (hdeeper : ∀ highlight, deeper = some highlight → ∀ binding t, Agrees R (highlight binding t))
    (binding : Binding Grammar Query) (t : Text) :
    Agrees R (provider.tokensWith deeper binding t) := by
  unfold Provider.tokensWith
  split_ifs
  · exact agrees_pure []
  · apply agrees_bind (h.ownTokens binding t)
    intro own
    cases binding.injections with
    | none => exact agrees_pure own
    | some query =>
      exact agrees_bind (h.injectionsOf hdeeper query t) fun injections => agrees_pure _

/-- By induction on the budget: the texts of regions have one less. -/
theorem tokens (h : provider.Indistinct R) (budget : Nat) (binding : Binding Grammar Query)
    (t : Text) : Agrees R (provider.tokens budget binding t) := by
  induction budget generalizing binding t with
  | zero =>
    refine h.tokensWith ?_ binding t
    intro highlight hnone
    cases hnone
  | succ budget ih =>
    refine h.tokensWith ?_ binding t
    intro highlight hhighlight
    cases hhighlight
    exact ih

theorem highlight (h : provider.Indistinct R) (lang t : Text) :
    Agrees R (provider.highlight lang t) := by
  unfold Provider.highlight
  refine agrees_get_bind (fun s s' hs => by rw [h.isConfigured s s' hs]) ?_
  intro s
  dsimp only
  split_ifs
  · exact agrees_throw_bind _ _
  · apply agrees_bind (h.resolve lang)
    intro answer
    cases answer with
    | error e => exact agrees_throw _
    | ok binding =>
      apply agrees_bind (h.tokens _ binding t)
      intro tokens
      exact agrees_bind (h.report _) fun _ => agrees_pure _

end Indistinct

end Provider

end SemanticHighlight
