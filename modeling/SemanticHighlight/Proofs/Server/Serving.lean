import SemanticHighlight.Proofs.Checked
import SemanticHighlight.Server.Basic

/-!
# What serving leads to

Work of a server has a result and a state, or an error and a state. `Leads` says of all runs from
certain states what comes of them. It is shown for work that is put together from what its parts lead
to, so that each function of the server is looked at once.
-/

namespace SemanticHighlight.Serving

variable {World Grammar Query α β : Type}

/-- What a run ended with has one property if it is a result, another if it is an error. -/
def Ended (gives : α → ServerState World Grammar Query → Prop)
    (fails : ServerError → ServerState World Grammar Query → Prop) :
    Except ServerError α × ServerState World Grammar Query → Prop
  | (.ok a, s) => gives a s
  | (.error e, s) => fails e s

/-- Every run from a state of the first kind ends as stated. -/
def Leads (start : ServerState World Grammar Query → Prop) (x : Serving World Grammar Query α)
    (gives : α → ServerState World Grammar Query → Prop)
    (fails : ServerError → ServerState World Grammar Query → Prop) : Prop :=
  ∀ s, start s → Ended gives fails (x.run.run s)

variable {start : ServerState World Grammar Query → Prop}
  {gives : α → ServerState World Grammar Query → Prop}
  {then_ : β → ServerState World Grammar Query → Prop}
  {fails : ServerError → ServerState World Grammar Query → Prop}
  {x : Serving World Grammar Query α} {f : α → Serving World Grammar Query β}

theorem Ended.state {P : ServerState World Grammar Query → Prop}
    {ended : Except ServerError α × ServerState World Grammar Query}
    (h : Ended (fun _ => P) (fun _ => P) ended) : P ended.2 := by
  obtain ⟨e | a, s⟩ := ended
  · exact h
  · exact h

theorem Leads.imp {gives' : α → ServerState World Grammar Query → Prop}
    {fails' : ServerError → ServerState World Grammar Query → Prop} (h : Leads start x gives fails)
    (hgives : ∀ a s, gives a s → gives' a s) (hfails : ∀ e s, fails e s → fails' e s) :
    Leads start x gives' fails' := by
  intro s hs
  have hended := h s hs
  rcases hrun : x.run.run s with ⟨e | a, s₁⟩
  · rw [hrun] at hended
    exact hfails e s₁ hended
  · rw [hrun] at hended
    exact hgives a s₁ hended

theorem leads_pure {a : α} (h : ∀ s, start s → gives a s) : Leads start (pure a) gives fails := h

theorem leads_throw {e : ServerError} (h : ∀ s, start s → fails e s) :
    Leads start (throw e) gives fails := h

theorem leads_modify {change : ServerState World Grammar Query → ServerState World Grammar Query}
    {gives : Unit → ServerState World Grammar Query → Prop}
    (h : ∀ s, start s → gives () (change s)) : Leads start (modify change) gives fails := h

theorem leads_bind (hx : Leads start x gives fails) (hf : ∀ a, Leads (gives a) (f a) then_ fails) :
    Leads start (x >>= f) then_ fails := by
  intro s hs
  have hended := hx s hs
  rw [ExceptT.run_bind, StateT.run_bind]
  rcases hrun : x.run.run s with ⟨e | a, s₁⟩
  · rw [hrun] at hended
    exact hended
  · rw [hrun] at hended
    exact hf a s₁ hended

theorem leads_get_bind {f : ServerState World Grammar Query → Serving World Grammar Query β}
    (h : ∀ s, start s → Leads (· = s) (f s) then_ fails) :
    Leads start (get >>= f) then_ fails := fun s hs => h s hs s rfl

theorem leads_read_bind {f : ServerState World Grammar Query → Serving World Grammar Query β}
    (h : ∀ s, start s → Leads start (f s) then_ fails) : Leads start (get >>= f) then_ fails :=
  fun s hs => h s hs s hs

/-- What does not depend on the state may be assumed. -/
theorem leads_assuming {P : Prop} (h : P → Leads start x gives fails) :
    Leads (fun s => start s ∧ P) x gives fails := fun s hs => h hs.2 s hs.1

/-- Whoever catches an error goes on in the state that it left. -/
theorem leads_tryCatch {handler : ServerError → Serving World Grammar Query α}
    {caught : ServerError → ServerState World Grammar Query → Prop} (hx : Leads start x gives caught)
    (hhandler : ∀ e, Leads (caught e) (handler e) gives fails) :
    Leads start (tryCatch x handler) gives fails := by
  intro s hs
  have hended := hx s hs
  rw [ExceptT.run_tryCatch]
  rcases hrun : x.run.run s with ⟨e | a, s₁⟩
  · rw [hrun] at hended
    rw [run_bind_of_run hrun]
    exact hhandler e s₁ hended
  · rw [hrun] at hended
    rw [run_bind_of_run hrun]
    exact hended

theorem leads_onSession {work : Work World Grammar Query α}
    (h : ∀ s, start s → gives (work.run s.session).1 { s with session := (work.run s.session).2 }) :
    Leads start (onSession work) gives fails := h

theorem leads_ofAddress {e : Except UriError α} (hok : ∀ a s, start s → e = .ok a → gives a s)
    (herror : ∀ problem s, start s → fails (.address problem) s) :
    Leads start (ofAddress e) gives fails := by
  intro s hs
  cases he : e with
  | ok a => exact hok a s hs he
  | error problem => exact herror problem s hs

end SemanticHighlight.Serving
