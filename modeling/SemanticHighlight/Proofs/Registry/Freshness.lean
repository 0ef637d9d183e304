import SemanticHighlight.Proofs.Registry.History

/-!
# Freshness

What is cached, and what is handed to callers who asked since the latest reload, was built from the
entry that counts now by a load that was started since then. A caller who waits does so for a
pending load, and pending loads belong to the current generation; this is what is carried from event
to event until the load ends (`Promised`).
-/

namespace SemanticHighlight

variable {B : Type}

def Event.asksBy (caller : Text) : Event B → Bool
  | .request asking _ => decide (asking = caller)
  | _ => false

namespace Desk

/-- The entries that count after some events: those that a reload gave last. -/
def currentConfigs (configs : List LanguageConfig) : List (Event B) → List LanguageConfig
  | [] => configs
  | .reload (some given) :: events => currentConfigs given events
  | _ :: events => currentConfigs configs events

/-- The binding was built from the first of the current entries of the language, by a load that was
started since the latest reload. -/
structure UpToDate (desk : Desk B) (events : List (Event B)) (lang : Text) (held : Held B) :
    Prop where
  first : findConfig? (currentConfigs desk.registry.configs events) lang = some held.load.config
  started : desk.StartedSinceReload events held.load
  built : .finish held.load (.ok held.binding) ∈ events

/-- The bindings that there are after some events, and the loads that may still end. -/
structure NothingStale (desk : Desk B) (events : List (Event B)) : Prop where
  cached : ∀ lang held, (lang, held) ∈ (desk.after events).registry.cached →
    desk.UpToDate events lang held
  /-- A caller who asked for the language since the latest reload has no other binding in hand. -/
  served : ∀ before caller lang rest held, events = before ++ .request caller lang :: rest →
    (∀ later ∈ rest, later.isReload = false) → (∀ later ∈ rest, later.asksBy caller = false) →
    (caller, .served held) ∈ (desk.after events).waiters → desk.UpToDate events lang held
  /-- The end of a load from before the latest reload changes no entry. -/
  late : ∀ load outcome, load ∈ (desk.after events).registry.running →
    ¬ desk.StartedSinceReload events load →
    (desk.after (events ++ [.finish load outcome])).registry.cached =
        (desk.after events).registry.cached ∧
      (desk.after (events ++ [.finish load outcome])).registry.pending =
        (desk.after events).registry.pending

variable {desk : Desk B} {configs : List LanguageConfig} {event : Event B}
  {events before rest : List (Event B)} {load : Load} {held : Held B}
  {outcome : Except LoadError B} {caller other lang : Text} {w w' : Waiter B}
  {waiters : List (Text × Waiter B)}

/-! ## The cache -/

theorem configs_after (desk : Desk B) (events : List (Event B)) :
    (desk.after events).registry.configs = currentConfigs desk.registry.configs events := by
  induction events generalizing desk with
  | nil => rfl
  | cons event events ih =>
    refine (ih (desk.step event)).trans ?_
    cases event with
    | request caller lang => exact congrArg (currentConfigs · events) (step_of_not_isReload rfl).2
    | finish load outcome => exact congrArg (currentConfigs · events) (step_of_not_isReload rfl).2
    | cancel caller => rfl
    | reload given =>
      cases given with
      | none => rfl
      | some given => rfl

theorem started_of_cached (hdesk : desk.IsNew) (h : desk.Allows events) :
    ∀ lang held, (lang, held) ∈ (desk.after events).registry.cached →
      desk.StartedSinceReload events held.load ∧ .finish held.load (.ok held.binding) ∈ events := by
  refine allows_induction (P := fun events => ∀ lang held,
    (lang, held) ∈ (desk.after events).registry.cached →
      desk.StartedSinceReload events held.load ∧
        .finish held.load (.ok held.binding) ∈ events) ?_ ?_ h
  · obtain ⟨configs, rfl⟩ := hdesk
    intro lang held hcached
    exact absurd hcached List.not_mem_nil
  · intro events event hevents hpossible ih lang held hcached
    rw [after_concat] at hcached
    rw [startedSinceReload_concat]
    rcases mem_cached_step.mp hcached with ⟨hreload, hold⟩ | ⟨rfl, hgeneration, -⟩
    · obtain ⟨hstarted, hbuilt⟩ := ih lang held hold
      exact ⟨Or.inr ⟨hstarted, hreload⟩, List.mem_append_left _ hbuilt⟩
    · have hstarted := startedSinceReload_of_generation_eq hdesk hevents hpossible hgeneration
      exact ⟨Or.inr ⟨hstarted, rfl⟩, List.mem_append_right _ (List.mem_singleton_self _)⟩

theorem upToDate_of_cached (hdesk : desk.IsNew) (h : desk.Allows events)
    (hcached : (lang, held) ∈ (desk.after events).registry.cached) :
    desk.UpToDate events lang held := by
  obtain ⟨hstarted, hbuilt⟩ := started_of_cached hdesk h lang held hcached
  have hfirst := ((consistent_after hdesk h).cached_current lang held hcached).first
  rw [Registry.config?, configs_after] at hfirst
  exact ⟨hfirst, hstarted, hbuilt⟩

theorem UpToDate.concat (h : desk.UpToDate events lang held) (hreload : event.isReload = false) :
    desk.UpToDate (events ++ [event]) lang held where
  first := by
    rw [← configs_after, after_concat, (step_of_not_isReload hreload).2, configs_after]
    exact h.first
  started := startedSinceReload_concat.mpr (Or.inr ⟨h.started, hreload⟩)
  built := List.mem_append_left _ h.built

/-! ## Callers -/

theorem mem_setWaiter_self (h : (caller, w') ∈ setWaiter waiters caller w) : w' = w := by
  unfold setWaiter at h
  split at h
  · obtain ⟨entry, -, heq⟩ := List.mem_map.mp h
    split at heq
    · exact (Prod.mk.inj heq).2.symm
    · rename_i hne
      exact absurd (congrArg Prod.fst heq) hne
  · rename_i hnone
    rcases List.mem_append.mp h with hold | hnew
    · have hany : (waiters.any fun entry => entry.1 = caller) = true :=
        List.any_eq_true.mpr ⟨_, hold, by simp⟩
      exact absurd hany hnone
    · exact (Prod.mk.inj (List.mem_singleton.mp hnew)).2

theorem mem_setWaiter_of_ne (hne : other ≠ caller)
    (h : (caller, w') ∈ setWaiter waiters other w) : (caller, w') ∈ waiters := by
  unfold setWaiter at h
  split at h
  · obtain ⟨entry, hentry, heq⟩ := List.mem_map.mp h
    split at heq
    · exact absurd (Prod.mk.inj heq).1 hne
    · exact heq ▸ hentry
  · rcases List.mem_append.mp h with hold | hnew
    · exact hold
    · exact absurd (Prod.mk.inj (List.mem_singleton.mp hnew)).1.symm hne

/-- What a caller has in hand who asked for a language since the latest reload. -/
inductive Promised (desk : Desk B) (events : List (Event B)) (lang : Text) : Waiter B → Prop where
  | waiting {load : Load} (hpending : (lang, load) ∈ (desk.after events).registry.pending) :
      Promised desk events lang (.waiting load)
  | served {held : Held B} (hheld : desk.UpToDate events lang held) :
      Promised desk events lang (.served held)
  | failed (e : LoadError) : Promised desk events lang (.failed e)
  | unconfigured (asked : Text) : Promised desk events lang (.unconfigured asked)
  | cancelled : Promised desk events lang .cancelled

theorem mem_waiters_request (h : (caller, w) ∈ (desk.step (.request caller lang)).waiters) :
    (∃ held, w = .served held ∧
        (lang, held) ∈ (desk.step (.request caller lang)).registry.cached) ∨
      (∃ load, w = .waiting load ∧
        (lang, load) ∈ (desk.step (.request caller lang)).registry.pending) ∨
      w = .unconfigured lang := by
  have hrequested := desk.registry.requested_request lang
  unfold step at h ⊢
  dsimp only at h ⊢
  generalize desk.registry.request lang = asked at h hrequested ⊢
  cases hrequested with
  | cached hcached => exact Or.inl ⟨_, mem_setWaiter_self h, mem_of_lookup hcached⟩
  | joined hcached hpending =>
    exact Or.inr (Or.inl ⟨_, mem_setWaiter_self h, mem_of_lookup hpending⟩)
  | unconfigured hcached hpending hconfig => exact Or.inr (Or.inr (mem_setWaiter_self h))
  | begun hcached hpending hconfig =>
    exact Or.inr (Or.inl ⟨_, mem_setWaiter_self h, List.mem_cons_self⟩)

theorem promised_request (hdesk : desk.IsNew) (h : desk.Allows events)
    (hw : (caller, w) ∈ (desk.after (events ++ [.request caller lang])).waiters) :
    desk.Promised (events ++ [.request caller lang]) lang w := by
  have hallows : desk.Allows (events ++ [.request caller lang]) := allows_concat.mpr ⟨h, trivial⟩
  rw [after_concat] at hw
  rcases mem_waiters_request hw with ⟨held, rfl, hcached⟩ | ⟨load, rfl, hpending⟩ | rfl
  · rw [← after_concat] at hcached
    exact .served (upToDate_of_cached hdesk hallows hcached)
  · rw [← after_concat] at hpending
    exact .waiting hpending
  · exact .unconfigured lang

theorem Promised.concat (hdesk : desk.IsNew) (h : desk.Allows (events ++ [event]))
    (hreload : event.isReload = false)
    (hevent : ∀ load outcome, w = .waiting load → event ≠ .finish load outcome)
    (hw : desk.Promised events lang w) : desk.Promised (events ++ [event]) lang w := by
  cases hw with
  | @waiting load hpending =>
    obtain ⟨hevents, hpossible⟩ := allows_concat.mp h
    have hconsistent := consistent_after hdesk hevents
    obtain ⟨hrunning, hgeneration, hlang⟩ := (hconsistent.mem_pending lang load).mp hpending
    have hstill := mem_running_step hrunning fun outcome => hevent load outcome rfl
    refine .waiting ?_
    rw [after_concat]
    refine ((consistent_step hconsistent hpossible).mem_pending lang load).mpr ⟨hstill, ?_, hlang⟩
    exact hgeneration.trans (step_of_not_isReload hreload).1.symm
  | served hheld => exact .served (hheld.concat hreload)
  | failed e => exact .failed e
  | unconfigured asked => exact .unconfigured asked
  | cancelled => exact .cancelled

/-- The load that a caller waits for is of the current generation, so its binding is kept. -/
theorem Promised.afterLoad (hdesk : desk.IsNew)
    (h : desk.Allows (events ++ [.finish load outcome])) (hw : desk.Promised events lang w) :
    desk.Promised (events ++ [.finish load outcome]) lang (w.afterLoad load outcome) := by
  cases hw with
  | @waiting awaited hpending =>
    by_cases heq : awaited = load
    · subst heq
      cases outcome with
      | error e =>
        have hafter : (Waiter.waiting awaited : Waiter B).afterLoad awaited (.error e) =
          .failed e := if_pos rfl
        rw [hafter]
        exact .failed e
      | ok binding =>
        have hafter : (Waiter.waiting awaited : Waiter B).afterLoad awaited (.ok binding) =
          .served ⟨awaited, binding⟩ := if_pos rfl
        have hconsistent := consistent_after hdesk (allows_concat.mp h).1
        obtain ⟨-, hgeneration, hlang⟩ := (hconsistent.mem_pending lang awaited).mp hpending
        rw [hafter]
        refine .served (upToDate_of_cached hdesk h ?_)
        rw [after_concat]
        exact mem_cached_step.mpr (Or.inr ⟨rfl, hgeneration, hlang.symm⟩)
    · have hafter : (Waiter.waiting awaited : Waiter B).afterLoad load outcome =
        .waiting awaited := if_neg heq
      rw [hafter]
      refine Promised.concat hdesk h rfl ?_ (.waiting hpending)
      rintro _ outcome' ⟨⟩ hsame
      exact heq (Event.finish.inj hsame).1.symm
  | served hheld => exact .served (hheld.concat rfl)
  | failed e => exact .failed e
  | unconfigured asked => exact .unconfigured asked
  | cancelled => exact .cancelled

theorem Promised.cancel (hw : desk.Promised events lang w) :
    desk.Promised events lang w.cancel := by
  cases hw with
  | waiting hpending => exact .cancelled
  | served hheld => exact .served hheld
  | failed e => exact .failed e
  | unconfigured asked => exact .unconfigured asked
  | cancelled => exact .cancelled

theorem promised_step (hdesk : desk.IsNew) (h : desk.Allows (events ++ [event]))
    (hreload : event.isReload = false) (hasks : event.asksBy caller = false)
    (hold : ∀ w, (caller, w) ∈ (desk.after events).waiters → desk.Promised events lang w)
    (hw : (caller, w) ∈ (desk.after (events ++ [event])).waiters) :
    desk.Promised (events ++ [event]) lang w := by
  rw [after_concat] at hw
  cases event with
  | request asking asked =>
    refine (hold w (mem_setWaiter_of_ne (of_decide_eq_false hasks) hw)).concat hdesk h rfl ?_
    rintro load outcome - ⟨⟩
  | finish load outcome =>
    obtain ⟨⟨asking, v⟩, hv, heq⟩ := List.mem_map.mp hw
    obtain ⟨rfl, rfl⟩ := Prod.mk.inj heq
    exact (hold v hv).afterLoad hdesk h
  | cancel asking =>
    obtain ⟨⟨waiting, v⟩, hv, heq⟩ := List.mem_map.mp hw
    have hkept : ∀ {v : Waiter B}, desk.Promised events lang v →
        desk.Promised (events ++ [.cancel asking]) lang v := by
      intro v hv
      refine hv.concat hdesk h rfl ?_
      rintro load outcome - ⟨⟩
    split at heq
    · obtain ⟨rfl, rfl⟩ := Prod.mk.inj heq
      exact hkept (hold v hv).cancel
    · obtain ⟨rfl, rfl⟩ := Prod.mk.inj heq
      exact hkept (hold v hv)
  | reload given => cases hreload

theorem promised_after (hdesk : desk.IsNew)
    (h : desk.Allows (before ++ .request caller lang :: rest))
    (hreload : ∀ later ∈ rest, later.isReload = false)
    (hasks : ∀ later ∈ rest, later.asksBy caller = false) :
    ∀ w, (caller, w) ∈ (desk.after (before ++ .request caller lang :: rest)).waiters →
      desk.Promised (before ++ .request caller lang :: rest) lang w := by
  -- From the end, since what a caller has in hand is said of all events up to now.
  induction rest using List.reverseRecOn with
  | nil => exact fun w hw => promised_request hdesk (allows_append.mp h).1 hw
  | append_singleton rest event ih =>
    have hsplit : before ++ .request caller lang :: (rest ++ [event]) =
        (before ++ .request caller lang :: rest) ++ [event] := by simp
    rw [hsplit] at h ⊢
    have hold := ih (allows_concat.mp h).1
      (fun later hlater => hreload later (List.mem_append_left _ hlater))
      (fun later hlater => hasks later (List.mem_append_left _ hlater))
    intro w hw
    exact promised_step hdesk h (hreload event (by simp)) (hasks event (by simp)) hold hw

/-! ## All histories -/

theorem nothingStale_of_allows (h : (ofConfigs configs : Desk B).Allows events) :
    (ofConfigs configs : Desk B).NothingStale events where
  cached lang held hcached := upToDate_of_cached (isNew_ofConfigs configs) h hcached
  served := by
    rintro before caller lang rest held rfl hreload hasks hserved
    cases promised_after (isNew_ofConfigs configs) h hreload hasks _ hserved with
    | served hheld => exact hheld
  late load outcome hrunning hlate := by
    rw [registry_finish_late (isNew_ofConfigs configs) h hrunning hlate]
    exact ⟨rfl, rfl⟩

/-- Other entries come while a load is on its way; it succeeds next to the load that reads the first
of them, and a third caller gets what the latter built. -/
theorem nothingStale_of_allows_replaced :
    let old : LanguageConfig := ⟨"x", "old.so", "old.scm", none, false, none, none⟩
    let new : LanguageConfig := ⟨"x", "new.so", "new.scm", none, false, none, none⟩
    let late : Load := ⟨0, old, 0⟩
    let next : Load := ⟨1, new, 1⟩
    let events : List (Event Nat) := [.request "a" "x", .reload (some [new, old]),
      .request "b" "x", .finish late (.ok 7), .finish next (.ok 8), .request "c" "x", .cancel "a"]
    let desk : Desk Nat := .ofConfigs [old]
    desk.Allows events ∧ desk.NothingStale events := by
  intro old new late next events desk
  have hallows : desk.Allows events := by decide +kernel
  exact ⟨hallows, nothingStale_of_allows hallows⟩

end Desk

end SemanticHighlight
