import SemanticHighlight.Proofs.Registry.History

/-!
# Single flight

A load that runs is joined and a binding that is there is used, so between two reloads a language
has one load at a time and none after a success. Loads that were started before the latest reload
run next to these. They end for the callers who wait for them and settle nothing for their language,
whether they succeed or fail.
-/

namespace SemanticHighlight

variable {B : Type}

/-- There is neither a binding of the language nor a load to join. -/
structure Registry.Free (r : Registry B) (lang : Text) : Prop where
  pending : ∀ load, (lang, load) ∉ r.pending
  cached : ∀ held, (lang, held) ∉ r.cached

def Event.asksFor (lang : Text) : Event B → Bool
  | .request _ asked => decide (asked = lang)
  | _ => false

namespace Desk

/-- All that happens apart from callers who give up. -/
def withoutCancellations (events : List (Event B)) : List (Event B) :=
  events.filter fun event => !event.isCancellation

/-- The loads of a desk after some events, and what the ends of loads among these have settled. -/
structure SingleFlight (desk : Desk B) (events : List (Event B)) : Prop where
  running_apart : (desk.after events).registry.running.Pairwise fun l m =>
    desk.StartedSinceReload events l → desk.StartedSinceReload events m →
      l.config.lang ≠ m.config.lang
  entries_apart : ∀ lang load held, (lang, load) ∈ (desk.after events).registry.pending →
    (lang, held) ∉ (desk.after events).registry.cached
  pending_runs : ∀ lang load, (lang, load) ∈ (desk.after events).registry.pending →
    load ∈ (desk.after events).registry.running ∧
      load.generation = (desk.after events).registry.generation ∧
      desk.StartedSinceReload events load ∧ load.config.lang = lang
  /-- After a success no load of the language starts until the next reload. -/
  succeeded : ∀ before load binding rest, events = before ++ .finish load (.ok binding) :: rest →
    desk.StartedSinceReload before load → (∀ later ∈ rest, later.isReload = false) →
    ∀ event l, (desk.after events).Starts event l → l.config.lang ≠ load.config.lang
  failed : ∀ before load e, events = before ++ [.finish load (.error e)] →
    (∀ lang, (lang, load) ∉ (desk.after events).registry.pending) ∧
      ∀ lang held, (lang, held) ∈ (desk.after events).registry.cached → held.load ≠ load
  /-- After a failure the next request for the language starts a load. -/
  failed_current : ∀ before load e rest, events = before ++ .finish load (.error e) :: rest →
    desk.StartedSinceReload before load → (∀ later ∈ rest, later.isReload = false) →
    (∀ later ∈ rest, later.asksFor load.config.lang = false) →
    (desk.after events).registry.Free load.config.lang ∧
      ∀ caller, ∃ l, (desk.after events).Starts (.request caller load.config.lang) l ∧
        l.config.lang = load.config.lang
  /-- A load that fails after a reload changes no entry. -/
  failed_late : ∀ before load e, events = before ++ [.finish load (.error e)] →
    ¬ desk.StartedSinceReload before load →
    (desk.after events).registry.pending = (desk.after before).registry.pending ∧
      (desk.after events).registry.cached = (desk.after before).registry.cached
  /-- Cancellations, whoever gives up and when, can be added and left out. -/
  cancelled : ∀ other, withoutCancellations other = withoutCancellations events →
    desk.Allows other ∧ (desk.after other).registry = (desk.after events).registry

variable {desk : Desk B} {configs : List LanguageConfig} {event : Event B}
  {events before rest : List (Event B)} {load l : Load} {held : Held B} {binding : B}
  {e : LoadError} {lang : Text}

/-! ## Loads that run -/

theorem running_pairwise_lang (hdesk : desk.IsNew) (h : desk.Allows events) :
    (desk.after events).registry.running.Pairwise fun l m =>
      desk.StartedSinceReload events l → desk.StartedSinceReload events m →
        l.config.lang ≠ m.config.lang := by
  have hconsistent := consistent_after hdesk h
  refine hconsistent.running_nodup.imp_of_mem ?_
  intro l m hl hm hne hlstarted hmstarted hlang
  have hlgen := generation_eq_of_startedSinceReload hdesk h hlstarted
  have hmgen := generation_eq_of_startedSinceReload hdesk h hmstarted
  exact hne (hconsistent.eq_of_lang_eq hl hlgen hm hmgen hlang)

theorem runs_of_mem_pending (hdesk : desk.IsNew) (h : desk.Allows events)
    (hpending : (lang, load) ∈ (desk.after events).registry.pending) :
    load ∈ (desk.after events).registry.running ∧
      load.generation = (desk.after events).registry.generation ∧
      desk.StartedSinceReload events load ∧ load.config.lang = lang := by
  obtain ⟨hrunning, hgeneration, hlang⟩ :=
    ((consistent_after hdesk h).mem_pending lang load).mp hpending
  have hstarted := (startedSinceReload_iff hdesk h hrunning).mpr hgeneration
  exact ⟨hrunning, hgeneration, hstarted, hlang⟩

/-! ## Success -/

theorem mem_cached_after (hevents : ∀ event ∈ events, event.isReload = false)
    (h : (lang, held) ∈ desk.registry.cached) :
    (lang, held) ∈ (desk.after events).registry.cached := by
  induction events generalizing desk with
  | nil => exact h
  | cons event events ih =>
    have hevent := hevents event (by simp)
    exact ih (fun later hlater => hevents later (by simp [hlater]))
      (mem_cached_step.mpr (Or.inl ⟨hevent, h⟩))

theorem Starts.free (hconsistent : desk.registry.Consistent) (h : desk.Starts event l) :
    event.asksFor l.config.lang = true ∧ desk.registry.Free l.config.lang := by
  obtain ⟨caller, asked, config, rfl, hcached, hpending, hconfig, rfl⟩ :=
    (starts_iff hconsistent).mp h
  obtain rfl : config.lang = asked := findConfig?_lang hconfig
  exact ⟨decide_eq_true rfl, lookup_eq_none.mp hpending, lookup_eq_none.mp hcached⟩

theorem lang_ne_of_succeeded (hdesk : desk.IsNew)
    (h : desk.Allows (before ++ .finish load (.ok binding) :: rest))
    (hstarted : desk.StartedSinceReload before load)
    (hrest : ∀ later ∈ rest, later.isReload = false)
    (hstarts : (desk.after (before ++ .finish load (.ok binding) :: rest)).Starts event l) :
    l.config.lang ≠ load.config.lang := by
  have hgeneration := generation_eq_of_startedSinceReload hdesk (allows_append.mp h).1 hstarted
  have hkept : (load.config.lang, ⟨load, binding⟩) ∈
      ((desk.after before).step (.finish load (.ok binding))).registry.cached :=
    mem_cached_step.mpr (Or.inr ⟨rfl, hgeneration, rfl⟩)
  have hlast := mem_cached_after hrest hkept
  have hconsistent := consistent_after hdesk h
  rw [after_append] at hstarts hconsistent
  intro hlang
  rw [← hlang] at hlast
  exact (hstarts.free hconsistent).2.cached _ hlast

/-! ## Failure -/

theorem cached_notRunning (h : desk.registry.Consistent)
    (hcached : (lang, held) ∈ desk.registry.cached) : held.load ∉ desk.registry.running := by
  intro hrunning
  have hcurrent := h.cached_current lang held hcached
  refine h.cached_apart lang held held.load hcached ?_
  exact (h.mem_pending lang held.load).mpr ⟨hrunning, hcurrent.generation, hcurrent.lang_eq⟩

theorem notMem_of_failed (h : desk.registry.Consistent) (hrunning : load ∈ desk.registry.running) :
    (∀ lang, (lang, load) ∉ (desk.step (.finish load (.error e))).registry.pending) ∧
      ∀ lang held, (lang, held) ∈ (desk.step (.finish load (.error e))).registry.cached →
        held.load ≠ load := by
  constructor
  · intro lang hpending
    have hstill := (((h.finish hrunning (.error e)).mem_pending lang load).mp hpending).1
    rw [Registry.running_finish, Registry.mem_running_ended] at hstill
    exact hstill.2 rfl
  · rintro lang held hcached rfl
    rcases mem_cached_step.mp hcached with ⟨-, hold⟩ | ⟨hevent, -⟩
    · exact cached_notRunning h hold hrunning
    · cases hevent

theorem free_of_failed (h : desk.registry.Consistent) (hrunning : load ∈ desk.registry.running)
    (hgeneration : load.generation = desk.registry.generation) :
    (desk.step (.finish load (.error e))).registry.Free load.config.lang := by
  have hregistry : (desk.step (.finish load (.error e))).registry = desk.registry.released load :=
    Registry.finish_error hgeneration
  have hpending := (h.mem_pending load.config.lang load).mpr ⟨hrunning, hgeneration, rfl⟩
  rw [hregistry]
  constructor
  · intro l hl
    exact (Registry.mem_pending_released.mp hl).2 rfl
  · intro held hheld
    exact h.cached_apart _ held load hheld hpending

theorem free_step (h : desk.registry.Consistent) (hpossible : desk.Possible event)
    (hreload : event.isReload = false) (hasks : event.asksFor lang = false)
    (hfree : desk.registry.Free lang) : (desk.step event).registry.Free lang := by
  have hpending : ∀ l, l ∈ desk.registry.running → l.generation = desk.registry.generation →
      l.config.lang ≠ lang := by
    intro l hrunning hgeneration hlang
    exact hfree.pending l ((h.mem_pending lang l).mpr ⟨hrunning, hgeneration, hlang⟩)
  constructor
  · intro l hl
    obtain ⟨hafter, hgeneration, hlang⟩ := ((consistent_step h hpossible).mem_pending lang l).mp hl
    by_cases hbefore : l ∈ desk.registry.running
    · exact hpending l hbefore (hgeneration.trans (step_of_not_isReload hreload).1) hlang
    · have hasked := (Starts.free h ⟨hbefore, hafter⟩).1
      rw [hlang, hasks] at hasked
      cases hasked
  · intro held hheld
    rcases mem_cached_step.mp hheld with ⟨-, hold⟩ | ⟨rfl, hgeneration, hlang⟩
    · exact hfree.cached held hold
    · exact hpending held.load hpossible hgeneration hlang.symm

theorem free_after (h : desk.registry.Consistent) (hallows : desk.Allows events)
    (hreload : ∀ later ∈ events, later.isReload = false)
    (hasks : ∀ later ∈ events, later.asksFor lang = false) (hfree : desk.registry.Free lang) :
    (desk.after events).registry.Free lang ∧
      (desk.after events).registry.configs = desk.registry.configs := by
  induction events generalizing desk with
  | nil => exact ⟨hfree, rfl⟩
  | cons event events ih =>
    have hevent := hreload event (by simp)
    obtain ⟨hlast, hconfigs⟩ := ih (consistent_step h hallows.1) hallows.2
      (fun later hlater => hreload later (by simp [hlater]))
      (fun later hlater => hasks later (by simp [hlater]))
      (free_step h hallows.1 hevent (hasks event (by simp)) hfree)
    exact ⟨hlast, hconfigs.trans (step_of_not_isReload hevent).2⟩

theorem starts_of_free {config : LanguageConfig} (h : desk.registry.Consistent)
    (hfree : desk.registry.Free lang) (hconfig : desk.registry.config? lang = some config)
    (caller : Text) : desk.Starts (.request caller lang) (desk.registry.nextLoad config) :=
  (starts_iff h).mpr ⟨caller, lang, config, rfl, lookup_eq_none.mpr hfree.cached,
    lookup_eq_none.mpr hfree.pending, hconfig, rfl⟩

theorem starts_of_failed (hdesk : desk.IsNew)
    (h : desk.Allows (before ++ .finish load (.error e) :: rest))
    (hstarted : desk.StartedSinceReload before load)
    (hreload : ∀ later ∈ rest, later.isReload = false)
    (hasks : ∀ later ∈ rest, later.asksFor load.config.lang = false) :
    (desk.after (before ++ .finish load (.error e) :: rest)).registry.Free load.config.lang ∧
      ∀ caller, ∃ l, (desk.after (before ++ .finish load (.error e) :: rest)).Starts
        (.request caller load.config.lang) l ∧ l.config.lang = load.config.lang := by
  have hconsistent := consistent_after hdesk h
  obtain ⟨hbefore, hrunning, hrest⟩ := allows_append.mp h
  have hbefore' := consistent_after hdesk hbefore
  have hgeneration := generation_eq_of_startedSinceReload hdesk hbefore hstarted
  have hpending := (hbefore'.mem_pending load.config.lang load).mpr ⟨hrunning, hgeneration, rfl⟩
  have hconfig := (hbefore'.pending_current _ _ hpending).first
  have hreloaded : (Event.finish load (.error e) : Event B).isReload = false := rfl
  rw [after_append] at hconsistent ⊢
  obtain ⟨hfree, hconfigs⟩ := free_after (consistent_step hbefore' hrunning) hrest hreload hasks
    (free_of_failed hbefore' hrunning hgeneration)
  have hsame := hconfigs.trans (step_of_not_isReload hreloaded).2
  rw [Registry.config?, ← hsame] at hconfig
  refine ⟨hfree, fun caller => ?_⟩
  exact ⟨_, starts_of_free hconsistent hfree hconfig caller, rfl⟩

/-! ## Cancellation -/

theorem step_registry_congr {other : Desk B} (h : desk.registry = other.registry)
    (event : Event B) : (desk.step event).registry = (other.step event).registry := by
  cases event with
  | request caller lang => exact congrArg (fun r => (r.request lang).2) h
  | finish load outcome => exact congrArg (fun r => (r.finish load outcome).1) h
  | cancel caller => exact h
  | reload configs => exact congrArg (fun r => (r.reload configs).1) h

theorem possible_congr {other : Desk B} (h : desk.registry = other.registry) :
    desk.Possible event ↔ other.Possible event := by
  cases event with
  | finish load outcome => rw [Possible, Possible, h]
  | request caller lang => exact Iff.rfl
  | cancel caller => exact Iff.rfl
  | reload configs => exact Iff.rfl

theorem registry_withoutCancellations {other : Desk B} (h : desk.registry = other.registry)
    (events : List (Event B)) :
    (desk.Allows (withoutCancellations events) ↔ other.Allows events) ∧
      (desk.after (withoutCancellations events)).registry = (other.after events).registry := by
  -- The callers of the two desks differ; all that counts is that the registries are the same.
  induction events generalizing desk other with
  | nil => exact ⟨Iff.rfl, h⟩
  | cons event events ih =>
    cases hevent : event.isCancellation with
    | false =>
      have hkept : withoutCancellations (event :: events) =
        event :: withoutCancellations events := by simp [withoutCancellations, hevent]
      obtain ⟨hallows, hregistry⟩ := ih (step_registry_congr h event)
      rw [hkept]
      exact ⟨and_congr (possible_congr h) hallows, hregistry⟩
    | true =>
      have hdropped : withoutCancellations (event :: events) = withoutCancellations events := by
        simp [withoutCancellations, hevent]
      cases event with
      | cancel caller =>
        have hother : desk.registry = (other.step (.cancel caller)).registry := h
        obtain ⟨hallows, hregistry⟩ := ih hother
        rw [hdropped, hallows]
        exact ⟨(and_iff_right trivial).symm, hregistry⟩
      | request caller lang => cases hevent
      | finish load outcome => cases hevent
      | reload configs => cases hevent

theorem registry_eq_of_withoutCancellations {other : List (Event B)} (h : desk.Allows events)
    (hother : withoutCancellations other = withoutCancellations events) :
    desk.Allows other ∧ (desk.after other).registry = (desk.after events).registry := by
  obtain ⟨hallows, hregistry⟩ := registry_withoutCancellations (rfl : desk.registry = _) events
  obtain ⟨hallows', hregistry'⟩ := registry_withoutCancellations (rfl : desk.registry = _) other
  rw [hother] at hallows' hregistry'
  exact ⟨hallows'.mp (hallows.mpr h), hregistry'.symm.trans hregistry⟩

/-! ## All histories -/

theorem singleFlight_of_allows (h : (ofConfigs configs : Desk B).Allows events) :
    (ofConfigs configs : Desk B).SingleFlight events where
  running_apart := running_pairwise_lang (isNew_ofConfigs configs) h
  entries_apart lang load held hpending hcached :=
    (consistent_after (isNew_ofConfigs configs) h).cached_apart lang held load hcached hpending
  pending_runs lang load hpending := runs_of_mem_pending (isNew_ofConfigs configs) h hpending
  succeeded := by
    rintro before load binding rest rfl hstarted hrest event l hstarts
    exact lang_ne_of_succeeded (isNew_ofConfigs configs) h hstarted hrest hstarts
  failed := by
    rintro before load e rfl
    obtain ⟨hbefore, hrunning⟩ := allows_concat.mp h
    rw [after_concat]
    exact notMem_of_failed (consistent_after (isNew_ofConfigs configs) hbefore) hrunning
  failed_current := by
    rintro before load e rest rfl hstarted hreload hasks
    exact starts_of_failed (isNew_ofConfigs configs) h hstarted hreload hasks
  failed_late := by
    rintro before load e rfl hlate
    obtain ⟨hbefore, hrunning⟩ := allows_concat.mp h
    rw [registry_finish_late (isNew_ofConfigs configs) hbefore hrunning hlate]
    exact ⟨rfl, rfl⟩
  cancelled := fun other hother => registry_eq_of_withoutCancellations h hother

/-! ## Late loads -/

def plainConfig (lang : Text) : LanguageConfig :=
  ⟨lang, "grammar.so", "query.scm", none, false, none, none⟩

/-- Two callers share a load and one gives up, a reload comes, and the late load ends next to one
that fails and is followed by another. -/
theorem singleFlight_of_allows_late :
    let first : Load := ⟨0, plainConfig "x", 0⟩
    let second : Load := ⟨1, plainConfig "x", 1⟩
    let third : Load := ⟨2, plainConfig "x", 1⟩
    let desk : Desk Nat := .ofConfigs [plainConfig "x"]
    let events : List (Event Nat) := [.request "a" "x", .request "b" "x", .cancel "a",
      .reload none, .request "c" "x", .finish first (.ok 7),
      .finish second (.error (.escaped "TypeError" "not a language")), .request "d" "x",
      .finish third (.ok 8)]
    desk.Allows events ∧ desk.SingleFlight events := by
  intro first second third desk events
  have hallows : desk.Allows events := by decide +kernel
  exact ⟨hallows, singleFlight_of_allows hallows⟩

/-- After a late success a request still starts a load; a late failure comes next to the load of
another caller, which the next request joins. -/
theorem late_load_settles_nothing :
    let x : Text := "x"
    let first : Load := ⟨0, plainConfig x, 0⟩
    let second : Load := ⟨1, plainConfig x, 1⟩
    let desk : Desk Nat := .ofConfigs [plainConfig x]
    let succeeded : List (Event Nat) := [.request "a" x, .reload none, .finish first (.ok 7)]
    let failed : List (Event Nat) := [.request "a" x, .reload none, .request "b" x,
      .finish first (.error (.escaped "TypeError" "not a language"))]
    (desk.Allows succeeded ∧ (desk.after succeeded).Starts (.request "b" x) second) ∧
      desk.Allows failed ∧ (desk.after failed).registry.pending.lookup x = some second ∧
        ∀ load, ¬ (desk.after failed).Starts (.request "c" x) load := by
  intro x first second desk succeeded failed
  have hjoined : ((desk.after failed).step (.request "c" x)).registry.running =
      (desk.after failed).registry.running := by decide +kernel
  refine ⟨by decide +kernel, by decide +kernel, by decide +kernel, ?_⟩
  rintro load ⟨hbefore, hafter⟩
  exact hbefore (hjoined ▸ hafter)

end Desk

end SemanticHighlight
