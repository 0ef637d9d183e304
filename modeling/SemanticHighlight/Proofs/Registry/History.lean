import Mathlib.Data.List.Induction
import SemanticHighlight.Proofs.Registry.Consistency
import SemanticHighlight.Registry.Desk

/-!
# Histories of a desk

Requests, ends of loads, cancellations and reloads come in any order; only a load that does not run
cannot end. `Desk.Allows` says so of a list of events. A load counts as started since the latest
reload if some event of the list starts it and no reload comes after that event, whatever the desk
itself notes down. The generations that it does note down say the same (`startedSinceReload_iff`).
-/

namespace SemanticHighlight

namespace Event

variable {B : Type}

def isReload : Event B → Bool
  | .reload _ => true
  | _ => false

def isCancellation : Event B → Bool
  | .cancel _ => true
  | _ => false

end Event

namespace Desk

variable {B : Type} {desk : Desk B} {event : Event B}
  {events : List (Event B)} {load : Load} {held : Held B} {lang : Text}

/-- Only a load that runs can end; everything else can happen at any time. -/
def Possible (desk : Desk B) : Event B → Prop
  | .finish load _ => load ∈ desk.registry.running
  | _ => True

instance (desk : Desk B) (event : Event B) : Decidable (desk.Possible event) :=
  match event with
  | .finish load _ => inferInstanceAs (Decidable (load ∈ desk.registry.running))
  | .request _ _ => .isTrue trivial
  | .cancel _ => .isTrue trivial
  | .reload _ => .isTrue trivial

def IsNew (desk : Desk B) : Prop := ∃ configs, desk = ofConfigs configs

theorem isNew_ofConfigs (configs : List LanguageConfig) : (ofConfigs configs : Desk B).IsNew :=
  ⟨configs, rfl⟩

def after (desk : Desk B) (events : List (Event B)) : Desk B := events.foldl step desk

/-- Each of the events is possible when its turn comes. -/
def Allows (desk : Desk B) : List (Event B) → Prop
  | [] => True
  | event :: events => desk.Possible event ∧ (desk.step event).Allows events

instance decidableAllows : (desk : Desk B) → (events : List (Event B)) →
    Decidable (desk.Allows events)
  | _, [] => .isTrue trivial
  | desk, event :: events =>
    have := decidableAllows (desk.step event) events
    inferInstanceAs (Decidable (desk.Possible event ∧ (desk.step event).Allows events))

/-- The event starts the load: it runs afterwards and did not before. -/
def Starts (desk : Desk B) (event : Event B) (load : Load) : Prop :=
  load ∉ desk.registry.running ∧ load ∈ (desk.step event).registry.running

instance (desk : Desk B) (event : Event B) (load : Load) : Decidable (desk.Starts event load) :=
  inferInstanceAs (Decidable (_ ∧ _))

/-- One of the events starts the load, and no reload follows. -/
def StartedSinceReload (desk : Desk B) (events : List (Event B)) (load : Load) : Prop :=
  ∃ before event rest, events = before ++ event :: rest ∧ (desk.after before).Starts event load ∧
    ∀ later ∈ rest, later.isReload = false

/-! ## One event more -/

@[simp] theorem after_nil (desk : Desk B) : desk.after [] = desk := rfl

theorem after_append (desk : Desk B) (first rest : List (Event B)) :
    desk.after (first ++ rest) = (desk.after first).after rest :=
  List.foldl_append

theorem after_concat (desk : Desk B) (events : List (Event B)) (event : Event B) :
    desk.after (events ++ [event]) = (desk.after events).step event :=
  desk.after_append events [event]

theorem allows_append {first rest : List (Event B)} :
    desk.Allows (first ++ rest) ↔ desk.Allows first ∧ (desk.after first).Allows rest := by
  induction first generalizing desk with
  | nil => simp [Allows]
  | cons event first ih =>
    rw [List.cons_append, Allows, Allows, ih, and_assoc]
    rfl

theorem allows_concat :
    desk.Allows (events ++ [event]) ↔ desk.Allows events ∧ (desk.after events).Possible event := by
  rw [allows_append]
  simp [Allows]

/-- What every possible event keeps holds after every list of events that is allowed. -/
theorem allows_induction {P : List (Event B) → Prop} (nil : P [])
    (concat : ∀ events event, desk.Allows events → (desk.after events).Possible event → P events →
      P (events ++ [event])) (h : desk.Allows events) : P events := by
  induction events using List.reverseRecOn with
  | nil => exact nil
  | append_singleton events event ih =>
    obtain ⟨hevents, hevent⟩ := allows_concat.mp h
    exact concat events event hevents hevent (ih hevents)

theorem concat_eq_append_cons {α : Type} {xs before after : List α} {x y : α}
    (h : xs ++ [x] = before ++ y :: after) :
    (before = xs ∧ y = x ∧ after = []) ∨
      ∃ rest, after = rest ++ [x] ∧ xs = before ++ y :: rest := by
  rcases List.eq_nil_or_concat after with rfl | ⟨rest, z, rfl⟩
  · obtain ⟨hxs, hx⟩ := List.append_inj' h rfl
    exact Or.inl ⟨hxs.symm, (List.singleton_inj.mp hx).symm, rfl⟩
  · have h' : xs ++ [x] = (before ++ y :: rest) ++ [z] := by simpa using h
    obtain ⟨hxs, hx⟩ := List.append_inj' h' rfl
    exact Or.inr ⟨rest, by rw [List.concat_eq_append, List.singleton_inj.mp hx], hxs⟩

theorem startedSinceReload_concat :
    desk.StartedSinceReload (events ++ [event]) load ↔
      (desk.after events).Starts event load ∨
        (desk.StartedSinceReload events load ∧ event.isReload = false) := by
  constructor
  · rintro ⟨before, first, rest, heq, hstarts, hrest⟩
    rcases concat_eq_append_cons heq with ⟨rfl, rfl, rfl⟩ | ⟨rest, rfl, rfl⟩
    · exact Or.inl hstarts
    · refine Or.inr ⟨⟨before, first, rest, rfl, hstarts, ?_⟩, hrest event (by simp)⟩
      exact fun later hlater => hrest later (List.mem_append_left _ hlater)
  · rintro (hstarts | ⟨⟨before, first, rest, rfl, hstarts, hrest⟩, hevent⟩)
    · exact ⟨events, event, [], rfl, hstarts, by simp⟩
    · refine ⟨before, first, rest ++ [event], by simp, hstarts, ?_⟩
      intro later hlater
      rcases List.mem_append.mp hlater with hlater | hlater
      · exact hrest later hlater
      · rw [List.mem_singleton.mp hlater]
        exact hevent

/-! ## What an event does to the registry -/

theorem consistent_step (h : desk.registry.Consistent) (hpossible : desk.Possible event) :
    (desk.step event).registry.Consistent := by
  cases event with
  | request caller lang => exact h.request lang
  | finish load outcome => exact h.finish hpossible outcome
  | cancel caller => exact h
  | reload configs => exact h.reload configs

theorem consistent_after (hdesk : desk.IsNew) (h : desk.Allows events) :
    (desk.after events).registry.Consistent := by
  obtain ⟨configs, rfl⟩ := hdesk
  refine allows_induction (P := fun events => (after _ events).registry.Consistent)
    (Registry.Consistent.ofConfigs configs) ?_ h
  intro events event hevents hevent ih
  rw [after_concat]
  exact consistent_step ih hevent

/-- Only a request for a language that has neither a binding nor a load to wait for starts one. -/
theorem starts_iff (h : desk.registry.Consistent) :
    desk.Starts event load ↔ ∃ caller lang config, event = .request caller lang ∧
      desk.registry.cached.lookup lang = none ∧ desk.registry.pending.lookup lang = none ∧
      desk.registry.config? lang = some config ∧ load = desk.registry.nextLoad config := by
  constructor
  · rintro ⟨hbefore, hafter⟩
    cases event with
    | request caller lang =>
      have hrequested := desk.registry.requested_request lang
      have hrunning : load ∈ (desk.registry.request lang).2.running := hafter
      generalize desk.registry.request lang = asked at hrequested hrunning
      cases hrequested with
      | cached hcached => exact absurd hrunning hbefore
      | joined hcached hpending => exact absurd hrunning hbefore
      | unconfigured hcached hpending hconfig => exact absurd hrunning hbefore
      | begun hcached hpending hconfig =>
        rcases List.mem_append.mp hrunning with hold | hnew
        · exact absurd hold hbefore
        · have heq := List.mem_singleton.mp hnew
          exact ⟨caller, lang, _, rfl, hcached, hpending, hconfig, heq⟩
    | finish other outcome =>
      have hrunning : load ∈ (desk.registry.finish other outcome).1.running := hafter
      rw [Registry.running_finish, Registry.mem_running_ended] at hrunning
      exact absurd hrunning.1 hbefore
    | cancel caller => exact absurd hafter hbefore
    | reload configs => exact absurd hafter hbefore
  · rintro ⟨caller, lang, config, rfl, hcached, hpending, hconfig, rfl⟩
    refine ⟨h.nextLoad_notMem config, ?_⟩
    have hrequest : desk.registry.request lang =
        (.waiting (desk.registry.nextLoad config), desk.registry.begun lang config) := by
      simp only [Registry.request, hcached, hpending, hconfig]
      rfl
    have hregistry : (desk.step (.request caller lang)).registry =
        (desk.registry.request lang).2 := rfl
    rw [hregistry, hrequest]
    exact List.mem_append_right _ (List.mem_singleton_self _)

/-- A load runs until it ends. -/
theorem mem_running_step (h : load ∈ desk.registry.running)
    (hevent : ∀ outcome, event ≠ .finish load outcome) :
    load ∈ (desk.step event).registry.running := by
  cases event with
  | request caller lang =>
    have hrequested := desk.registry.requested_request lang
    change load ∈ (desk.registry.request lang).2.running
    generalize desk.registry.request lang = asked at hrequested
    cases hrequested with
    | cached hcached => exact h
    | joined hcached hpending => exact h
    | unconfigured hcached hpending hconfig => exact h
    | begun hcached hpending hconfig => exact List.mem_append_left _ h
  | finish other outcome =>
    change load ∈ (desk.registry.finish other outcome).1.running
    rw [Registry.running_finish, Registry.mem_running_ended]
    refine ⟨h, ?_⟩
    rintro rfl
    exact hevent outcome rfl
  | cancel caller => exact h
  | reload configs => exact h

/-- A binding is kept if its load ends in the generation that it belongs to, and until a reload. -/
theorem mem_cached_step : (lang, held) ∈ (desk.step event).registry.cached ↔
    (event.isReload = false ∧ (lang, held) ∈ desk.registry.cached) ∨
      (event = .finish held.load (.ok held.binding) ∧
        held.load.generation = desk.registry.generation ∧ lang = held.load.config.lang) := by
  cases event with
  | request caller asked =>
    have hsame : (desk.registry.request asked).2.cached = desk.registry.cached := by
      have hrequested := desk.registry.requested_request asked
      generalize desk.registry.request asked = answered at hrequested
      cases hrequested <;> rfl
    change (lang, held) ∈ (desk.registry.request asked).2.cached ↔ _
    simp [hsame, Event.isReload]
  | finish load outcome =>
    change (lang, held) ∈ (desk.registry.finish load outcome).1.cached ↔ _
    rw [Registry.mem_cached_finish, Event.finish.injEq]
    constructor
    · rintro (hold | ⟨hgeneration, rfl, rfl, rfl⟩)
      · exact Or.inl ⟨rfl, hold⟩
      · exact Or.inr ⟨⟨rfl, rfl⟩, hgeneration, rfl⟩
    · rintro (⟨-, hold⟩ | ⟨⟨rfl, rfl⟩, hgeneration, rfl⟩)
      · exact Or.inl hold
      · exact Or.inr ⟨hgeneration, rfl, rfl, rfl⟩
  | cancel caller => simp [step, Event.isReload]
  | reload configs => simp [step, Registry.reload, Event.isReload]

theorem step_of_not_isReload (h : event.isReload = false) :
    (desk.step event).registry.generation = desk.registry.generation ∧
      (desk.step event).registry.configs = desk.registry.configs := by
  cases event with
  | request caller lang =>
    have hrequested := desk.registry.requested_request lang
    change (desk.registry.request lang).2.generation = _ ∧
      (desk.registry.request lang).2.configs = _
    generalize desk.registry.request lang = asked at hrequested
    cases hrequested <;> exact ⟨rfl, rfl⟩
  | finish load outcome =>
    change (desk.registry.finish load outcome).1.generation = _ ∧
      (desk.registry.finish load outcome).1.configs = _
    by_cases hgeneration : load.generation = desk.registry.generation
    · cases outcome with
      | error e =>
        rw [Registry.finish_error hgeneration]
        exact ⟨rfl, rfl⟩
      | ok binding =>
        rw [Registry.finish_ok hgeneration]
        exact ⟨rfl, rfl⟩
    · rw [Registry.finish_late hgeneration]
      exact ⟨rfl, rfl⟩
  | cancel caller => exact ⟨rfl, rfl⟩
  | reload configs => cases h

/-! ## Loads since the latest reload -/

theorem Starts.generation_eq (hconsistent : desk.registry.Consistent)
    (h : desk.Starts event load) : load.generation = (desk.step event).registry.generation := by
  obtain ⟨caller, lang, config, rfl, -, -, -, rfl⟩ := (starts_iff hconsistent).mp h
  have hsame : (desk.step (.request caller lang)).registry.generation = desk.registry.generation :=
    (step_of_not_isReload rfl).1
  rw [hsame]
  rfl

theorem generation_eq_of_startedSinceReload (hdesk : desk.IsNew) (h : desk.Allows events)
    (hstarted : desk.StartedSinceReload events load) :
    load.generation = (desk.after events).registry.generation := by
  refine allows_induction (P := fun events => desk.StartedSinceReload events load →
    load.generation = (desk.after events).registry.generation) ?_ ?_ h hstarted
  · rintro ⟨before, first, rest, heq, -, -⟩
    simp at heq
  · intro events event hevents hevent ih hstarted
    rw [after_concat]
    rcases startedSinceReload_concat.mp hstarted with hstarts | ⟨hstarted, hreload⟩
    · exact hstarts.generation_eq (consistent_after hdesk hevents)
    · exact (ih hstarted).trans (step_of_not_isReload hreload).1.symm

/-- Of the loads that run, those of the current generation were started since the latest reload. -/
theorem startedSinceReload_of_generation_eq (hdesk : desk.IsNew) (h : desk.Allows events)
    (hrunning : load ∈ (desk.after events).registry.running)
    (hgeneration : load.generation = (desk.after events).registry.generation) :
    desk.StartedSinceReload events load := by
  refine allows_induction (P := fun events =>
    load ∈ (desk.after events).registry.running →
      load.generation = (desk.after events).registry.generation →
      desk.StartedSinceReload events load) ?_ ?_ h hrunning hgeneration
  · obtain ⟨configs, rfl⟩ := hdesk
    intro hrunning
    exact absurd hrunning List.not_mem_nil
  · intro events event hevents hevent ih hrunning hgeneration
    rw [after_concat] at hrunning hgeneration
    rw [startedSinceReload_concat]
    by_cases hbefore : load ∈ (desk.after events).registry.running
    · cases hreload : event.isReload with
      | false =>
        have hsame := hgeneration.trans (step_of_not_isReload hreload).1
        exact Or.inr ⟨ih hbefore hsame, rfl⟩
      | true =>
        -- It ran when the reload came, so it is older than the generation that begins.
        have hle := (consistent_after hdesk hevents).generation_le load hbefore
        cases event with
        | reload given =>
          have hsucc : load.generation = (desk.after events).registry.generation + 1 := hgeneration
          omega
        | request caller lang => cases hreload
        | finish other outcome => cases hreload
        | cancel caller => cases hreload
    · exact Or.inl ⟨hbefore, hrunning⟩

theorem startedSinceReload_iff (hdesk : desk.IsNew) (h : desk.Allows events)
    (hrunning : load ∈ (desk.after events).registry.running) :
    desk.StartedSinceReload events load ↔
      load.generation = (desk.after events).registry.generation :=
  ⟨generation_eq_of_startedSinceReload hdesk h, startedSinceReload_of_generation_eq hdesk h hrunning⟩

/-- A load that was started before the latest reload ends without a trace. -/
theorem registry_finish_late {outcome : Except LoadError B} (hdesk : desk.IsNew)
    (h : desk.Allows events) (hrunning : load ∈ (desk.after events).registry.running)
    (hlate : ¬ desk.StartedSinceReload events load) :
    (desk.after (events ++ [.finish load outcome])).registry =
      (desk.after events).registry.ended load := by
  rw [after_concat]
  refine Registry.finish_late ?_
  intro hgeneration
  exact hlate ((startedSinceReload_iff hdesk h hrunning).mpr hgeneration)

end Desk

end SemanticHighlight
