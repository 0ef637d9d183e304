import Mathlib.Data.List.Basic
import Mathlib.Tactic.SplitIfs
import SemanticHighlight.Registry.Basic

/-!
# Consistent registries

A registry keeps three lists: the loads that run, those that a request may join, and bindings. What
ties them together is that a load may be joined exactly if it runs and belongs to the current
generation (`Consistent.mem_pending`). Requests, ends of running loads and reloads all keep this, and
with it that no language has two such loads, or one next to a binding.
-/

namespace SemanticHighlight

theorem lookup_eq_none {β : Type} {entries : List (Text × β)} {key : Text} :
    entries.lookup key = none ↔ ∀ value, (key, value) ∉ entries := by
  rw [List.lookup_eq_none_iff]
  constructor
  · intro h value hmem
    simpa using h _ hmem
  · intro h entry hmem
    rw [bne_iff_ne]
    rintro rfl
    exact h entry.2 hmem

theorem mem_of_lookup {β : Type} {entries : List (Text × β)} {key : Text} {value : β}
    (h : entries.lookup key = some value) : (key, value) ∈ entries := by
  obtain ⟨before, after, rfl, -⟩ := List.lookup_eq_some_iff.mp h
  simp

theorem findConfig?_lang {configs : List LanguageConfig} {lang : Text} {config : LanguageConfig}
    (h : findConfig? configs lang = some config) : config.lang = lang := by
  simpa using List.find?_some h

namespace Registry

variable {B : Type} {r : Registry B} {lang : Text} {load : Load} {held : Held B} {binding : B}
  {e : LoadError} {outcome : Except LoadError B}

/-! ## What requests and ends of loads do -/

def nextLoad (r : Registry B) (config : LanguageConfig) : Load := ⟨r.started, config, r.generation⟩

def begun (r : Registry B) (lang : Text) (config : LanguageConfig) : Registry B :=
  { r with
    pending := (lang, r.nextLoad config) :: r.pending
    running := r.running ++ [r.nextLoad config]
    started := r.started + 1 }

/-- The answer to a request for a language, and the registry afterwards. -/
inductive Requested (r : Registry B) (lang : Text) : Answer B × Registry B → Prop where
  | cached {held : Held B} (hcached : r.cached.lookup lang = some held) :
      Requested r lang (.cached held, r)
  | joined {load : Load} (hcached : r.cached.lookup lang = none)
      (hpending : r.pending.lookup lang = some load) : Requested r lang (.waiting load, r)
  | unconfigured (hcached : r.cached.lookup lang = none) (hpending : r.pending.lookup lang = none)
      (hconfig : r.config? lang = none) : Requested r lang (.unconfigured, r)
  | begun {config : LanguageConfig} (hcached : r.cached.lookup lang = none)
      (hpending : r.pending.lookup lang = none) (hconfig : r.config? lang = some config) :
      Requested r lang (.waiting (r.nextLoad config), r.begun lang config)

theorem requested_request (r : Registry B) (lang : Text) : r.Requested lang (r.request lang) := by
  unfold request
  cases hcached : r.cached.lookup lang with
  | some held => exact .cached hcached
  | none =>
    cases hpending : r.pending.lookup lang with
    | some load => exact .joined hcached hpending
    | none =>
      cases hconfig : r.config? lang with
      | none => exact .unconfigured hcached hpending hconfig
      | some config => exact .begun hcached hpending hconfig

/-- A load no longer runs. -/
def ended (r : Registry B) (load : Load) : Registry B :=
  { r with running := r.running.filter fun l => l ≠ load }

/-- A load no longer runs, and its language is free for the next. -/
def released (r : Registry B) (load : Load) : Registry B :=
  { r.ended load with pending := r.pending.filter fun p => p.1 ≠ load.config.lang }

def keep (r : Registry B) (lang : Text) (held : Held B) : Registry B :=
  { r with cached := (lang, held) :: r.cached }

theorem finish_late (h : load.generation ≠ r.generation) :
    (r.finish load outcome).1 = r.ended load := by
  unfold finish
  dsimp only
  rw [if_neg h]
  cases outcome with
  | error e => rfl
  | ok binding => rfl

theorem finish_ok (h : load.generation = r.generation) :
    (r.finish load (.ok binding)).1 =
      (r.released load).keep load.config.lang ⟨load, binding⟩ := by
  unfold finish
  dsimp only
  rw [if_pos h]
  rfl

theorem finish_error (h : load.generation = r.generation) :
    (r.finish load (.error e)).1 = r.released load := by
  unfold finish
  dsimp only
  rw [if_pos h]
  rfl

theorem mem_running_ended {l : Load} : l ∈ (r.ended load).running ↔ l ∈ r.running ∧ l ≠ load := by
  simp [ended]

theorem mem_running_released {l : Load} :
    l ∈ (r.released load).running ↔ l ∈ r.running ∧ l ≠ load := mem_running_ended

theorem mem_pending_released {key : Text} {l : Load} :
    (key, l) ∈ (r.released load).pending ↔ (key, l) ∈ r.pending ∧ key ≠ load.config.lang := by
  simp [released]

/-- Whatever a load comes to, it no longer runs. -/
theorem running_finish (r : Registry B) (load : Load) (outcome : Except LoadError B) :
    (r.finish load outcome).1.running = (r.ended load).running := by
  by_cases h : load.generation = r.generation
  · cases outcome with
    | error e => rw [finish_error h, released]
    | ok binding => rw [finish_ok h, keep, released]
  · rw [finish_late h]

theorem mem_cached_finish {key : Text} :
    (key, held) ∈ (r.finish load outcome).1.cached ↔ (key, held) ∈ r.cached ∨
      (load.generation = r.generation ∧ key = load.config.lang ∧ held.load = load ∧
        outcome = .ok held.binding) := by
  by_cases h : load.generation = r.generation
  · cases outcome with
    | error e =>
      rw [finish_error h]
      simp [released, ended]
    | ok binding =>
      obtain ⟨l, kept⟩ := held
      have hcached : (r.finish load (.ok binding)).1.cached =
        (load.config.lang, ⟨load, binding⟩) :: r.cached := by rw [finish_ok h]; rfl
      rw [hcached, List.mem_cons, Prod.mk.injEq, Held.mk.injEq, Except.ok.injEq, or_comm]
      simp [h, eq_comm]
  · have hcached : (r.finish load outcome).1.cached = r.cached := by rw [finish_late h, ended]
    simp [hcached, h]

/-! ## The invariant -/

/-- The load belongs to the current generation and reads the entry that counts for the language. -/
structure Current (r : Registry B) (lang : Text) (load : Load) : Prop where
  generation : load.generation = r.generation
  first : r.config? lang = some load.config

theorem Current.lang_eq (h : r.Current lang load) : load.config.lang = lang :=
  findConfig?_lang h.first

theorem Current.congr {r' : Registry B} (h : r.Current lang load)
    (hgeneration : r'.generation = r.generation) (hconfigs : r'.configs = r.configs) :
    r'.Current lang load := by
  refine ⟨h.generation.trans hgeneration.symm, ?_⟩
  rw [config?, hconfigs]
  exact h.first

structure Consistent (r : Registry B) : Prop where
  number_lt : ∀ l ∈ r.running, l.number < r.started
  generation_le : ∀ l ∈ r.running, l.generation ≤ r.generation
  running_nodup : r.running.Nodup
  mem_pending : ∀ lang l, (lang, l) ∈ r.pending ↔
    l ∈ r.running ∧ l.generation = r.generation ∧ l.config.lang = lang
  pending_current : ∀ lang l, (lang, l) ∈ r.pending → r.Current lang l
  pending_unique : ∀ lang l m, (lang, l) ∈ r.pending → (lang, m) ∈ r.pending → l = m
  cached_current : ∀ lang held, (lang, held) ∈ r.cached → r.Current lang held.load
  cached_apart : ∀ lang held l, (lang, held) ∈ r.cached → (lang, l) ∉ r.pending

theorem Consistent.ofConfigs (configs : List LanguageConfig) :
    (Registry.ofConfigs configs : Registry B).Consistent := by
  constructor <;> simp [Registry.ofConfigs]

/-- Two loads of a language that belong to the current generation and run are the same. -/
theorem Consistent.eq_of_lang_eq (h : r.Consistent) {l m : Load} (hl : l ∈ r.running)
    (hlgen : l.generation = r.generation) (hm : m ∈ r.running)
    (hmgen : m.generation = r.generation) (hlang : l.config.lang = m.config.lang) : l = m := by
  have hlpending := (h.mem_pending m.config.lang l).mpr ⟨hl, hlgen, hlang⟩
  have hmpending := (h.mem_pending m.config.lang m).mpr ⟨hm, hmgen, rfl⟩
  exact h.pending_unique _ _ _ hlpending hmpending

theorem Consistent.nextLoad_notMem (h : r.Consistent) (config : LanguageConfig) :
    r.nextLoad config ∉ r.running := by
  intro hmem
  exact absurd (h.number_lt _ hmem) (Nat.lt_irrefl _)

theorem Consistent.begun {config : LanguageConfig} (h : r.Consistent)
    (hcached : r.cached.lookup lang = none) (hpending : r.pending.lookup lang = none)
    (hconfig : r.config? lang = some config) : (r.begun lang config).Consistent := by
  have hlang : config.lang = lang := findConfig?_lang hconfig
  have hfree : ∀ l, (lang, l) ∉ r.pending := lookup_eq_none.mp hpending
  constructor
  case number_lt =>
    intro l hl
    rcases List.mem_append.mp hl with hl | hl
    · exact Nat.lt_succ_of_lt (h.number_lt l hl)
    · rw [List.mem_singleton.mp hl]
      exact Nat.lt_succ_self _
  case generation_le =>
    intro l hl
    rcases List.mem_append.mp hl with hl | hl
    · exact h.generation_le l hl
    · rw [List.mem_singleton.mp hl]
      exact Nat.le_refl _
  case running_nodup =>
    refine List.nodup_append.mpr ⟨h.running_nodup, by simp, ?_⟩
    intro l hl m hm hsame
    rw [hsame, List.mem_singleton.mp hm] at hl
    exact h.nextLoad_notMem config hl
  case mem_pending =>
    intro key l
    have hold := h.mem_pending key l
    simp only [Registry.begun, List.mem_cons, Prod.mk.injEq, List.mem_append, List.not_mem_nil,
      or_false, hold]
    constructor
    · rintro (⟨rfl, rfl⟩ | ⟨hrunning, hgeneration, hkey⟩)
      · exact ⟨Or.inr rfl, rfl, hlang⟩
      · exact ⟨Or.inl hrunning, hgeneration, hkey⟩
    · rintro ⟨hrunning | rfl, hgeneration, hkey⟩
      · exact Or.inr ⟨hrunning, hgeneration, hkey⟩
      · exact Or.inl ⟨hkey.symm.trans hlang, rfl⟩
  case pending_current =>
    intro key l hl
    rcases List.mem_cons.mp hl with heq | hl
    · cases heq
      exact ⟨rfl, hconfig⟩
    · exact (h.pending_current key l hl).congr rfl rfl
  case pending_unique =>
    intro key l m hl hm
    rcases List.mem_cons.mp hl with hl | hl
    · rcases List.mem_cons.mp hm with hm | hm
      · exact (Prod.mk.inj hl).2.trans (Prod.mk.inj hm).2.symm
      · cases hl
        exact absurd hm (hfree m)
    · rcases List.mem_cons.mp hm with hm | hm
      · cases hm
        exact absurd hl (hfree l)
      · exact h.pending_unique key l m hl hm
  case cached_current =>
    exact fun key held hheld => (h.cached_current key held hheld).congr rfl rfl
  case cached_apart =>
    intro key held l hheld hl
    rcases List.mem_cons.mp hl with heq | hl
    · cases heq
      exact absurd hheld (lookup_eq_none.mp hcached held)
    · exact h.cached_apart key held l hheld hl

theorem Consistent.request (h : r.Consistent) (lang : Text) : (r.request lang).2.Consistent := by
  have hrequested := r.requested_request lang
  generalize r.request lang = asked at hrequested
  cases hrequested with
  | cached hcached => exact h
  | joined hcached hpending => exact h
  | unconfigured hcached hpending hconfig => exact h
  | begun hcached hpending hconfig => exact h.begun hcached hpending hconfig

/-- A load of an earlier generation ends: nobody could join it any more. -/
theorem Consistent.ended (h : r.Consistent) (hgeneration : load.generation ≠ r.generation) :
    (r.ended load).Consistent := by
  constructor
  case number_lt => exact fun l hl => h.number_lt l (mem_running_ended.mp hl).1
  case generation_le => exact fun l hl => h.generation_le l (mem_running_ended.mp hl).1
  case running_nodup => exact h.running_nodup.filter _
  case mem_pending =>
    intro key l
    rw [mem_running_ended]
    refine (h.mem_pending key l).trans ?_
    constructor
    · rintro ⟨hrunning, hcurrent, hkey⟩
      refine ⟨⟨hrunning, ?_⟩, hcurrent, hkey⟩
      rintro rfl
      exact hgeneration hcurrent
    · rintro ⟨⟨hrunning, -⟩, hcurrent, hkey⟩
      exact ⟨hrunning, hcurrent, hkey⟩
  case pending_current =>
    exact fun key l hl => (h.pending_current key l hl).congr rfl rfl
  case pending_unique => exact h.pending_unique
  case cached_current =>
    exact fun key held hheld => (h.cached_current key held hheld).congr rfl rfl
  case cached_apart => exact h.cached_apart

/-- A load of the current generation ends: it is the one that was pending for its language. -/
theorem Consistent.released (h : r.Consistent) (hrunning : load ∈ r.running)
    (hgeneration : load.generation = r.generation) : (r.released load).Consistent := by
  constructor
  case number_lt => exact fun l hl => h.number_lt l (mem_running_released.mp hl).1
  case generation_le => exact fun l hl => h.generation_le l (mem_running_released.mp hl).1
  case running_nodup => exact h.running_nodup.filter _
  case mem_pending =>
    intro key l
    rw [mem_pending_released, h.mem_pending, mem_running_released]
    -- Leaving out the language and leaving out the load come to the same.
    constructor
    · rintro ⟨⟨hl, hcurrent, hkey⟩, hother⟩
      refine ⟨⟨hl, ?_⟩, hcurrent, hkey⟩
      rintro rfl
      exact hother hkey.symm
    · rintro ⟨⟨hl, hne⟩, hcurrent, hkey⟩
      refine ⟨⟨hl, hcurrent, hkey⟩, ?_⟩
      intro hsame
      exact hne (h.eq_of_lang_eq hl hcurrent hrunning hgeneration (hkey.trans hsame))
  case pending_current =>
    intro key l hl
    exact (h.pending_current key l (mem_pending_released.mp hl).1).congr rfl rfl
  case pending_unique =>
    intro key l m hl hm
    exact h.pending_unique key l m (mem_pending_released.mp hl).1 (mem_pending_released.mp hm).1
  case cached_current =>
    exact fun key held hheld => (h.cached_current key held hheld).congr rfl rfl
  case cached_apart =>
    intro key held l hheld hl
    exact h.cached_apart key held l hheld (mem_pending_released.mp hl).1

theorem Consistent.keep (h : r.Consistent) (hcurrent : r.Current lang held.load)
    (hfree : ∀ l, (lang, l) ∉ r.pending) : (r.keep lang held).Consistent where
  number_lt := h.number_lt
  generation_le := h.generation_le
  running_nodup := h.running_nodup
  mem_pending := h.mem_pending
  pending_current key l hl := (h.pending_current key l hl).congr rfl rfl
  pending_unique := h.pending_unique
  cached_current := by
    intro key kept hkept
    rcases List.mem_cons.mp hkept with heq | hkept
    · cases heq
      exact hcurrent.congr rfl rfl
    · exact (h.cached_current key kept hkept).congr rfl rfl
  cached_apart := by
    intro key kept l hkept
    rcases List.mem_cons.mp hkept with heq | hkept
    · cases heq
      exact hfree l
    · exact h.cached_apart key kept l hkept

theorem Consistent.finish (h : r.Consistent) (hrunning : load ∈ r.running)
    (outcome : Except LoadError B) : (r.finish load outcome).1.Consistent := by
  by_cases hgeneration : load.generation = r.generation
  · have hreleased := h.released hrunning hgeneration
    cases outcome with
    | error e =>
      rw [finish_error hgeneration]
      exact hreleased
    | ok binding =>
      rw [finish_ok hgeneration]
      have hpending := (h.mem_pending load.config.lang load).mpr ⟨hrunning, hgeneration, rfl⟩
      refine hreleased.keep ((h.pending_current _ _ hpending).congr rfl rfl) ?_
      intro l hl
      exact (mem_pending_released.mp hl).2 rfl
  · rw [finish_late hgeneration]
    exact h.ended hgeneration

theorem Consistent.reload (h : r.Consistent) (configs : Option (List LanguageConfig)) :
    (r.reload configs).1.Consistent where
  number_lt := h.number_lt
  generation_le l hl := Nat.le_succ_of_le (h.generation_le l hl)
  running_nodup := h.running_nodup
  mem_pending key l := by
    constructor
    · exact fun hl => absurd hl List.not_mem_nil
    · rintro ⟨hrunning, hgeneration, -⟩
      have hle := h.generation_le l hrunning
      have hsucc : l.generation = r.generation + 1 := hgeneration
      omega
  pending_current key l hl := absurd hl List.not_mem_nil
  pending_unique key l m hl := absurd hl List.not_mem_nil
  cached_current key held hheld := absurd hheld List.not_mem_nil
  cached_apart key held l hheld := absurd hheld List.not_mem_nil

end Registry

end SemanticHighlight
