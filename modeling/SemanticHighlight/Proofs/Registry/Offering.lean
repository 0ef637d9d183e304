import SemanticHighlight.Proofs.Registry.Freshness

/-!
# Languages that are offered

A language is offered for whole documents if some entry for it is not for injections only, but it is
the first entry that is loaded. The two agree unless the first entry is for injections only and a later
one is not; then the language is offered and highlighted by an entry that is not meant for whole
documents (`provides_after`).
-/

namespace SemanticHighlight

variable {configs : List LanguageConfig} {lang : Text}

/-- The first entry of the language is for injections only, and another one is not. -/
def Shadowed (configs : List LanguageConfig) (lang : Text) : Prop :=
  ∃ first, findConfig? configs lang = some first ∧ first.injectionOnly = true ∧
    ∃ other ∈ configs, other.lang = lang ∧ other.injectionOnly = false

/-- The entry that counts for the language is meant for whole documents. -/
def OfferedByFirst (configs : List LanguageConfig) (lang : Text) : Prop :=
  ∃ first, findConfig? configs lang = some first ∧ first.injectionOnly = false

theorem mem_documentLanguages : lang ∈ documentLanguages configs ↔
    ∃ config ∈ configs, config.lang = lang ∧ config.injectionOnly = false := by
  simp only [documentLanguages, List.mem_map, List.mem_filter, Bool.not_eq_true', and_assoc]
  exact exists_congr fun config => and_congr_right fun _ => and_comm

theorem OfferedByFirst.mem_documentLanguages (h : OfferedByFirst configs lang) :
    lang ∈ documentLanguages configs := by
  obtain ⟨first, hfirst, hwhole⟩ := h
  exact SemanticHighlight.mem_documentLanguages.mpr
    ⟨first, List.mem_of_find?_eq_some hfirst, findConfig?_lang hfirst, hwhole⟩

theorem shadowed_iff : Shadowed configs lang ↔
    lang ∈ documentLanguages configs ∧ ¬ OfferedByFirst configs lang := by
  constructor
  · rintro ⟨first, hfirst, honly, hother⟩
    refine ⟨mem_documentLanguages.mpr hother, ?_⟩
    rintro ⟨found, hfound, hwhole⟩
    rw [hfirst, Option.some.injEq] at hfound
    rw [← hfound, honly] at hwhole
    cases hwhole
  · rintro ⟨hmem, hnot⟩
    obtain ⟨other, hother, hlang, hwhole⟩ := mem_documentLanguages.mp hmem
    cases hfirst : findConfig? configs lang with
    | none => exact absurd hlang (by simpa using List.find?_eq_none.mp hfirst other hother)
    | some first =>
      cases honly : first.injectionOnly with
      | false => exact absurd ⟨first, hfirst, honly⟩ hnot
      | true => exact ⟨first, hfirst, honly, other, hother, hlang, hwhole⟩

namespace Desk

variable {B : Type}

/-- After any requests, ends of loads, cancellations and reloads, a language is offered if some current
entry for it is not for injections only. This is the answer of the entry that is loaded unless the
language is shadowed, and then whatever is cached for it was built from an entry for injections only. -/
theorem provides_after {events : List (Event B)} (h : (ofConfigs configs : Desk B).Allows events)
    (lang : Text) :
    let registry := ((ofConfigs configs : Desk B).after events).registry
    let entries := currentConfigs configs events
    registry.config? lang = findConfig? entries lang ∧
      (registry.provides lang = true ↔
        ∃ config ∈ entries, config.lang = lang ∧ config.injectionOnly = false) ∧
      ((registry.provides lang = true ↔ OfferedByFirst entries lang) ↔ ¬ Shadowed entries lang) ∧
      (Shadowed entries lang → ∀ held, (lang, held) ∈ registry.cached →
        held.load.config.injectionOnly = true) := by
  intro registry entries
  have hconfigs : registry.configs = entries := configs_after (ofConfigs configs : Desk B) events
  have hprovides : registry.provides lang = true ↔ lang ∈ documentLanguages entries := by
    rw [Registry.provides, hconfigs, List.contains_iff_mem]
  refine ⟨by rw [Registry.config?, hconfigs], hprovides.trans mem_documentLanguages, ?_, ?_⟩
  · rw [hprovides, shadowed_iff]
    have hoffered : OfferedByFirst entries lang → lang ∈ documentLanguages entries :=
      OfferedByFirst.mem_documentLanguages
    tauto
  · rintro ⟨first, hfirst, honly, -⟩ held hcached
    have hheld : findConfig? entries lang = some held.load.config :=
      (upToDate_of_cached (isNew_ofConfigs configs) h hcached).first
    rw [hfirst, Option.some.injEq] at hheld
    rw [← hheld]
    exact honly

/-- A reload brings an entry for injections in front of one for documents, and the language is asked
for. -/
theorem provides_after_shadowed :
    let hidden : LanguageConfig := ⟨"x", "module:g", "/q/i", none, true, none, none⟩
    let whole : LanguageConfig := ⟨"x", "module:g", "/q/d", none, false, none, none⟩
    let load : Load := ⟨0, hidden, 1⟩
    let events : List (Event Nat) :=
      [.reload (some [hidden, whole]), .request "a" "x", .finish load (.ok 7)]
    let desk : Desk Nat := .ofConfigs [whole]
    desk.Allows events ∧ Shadowed (currentConfigs [whole] events) "x" ∧
      (desk.after events).registry.provides "x" = true ∧
      (Text.ofString "x", ⟨load, 7⟩) ∈ (desk.after events).registry.cached ∧
      load.config.injectionOnly = true ∧
      ¬ ((desk.after events).registry.provides "x" = true ↔
        OfferedByFirst (currentConfigs [whole] events) "x") := by
  intro hidden whole load events desk
  have hallows : desk.Allows events := by decide +kernel
  have hshadowed : Shadowed (currentConfigs [whole] events) "x" :=
    ⟨hidden, by decide +kernel, rfl, whole, by decide +kernel, rfl, rfl⟩
  have hcached : (Text.ofString "x", ⟨load, 7⟩) ∈ (desk.after events).registry.cached :=
    List.mem_singleton_self _
  obtain ⟨-, hprovides, hagree, honly⟩ := provides_after hallows "x"
  exact ⟨hallows, hshadowed, hprovides.mpr hshadowed.choose_spec.2.2, hcached,
    honly hshadowed _ hcached, fun h => hagree.mp h hshadowed⟩

end Desk
end SemanticHighlight
