import Mathlib.Data.List.Induction
import SemanticHighlight.Proofs.Registry.History
import SemanticHighlight.Proofs.Server.Standing

/-!
# Languages of an editor

Settings of an editor that have languages are served from then on. What is served now and what a
reload will serve are kept apart, and settings without languages, such as a wish to log everything,
take the place of those with languages only in the second. So the languages of an editor stay in force
until such settings are followed by a reload that goes through, and then the configuration is served
instead (`clientLanguages_served`).
-/

namespace SemanticHighlight

/-- Settings of the editor, reloads and changes of the surroundings. -/
def ServerEvent.Administers {World : Type} : ServerEvent World → Prop
  | optionsChanged _ | reloadRequested | worldChanged _ => True
  | _ => False

variable {World Grammar Query : Type}

namespace Server

open Serving

section

variable [Config.Services]

/-- The settings that were accepted last. -/
def latest? (server : Server World Grammar Query) (root : Option Path)
    (events : List (ServerEvent World)) : Option (ClientSettings × Config) :=
  (events.filterMap (server.accepted? root)).getLast?

/-- The languages that an event puts into force. -/
def brought? (server : Server World Grammar Query) (root : Option Path) (event : ServerEvent World) :
    Option (List LanguageConfig) :=
  ((server.accepted? root event).filter fun given => given.1.languages.isSome).map fun given =>
    given.2.languages

/-- The languages of the settings that were accepted last among those that have any. -/
def clientLanguages? (server : Server World Grammar Query) (root : Option Path)
    (events : List (ServerEvent World)) : Option (List LanguageConfig) :=
  (events.filterMap (server.brought? root)).getLast?

/-- A reload went through while the settings accepted last had no languages, and none that have any
were accepted since. -/
def Overruled (server : Server World Grammar Query) (s : ServerState World Grammar Query)
    (events : List (ServerEvent World)) : Prop :=
  ∃ before after, events = before ++ .reloadRequested :: after ∧
    (∃ given, server.latest? s.root before = some given ∧ given.1.languages = none) ∧
    (∃ reply, (server.step (server.after s before) .reloadRequested).1 = .ok reply) ∧
    server.clientLanguages? s.root after = none

variable {server : Server World Grammar Query} {x : Standing} {s : ServerState World Grammar Query}
  {root : Option Path} {events : List (ServerEvent World)} {event : ServerEvent World}

theorem brought?_of_none (h : server.accepted? root event = none) :
    server.brought? root event = none := by
  rw [brought?, h]
  rfl

theorem brought?_of_some {given : ClientSettings × Config}
    (h : server.accepted? root event = some given) :
    server.brought? root event =
      if given.1.languages.isSome then some given.2.languages else none := by
  rw [brought?, h]
  cases hlanguages : given.1.languages.isSome <;> simp [Option.filter, hlanguages]

theorem latest?_concat :
    server.latest? root (events ++ [event]) =
      (server.accepted? root event).or (server.latest? root events) := by
  unfold latest?
  cases h : server.accepted? root event <;> simp [List.filterMap_append, h]

theorem clientLanguages?_concat :
    server.clientLanguages? root (events ++ [event]) =
      (server.brought? root event).or (server.clientLanguages? root events) := by
  unfold clientLanguages?
  cases h : server.brought? root event <;> simp [List.filterMap_append, h]

theorem exists_latest? {langs : List LanguageConfig}
    (h : server.clientLanguages? root events = some langs) :
    ∃ given, server.latest? root events = some given ∧
      (given.1.languages.isSome → given.2.languages = langs) := by
  induction events using List.reverseRecOn with
  | nil => cases h
  | append_singleton events event ih =>
    rw [clientLanguages?_concat] at h
    rw [latest?_concat]
    cases haccepted : server.accepted? root event with
    | none =>
      rw [brought?_of_none haccepted, Option.none_or] at h
      rw [Option.none_or]
      exact ih h
    | some given =>
      refine ⟨given, Option.some_or, fun hlanguages => ?_⟩
      rw [brought?_of_some haccepted, if_pos hlanguages, Option.some_or] at h
      exact Option.some.inj h

theorem readSettings_of_latest? {given : ClientSettings × Config}
    (h : server.latest? root events = some given) :
    server.readSettings root given.1 = .ok given.2 := by
  obtain ⟨event, -, haccepted⟩ := List.mem_filterMap.mp (List.mem_of_getLast? h)
  exact readSettings_of_accepted? haccepted

/-- One more event overrules the languages if it is a reload that goes through without any, and
leaves them overruled unless it brings some. -/
theorem overruled_concat :
    server.Overruled s (events ++ [event]) ↔
      (server.Overruled s events ∧ server.brought? s.root event = none) ∨
        (event = .reloadRequested ∧
          (∃ given, server.latest? s.root events = some given ∧ given.1.languages = none) ∧
          ∃ reply, (server.step (server.after s events) .reloadRequested).1 = .ok reply) := by
  constructor
  · rintro ⟨before, after, heq, hlatest, hreply, hafter⟩
    rcases Desk.concat_eq_append_cons heq with ⟨rfl, rfl, rfl⟩ | ⟨rest, rfl, rfl⟩
    · exact Or.inr ⟨rfl, hlatest, hreply⟩
    · rw [clientLanguages?_concat, Option.or_eq_none_iff] at hafter
      exact Or.inl ⟨⟨before, rest, rfl, hlatest, hreply, hafter.2⟩, hafter.1⟩
  · rintro (⟨⟨before, after, rfl, hlatest, hreply, hafter⟩, hbrought⟩ | ⟨rfl, hlatest, hreply⟩)
    · refine ⟨before, after ++ [event], by simp, hlatest, hreply, ?_⟩
      rw [clientLanguages?_concat, hbrought, hafter]
      rfl
    · exact ⟨events, [], rfl, hlatest, hreply, rfl⟩

/-- While languages are overruled the settings accepted last have none. -/
theorem Overruled.latest_silent (h : server.Overruled s events) :
    ∃ given, server.latest? s.root events = some given ∧ given.1.languages = none := by
  induction events using List.reverseRecOn with
  | nil =>
    obtain ⟨before, after, heq, -⟩ := h
    simp at heq
  | append_singleton events event ih =>
    rw [latest?_concat]
    rcases overruled_concat.mp h with ⟨hbefore, hbrought⟩ | ⟨rfl, hlatest, -⟩
    · cases haccepted : server.accepted? s.root event with
      | none => exact ih hbefore
      | some given =>
        rw [brought?_of_some haccepted] at hbrought
        refine ⟨given, Option.some_or, ?_⟩
        simpa using hbrought
    · exact hlatest

/-- Where the languages stand after some events: those of the editor are served, or they are overruled
and the configuration is. -/
structure Follows (server : Server World Grammar Query) (s : ServerState World Grammar Query)
    (events : List (ServerEvent World)) (x : Standing) : Prop where
  root : x.root = s.root
  settings : ∀ given, server.latest? s.root events = some given → x.settings = some given.1
  served : ∀ langs, server.clientLanguages? s.root events = some langs →
    (¬ server.Overruled s events → x.configs = langs) ∧
      (server.Overruled s events → x.configs = x.config.languages)

theorem Follows.quiet (h : server.Follows s events x) (haccepted : server.accepted? s.root event = none)
    (hreload : event ≠ .reloadRequested) : server.Follows s (events ++ [event]) x where
  root := h.root
  settings given hlatest := by
    rw [latest?_concat, haccepted] at hlatest
    exact h.settings given hlatest
  served langs hlangs := by
    have hbrought := brought?_of_none haccepted
    rw [clientLanguages?_concat, hbrought] at hlangs
    have hsame : server.Overruled s (events ++ [event]) ↔ server.Overruled s events := by
      rw [overruled_concat]
      simp [hbrought, hreload]
    rw [hsame]
    exact h.served langs hlangs

theorem Follows.accepting (h : server.Follows s events x) {options : Json}
    {given : ClientSettings × Config}
    (haccepted : server.accepted? s.root (.optionsChanged options) = some given) :
    server.Follows s (events ++ [.optionsChanged options]) (x.accepting given) where
  root := h.root
  settings latest hlatest := by
    rw [latest?_concat, haccepted, Option.some_or] at hlatest
    cases hlatest
    rfl
  served langs hlangs := by
    have hbrought := brought?_of_some haccepted
    rw [clientLanguages?_concat, hbrought] at hlangs
    rw [overruled_concat, hbrought]
    unfold Standing.accepting
    by_cases hlanguages : given.1.languages.isSome
    · rw [if_pos hlanguages, Option.some_or] at hlangs
      cases hlangs
      simp [hlanguages]
    · rw [if_neg hlanguages, Option.none_or] at hlangs
      have hserved := h.served langs hlangs
      simpa [hlanguages] using hserved

theorem Follows.reload_languages (h : server.Follows s events (server.after s events).standing)
    {given : ClientSettings × Config} (hlatest : server.latest? s.root events = some given)
    (hlanguages : given.1.languages.isSome) :
    ¬ server.Overruled s (events ++ [.reloadRequested]) ∧
      (server.clientLanguages? s.root events = some given.2.languages →
        (server.step (server.after s events) .reloadRequested).2.standing.configs =
          given.2.languages) := by
  have hnotSilent : ¬ ∃ other, server.latest? s.root events = some other ∧
      other.1.languages = none := by
    rintro ⟨other, hother, hnone⟩
    rw [hlatest, Option.some.injEq] at hother
    rw [hother, hnone] at hlanguages
    cases hlanguages
  constructor
  · rw [overruled_concat]
    rintro (⟨hbefore, -⟩ | ⟨-, hsilent, -⟩)
    · exact hnotSilent hbefore.latest_silent
    · exact hnotSilent hsilent
  · intro hclient
    have hserved := (h.served _ hclient).1 fun hbefore => hnotSilent hbefore.latest_silent
    have hread : server.readSettings (server.after s events).standing.root given.1 = .ok given.2 := by
      rw [h.root]
      exact readSettings_of_latest? hlatest
    have hreload := leads_reloadRequested
      (leads_reload_languages (h.settings given hlatest) hlanguages hread hserved)
    obtain ⟨config, hstanding⟩ := (ended_step server hreload rfl).state
    exact (congrArg Standing.configs hstanding).trans hserved

theorem Follows.reload_silent (h : server.Follows s events (server.after s events).standing)
    {given : ClientSettings × Config} (hlatest : server.latest? s.root events = some given)
    (hsilent : given.1.languages = none) {langs : List LanguageConfig}
    (hclient : server.clientLanguages? s.root events = some langs) :
    (¬ server.Overruled s (events ++ [.reloadRequested]) →
        (server.step (server.after s events) .reloadRequested).2.standing.configs = langs) ∧
      (server.Overruled s (events ++ [.reloadRequested]) →
        (server.step (server.after s events) .reloadRequested).2.standing.configs =
          (server.step (server.after s events) .reloadRequested).2.standing.config.languages) := by
  have hnone : ∀ settings ∈ (server.after s events).standing.settings, settings.languages = none := by
    intro settings hmem
    rw [h.settings given hlatest] at hmem
    cases hmem
    exact hsilent
  have hended := ended_step server (leads_reloadRequested (leads_reload_silent hnone))
    (s := server.after s events) rfl
  have hbrought : server.brought? s.root (.reloadRequested : ServerEvent World) = none := rfl
  rw [overruled_concat]
  rcases hrun : server.step (server.after s events) .reloadRequested with ⟨e | reply, s₁⟩
  · have hsame : s₁.standing = (server.after s events).standing := by
      rw [hrun] at hended
      exact hended
    simpa [hbrought, hsame] using h.served langs hclient
  · have hconfigs : s₁.standing.configs = s₁.standing.config.languages := by
      rw [hrun] at hended
      exact hended.1
    refine ⟨fun hnot => absurd (Or.inr ⟨rfl, ⟨given, hlatest, hsilent⟩, reply, rfl⟩) hnot, ?_⟩
    exact fun _ => hconfigs

theorem Follows.reload (h : server.Follows s events (server.after s events).standing) :
    server.Follows s (events ++ [.reloadRequested])
      (server.step (server.after s events) .reloadRequested).2.standing where
  root := (step_reload_keeps server _).1.trans h.root
  settings given hlatest := by
    rw [latest?_concat] at hlatest
    exact (step_reload_keeps server _).2.trans (h.settings given hlatest)
  served langs hlangs := by
    rw [clientLanguages?_concat] at hlangs
    have hclient : server.clientLanguages? s.root events = some langs := hlangs
    obtain ⟨given, hlatest, hsame⟩ := exists_latest? hclient
    cases hlanguages : given.1.languages with
    | none => exact h.reload_silent hlatest hlanguages hclient
    | some value =>
      have hsome : given.1.languages.isSome := by simp [hlanguages]
      obtain ⟨hnot, hserved⟩ := h.reload_languages hlatest hsome
      have hlangs' : given.2.languages = langs := hsame hsome
      subst hlangs'
      exact ⟨fun _ => hserved hclient, fun hoverruled => absurd hoverruled hnot⟩

/-- Whatever the events, the languages stand as they say. -/
theorem follows_after (server : Server World Grammar Query) (s : ServerState World Grammar Query)
    {events : List (ServerEvent World)} (hevents : ∀ event ∈ events, event.Administers) :
    server.Follows s events (server.after s events).standing := by
  induction events using List.reverseRecOn with
  | nil =>
    refine ⟨rfl, ?_, ?_⟩
    · intro given hnone
      cases hnone
    · intro langs hnone
      cases hnone
  | append_singleton events event ih =>
    have hbefore := ih fun e he => hevents e (List.mem_append_left _ he)
    rw [after_append, after_cons, after_nil]
    cases event with
    | optionsChanged options =>
      have hroot : (server.after s events).root = s.root := hbefore.root
      rw [(step_optionsChanged server _ options).2, hroot]
      cases haccepted : server.accepted? s.root (.optionsChanged options) with
      | none => exact hbefore.quiet haccepted (by simp)
      | some given => exact hbefore.accepting haccepted
    | reloadRequested => exact hbefore.reload
    | worldChanged change => exact hbefore.quiet rfl (by simp)
    | _ => exact absurd (hevents _ (List.mem_append_right _ (List.mem_singleton_self _))) id

/-- Settings are accepted if they have something to say and amount to a configuration. After any series
of settings, reloads and changes of the surroundings in which settings with languages were accepted,
the languages of the last such settings are served, unless a reload went through when the settings
accepted last had none; then the languages of the configuration are. -/
theorem clientLanguages_served (server : Server World Grammar Query)
    (s : ServerState World Grammar Query) (events : List (ServerEvent World))
    (hevents : ∀ event ∈ events, event.Administers) {langs : List LanguageConfig}
    (hlangs : server.clientLanguages? s.root events = some langs) :
    let s' := server.after s events
    (∀ options, (server.step s' (.optionsChanged options)).1 = .ok (.accepted true) ↔
        (server.accepted? s.root (.optionsChanged options)).isSome) ∧
      (¬ server.Overruled s events → s'.session.registry.configs = langs) ∧
      (server.Overruled s events → s'.session.registry.configs = s'.config.languages) := by
  have hfollows := follows_after server s hevents
  have hroot : (server.after s events).root = s.root := hfollows.root
  refine ⟨fun options => ?_, hfollows.served langs hlangs⟩
  rw [(step_optionsChanged server _ options).1, hroot]

end

/-! ## A wish to log everything -/

/-- Serves what it was built from or what an editor says; no file is read again. -/
def filelessServer : Server Unit Unit Unit where
  provider :=
    ⟨⟨fun _ _ => true, fun _ _ => .ok []⟩, fun config => pure (.ok ⟨config.lang, (), (), none, none⟩, []),
      .standard, 1⟩
  files _ := .empty []
  homes := ⟨"/home", []⟩
  configPath := none
  port := usualPort

def onlyX : Json :=
  .object [("languageConfigs",
    .list [.object [("lang", .text "x"), ("parser", .text "module:g"), ("highlights", .text "/q")]])]

/-- The language of the editor is served until it asks for a log of everything and for a reload. -/
theorem clientLanguages_served_debug :
    let s : ServerState Unit Unit Unit := .ofConfig filelessServer () {} none
    let events : List (ServerEvent Unit) :=
      [.optionsChanged onlyX, .optionsChanged (.object [("debug", .bool true)]), .reloadRequested]
    (∀ event ∈ events, event.Administers) ∧
      (filelessServer.clientLanguages? s.root events).map (·.map LanguageConfig.lang) =
        some [Text.ofString "x"] ∧
      filelessServer.Overruled s events ∧
      (filelessServer.after s events).session.registry.configs = [] := by
  intro s events
  have hevents : ∀ event ∈ events, event.Administers := by
    simp [events, ServerEvent.Administers]
  have hclient : (filelessServer.clientLanguages? s.root events).map (·.map LanguageConfig.lang) =
      some [Text.ofString "x"] := by decide +kernel
  have hlatest : (filelessServer.latest? s.root (events.take 2)).map (·.1.languages.isNone) =
      some true := by decide +kernel
  have hreply : (filelessServer.step (filelessServer.after s (events.take 2))
      .reloadRequested).1.toOption.isSome = true := by decide +kernel
  have hoverruled : filelessServer.Overruled s events := by
    refine ⟨events.take 2, [], rfl, ?_, ?_, rfl⟩
    · obtain ⟨given, hgiven, hnone⟩ := Option.map_eq_some_iff.mp hlatest
      exact ⟨given, hgiven, Option.isNone_iff_eq_none.mp hnone⟩
    · cases hrun : (filelessServer.step (filelessServer.after s (events.take 2)) .reloadRequested).1 with
      | error e => simp [hrun, Except.toOption] at hreply
      | ok reply => exact ⟨reply, rfl⟩
  obtain ⟨langs, hlangs, -⟩ := Option.map_eq_some_iff.mp hclient
  have hserved := (clientLanguages_served filelessServer s events hevents hlangs).2.2 hoverruled
  have hconfig : (filelessServer.after s events).config.languages = [] := by decide +kernel
  exact ⟨hevents, hclient, hoverruled, hserved.trans hconfig⟩

end Server
end SemanticHighlight
