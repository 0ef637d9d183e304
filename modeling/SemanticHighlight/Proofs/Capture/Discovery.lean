import Mathlib.Data.List.Basic
import SemanticHighlight.Capture.Discovery

/-!
# The rule that decides

What a match says about its language is stated here without computing it: which language each rule
names, which capture each rule takes as the region, and that the first rule with a language decides.
`injection?` then returns a language and a region exactly if one rule decides for the language and
takes the region. Whether the language is configured is no part of this except under the last rule,
so a rule that decides for an unknown language, or finds no region, leaves nothing to later rules.
-/

namespace SemanticHighlight.Match

/-- The capture is the first one of the match with the property. -/
def IsFirst (m : Match) (p : Capture → Prop) (c : Capture) : Prop :=
  p c ∧ ∃ before after, m.captures = before ++ c :: after ∧ ∀ earlier ∈ before, ¬ p earlier

/-- How a match can name a language. -/
inductive Rule where
  | directive
  | spelled
  | named
  deriving DecidableEq, Repr

/-- A rule of a lower rank comes first. -/
def Rule.rank : Rule → Nat
  | directive => 0
  | spelled => 1
  | named => 2

/-- The rule names the language in a match. -/
inductive Names (m : Match) (isConfigured : Text → Bool) : Rule → Text → Prop where
  | directive {lang : Text} (hsetting : m.settings.lookup languageKey = some (some lang))
      (hne : lang ≠ []) : Names m isConfigured .directive lang
  | spelled {c : Capture} (hfirst : m.IsFirst (fun c => c.name = languageKey) c)
      (hne : c.text.trim ≠ []) : Names m isConfigured .spelled c.text.trim
  | named {c : Capture} (hfirst : m.IsFirst (fun c => isConfigured c.name = true) c) :
      Names m isConfigured .named c.name

/-- The rule takes the capture as the region of a match. -/
inductive Takes (m : Match) (isConfigured : Text → Bool) : Rule → Capture → Prop where
  | content {rule : Rule} {c : Capture} (hrule : rule ≠ .named)
      (hfirst : m.IsFirst (fun c => c.name = contentName) c) : Takes m isConfigured rule c
  | head {c : Capture} {rest : List Capture} (hnone : ∀ c ∈ m.captures, c.name ≠ contentName)
      (hcaptures : m.captures = c :: rest) : Takes m isConfigured .directive c
  | named {c : Capture} (hfirst : m.IsFirst (fun c => isConfigured c.name = true) c) :
      Takes m isConfigured .named c

/-- The rule is the first of all that name a language, and names this one. -/
def Decides (m : Match) (isConfigured : Text → Bool) (rule : Rule) (lang : Text) : Prop :=
  m.Names isConfigured rule lang ∧
    ∀ earlier : Rule, earlier.rank < rule.rank → ∀ other, ¬ m.Names isConfigured earlier other

variable {m m' : Match} {isConfigured : Text → Bool} {rule : Rule} {lang name : Text}
  {c content : Capture}

/-! ## Each rule on its own -/

theorem find?_captures {p : Capture → Prop} [DecidablePred p] :
    (m.captures.find? fun c => p c) = some c ↔ m.IsFirst p c := by
  simp [IsFirst, List.find?_eq_some_iff_append]

theorem find?_eq_some : m.find? name = some c ↔ m.IsFirst (fun c => c.name = name) c :=
  find?_captures

theorem find?_eq_none : m.find? name = none ↔ ∀ c ∈ m.captures, c.name ≠ name := by
  simp [find?]

theorem named?_eq_some :
    m.named? isConfigured = some c ↔ m.IsFirst (fun c => isConfigured c.name = true) c := by
  rw [← find?_captures]
  simp [named?]

theorem directive?_eq_some :
    m.directive? = some lang ↔ m.Names isConfigured .directive lang := by
  simp only [directive?, setting?, Option.filter_eq_some_iff, Option.join_eq_some_iff,
    decide_eq_true_eq]
  constructor
  · rintro ⟨hsetting, hne⟩
    exact .directive hsetting hne
  · rintro ⟨hsetting, hne⟩
    exact ⟨hsetting, hne⟩

theorem spelled?_eq_some : m.spelled? = some lang ↔ m.Names isConfigured .spelled lang := by
  simp only [spelled?, Option.filter_eq_some_iff, Option.map_eq_some_iff, decide_eq_true_eq,
    find?_eq_some]
  constructor
  · rintro ⟨⟨c, hfirst, rfl⟩, hne⟩
    exact .spelled hfirst hne
  · intro h
    cases h with
    | spelled hfirst hne => exact ⟨⟨_, hfirst, rfl⟩, hne⟩

theorem named?_map_eq_some :
    (m.named? isConfigured).map Capture.name = some lang ↔ m.Names isConfigured .named lang := by
  simp only [Option.map_eq_some_iff, named?_eq_some]
  constructor
  · rintro ⟨c, hfirst, rfl⟩
    exact .named hfirst
  · intro h
    cases h with
    | named hfirst => exact ⟨_, hfirst, rfl⟩

def nameOf? (m : Match) (isConfigured : Text → Bool) : Rule → Option Text
  | .directive => m.directive?
  | .spelled => m.spelled?
  | .named => (m.named? isConfigured).map Capture.name

theorem nameOf?_eq_some : m.nameOf? isConfigured rule = some lang ↔ m.Names isConfigured rule lang := by
  cases rule with
  | directive => exact directive?_eq_some
  | spelled => exact spelled?_eq_some
  | named => exact named?_map_eq_some

theorem nameOf?_eq_none :
    m.nameOf? isConfigured rule = none ↔ ∀ lang, ¬ m.Names isConfigured rule lang := by
  simp only [Option.eq_none_iff_forall_ne_some, ne_eq, nameOf?_eq_some]

def contentOf? (m : Match) (isConfigured : Text → Bool) : Rule → Option Capture
  | .directive => (m.find? contentName).or m.captures.head?
  | .spelled => m.find? contentName
  | .named => m.named? isConfigured

theorem contentOf?_eq_some :
    m.contentOf? isConfigured rule = some c ↔ m.Takes isConfigured rule c := by
  cases rule with
  | directive =>
    simp only [contentOf?, Option.or_eq_some_iff, find?_eq_some, find?_eq_none,
      List.head?_eq_some_iff]
    constructor
    · rintro (hfirst | ⟨hnone, rest, hcaptures⟩)
      · exact .content (by decide) hfirst
      · exact .head hnone hcaptures
    · intro h
      cases h with
      | content _ hfirst => exact Or.inl hfirst
      | head hnone hcaptures => exact Or.inr ⟨hnone, _, hcaptures⟩
  | spelled =>
    refine find?_eq_some.trans ⟨.content (by decide), fun h => ?_⟩
    cases h with
    | content _ hfirst => exact hfirst
  | named =>
    refine named?_eq_some.trans ⟨.named, fun h => ?_⟩
    cases h with
    | content hrule _ => exact absurd rfl hrule
    | named hfirst => exact hfirst

/-! ## The rules together -/

theorem Rule.rank_inj {rule rule' : Rule} (h : rule.rank = rule'.rank) : rule = rule' := by
  cases rule <;> cases rule' <;> first | rfl | cases h

theorem Decides.unique {rule' : Rule} {lang' : Text} (h : m.Decides isConfigured rule lang)
    (h' : m.Decides isConfigured rule' lang') : rule = rule' ∧ lang = lang' := by
  rcases Nat.lt_trichotomy rule.rank rule'.rank with hlt | heq | hgt
  · exact absurd h.1 (h'.2 rule hlt lang)
  · obtain rfl := Rule.rank_inj heq
    have hsame := (nameOf?_eq_some.mpr h.1).symm.trans (nameOf?_eq_some.mpr h'.1)
    exact ⟨rfl, Option.some.inj hsame⟩
  · exact absurd h'.1 (h.2 rule' hgt lang')

theorem Names.exists_decides (h : m.Names isConfigured rule lang) :
    ∃ rule lang, m.Decides isConfigured rule lang := by
  -- By strong induction on the rank: either the rule decides or an earlier one names a language.
  induction hrank : rule.rank using Nat.strongRecOn generalizing rule lang with
  | _ rank ih =>
    by_cases hearlier : ∃ earlier : Rule, earlier.rank < rule.rank ∧
        ∃ other, m.Names isConfigured earlier other
    · obtain ⟨earlier, hlt, other, hother⟩ := hearlier
      exact ih earlier.rank (hrank ▸ hlt) hother rfl
    · exact ⟨rule, lang, h, fun earlier hlt other hother =>
        hearlier ⟨earlier, hlt, other, hother⟩⟩

/-- The rule that decides also says what the region is, and no other does. -/
theorem Decides.injection?_eq (h : m.Decides isConfigured rule lang) :
    m.injection? isConfigured =
      (m.contentOf? isConfigured rule).map fun content => (lang, content) := by
  obtain ⟨hnames, hfirst⟩ := h
  have hnone : ∀ earlier : Rule, earlier.rank < rule.rank → m.nameOf? isConfigured earlier = none :=
    fun earlier hlt => nameOf?_eq_none.mpr (hfirst earlier hlt)
  have hsome := nameOf?_eq_some.mpr hnames
  cases rule with
  | directive =>
    have hdirective : m.directive? = some lang := hsome
    simp only [injection?, hdirective, contentOf?]
  | spelled =>
    have hdirective : m.directive? = none := hnone .directive (by decide)
    have hspelled : m.spelled? = some lang := hsome
    simp only [injection?, hdirective, hspelled, contentOf?]
  | named =>
    have hdirective : m.directive? = none := hnone .directive (by decide)
    have hspelled : m.spelled? = none := hnone .spelled (by decide)
    obtain ⟨c, hc, rfl⟩ := Option.map_eq_some_iff.mp hsome
    simp only [injection?, hdirective, hspelled, hc, contentOf?, Option.map_some]

theorem injection?_of_undecided (h : ∀ rule lang, ¬ m.Names isConfigured rule lang) :
    m.injection? isConfigured = none := by
  have hdirective : m.directive? = none := nameOf?_eq_none.mpr (h .directive)
  have hspelled : m.spelled? = none := nameOf?_eq_none.mpr (h .spelled)
  have hnamed : m.named? isConfigured = none :=
    Option.map_eq_none_iff.mp (nameOf?_eq_none.mpr (h .named))
  simp only [injection?, hdirective, hspelled, hnamed]

/-- A match has a language and a region if one rule decides for the language and takes the region. -/
theorem injection?_eq_some : m.injection? isConfigured = some (lang, content) ↔
    ∃ rule, m.Decides isConfigured rule lang ∧ m.Takes isConfigured rule content := by
  constructor
  · intro h
    by_cases hnames : ∃ rule lang, m.Names isConfigured rule lang
    · obtain ⟨_, _, hnames⟩ := hnames
      obtain ⟨rule, lang', hdecides⟩ := hnames.exists_decides
      rw [hdecides.injection?_eq] at h
      obtain ⟨c, hc, hpair⟩ := Option.map_eq_some_iff.mp h
      cases hpair
      exact ⟨rule, hdecides, contentOf?_eq_some.mp hc⟩
    · rw [injection?_of_undecided fun rule lang hrule => hnames ⟨rule, lang, hrule⟩] at h
      cases h
  · rintro ⟨rule, hdecides, htakes⟩
    rw [hdecides.injection?_eq, contentOf?_eq_some.mpr htakes]
    rfl

/-! ## What the other captures change -/

def IsMarker (c : Capture) : Prop := c.name = languageKey ∨ c.name = contentName

instance : DecidablePred IsMarker := fun c =>
  inferInstanceAs (Decidable (c.name = languageKey ∨ c.name = contentName))

/-- The captures that the first two rules look for, in their order. -/
def markers (m : Match) : List Capture := m.captures.filter fun c => IsMarker c

/-- Two matches with the same settings and the same captures that the first two rules look for; any
other captures may be there or not, in any place. -/
structure SameMarkers (m m' : Match) : Prop where
  settings : m.settings = m'.settings
  markers : m.markers = m'.markers

theorem find?_markers (hname : name = languageKey ∨ name = contentName) :
    m.markers.find? (fun c => c.name = name) = m.find? name := by
  unfold markers find?
  rw [List.find?_filter]
  congr 1
  funext c
  by_cases hc : c.name = name
  · simp [IsMarker, hc, hname]
  · simp [hc]

namespace SameMarkers

theorem find?_eq (h : m.SameMarkers m') (hname : name = languageKey ∨ name = contentName) :
    m.find? name = m'.find? name := by
  rw [← find?_markers hname, ← find?_markers hname, h.markers]

theorem nameOf?_eq (h : m.SameMarkers m') (hrule : rule ≠ .named) :
    m.nameOf? isConfigured rule = m'.nameOf? isConfigured rule := by
  cases rule with
  | directive => simp only [nameOf?, directive?, setting?, h.settings]
  | spelled => simp only [nameOf?, spelled?, h.find?_eq (Or.inl rfl)]
  | named => exact absurd rfl hrule

theorem decides (h : m.SameMarkers m') (hrule : rule ≠ .named)
    (hdecides : m.Decides isConfigured rule lang) : m'.Decides isConfigured rule lang := by
  obtain ⟨hnames, hfirst⟩ := hdecides
  refine ⟨?_, fun earlier hlt other hother => hfirst earlier hlt other ?_⟩
  · rw [← nameOf?_eq_some, ← h.nameOf?_eq hrule, nameOf?_eq_some]
    exact hnames
  · have hearlier : earlier ≠ .named := by
      rintro rfl
      cases rule <;> simp [Rule.rank] at hlt
    rw [← nameOf?_eq_some, h.nameOf?_eq hearlier, nameOf?_eq_some]
    exact hother

/-- Whether the first two rules find a region is as before, as long as there is a capture to fall
back to. -/
theorem isSome_contentOf? (h : m.SameMarkers m') (hne : m.captures ≠ []) (hne' : m'.captures ≠ [])
    (hrule : rule ≠ .named) :
    (m.contentOf? isConfigured rule).isSome = (m'.contentOf? isConfigured rule).isSome := by
  cases rule with
  | directive =>
    obtain ⟨c, rest, hcaptures⟩ := List.exists_cons_of_ne_nil hne
    obtain ⟨c', rest', hcaptures'⟩ := List.exists_cons_of_ne_nil hne'
    simp [contentOf?, hcaptures, hcaptures']
  | spelled => simp only [contentOf?, h.find?_eq (Or.inr rfl)]
  | named => exact absurd rfl hrule

/-- Captures that the first two rules do not look for never change the language they choose. -/
theorem language_eq (h : m.SameMarkers m') (hne : m.captures ≠ []) (hne' : m'.captures ≠ [])
    (hrule : rule ≠ .named) (hdecides : m.Decides isConfigured rule lang) :
    (m'.injection? isConfigured).map Prod.fst = (m.injection? isConfigured).map Prod.fst := by
  have hsome : (m.contentOf? isConfigured rule).isSome = (m'.contentOf? isConfigured rule).isSome :=
    h.isSome_contentOf? hne hne' hrule
  rw [hdecides.injection?_eq, (h.decides hrule hdecides).injection?_eq]
  cases hc : m.contentOf? isConfigured rule <;> cases hc' : m'.contentOf? isConfigured rule <;>
    simp [hc, hc'] at hsome ⊢

end SameMarkers

end SemanticHighlight.Match
