import SemanticHighlight.Config.Basic
import SemanticHighlight.Proofs.Config.Sorting

/-!
# Which JSON documents conform

What a configuration has to look like is said once more, in terms of JSON documents alone
(`Json.IsConfiguration`). Checking a document against the schema finds nothing exactly if it looks like
that (`findings_schema_eq_nil`). There is one lemma for each way in which schemas are made.
-/

namespace SemanticHighlight

namespace Json

variable {j : Json}

/-- The whole number that a JSON number is; one with an empty fraction is whole as well. -/
def whole? : Json → Option Int
  | int i => some i
  | real x => x.toInt?
  | _ => none

def IsWord (j : Json) : Prop := ∃ t : Text, j = .text t ∧ t ≠ []

/-- Words of which no two are the same. -/
def IsVocabulary (j : Json) : Prop := ∃ words : List Text, j = texts words ∧ [] ∉ words ∧ words.Nodup

def HasOnly (names : List Text) (j : Json) : Prop := ∃ ms, j = .object ms ∧ ∀ m ∈ ms, m.1 ∈ names

/-- What a capture is to become. -/
structure IsMapping (j : Json) : Prop where
  names : j.HasOnly ["targetTokenType", "targetTokenModifiers"]
  type : ∃ x ∈ j.field? "targetTokenType", x.IsWord
  modifiers : ∀ x ∈ j.field? "targetTokenModifiers", ∃ words, x = texts words

structure IsLanguage (j : Json) : Prop where
  names : j.HasOnly ["lang", "parser", "parserSymbol", "highlights", "injections", "injectionOnly",
    "semanticTokenTypeMappings"]
  lang : ∃ x ∈ j.field? "lang", x.IsWord
  parser : ∃ x ∈ j.field? "parser", x.IsWord
  highlights : ∃ x ∈ j.field? "highlights", x.IsWord
  parserSymbol : ∀ x ∈ j.field? "parserSymbol", x.IsWord
  injections : ∀ x ∈ j.field? "injections", x.IsWord
  injectionOnly : ∀ x ∈ j.field? "injectionOnly", ∃ b, x = .bool b
  mappings : ∀ x ∈ j.field? "semanticTokenTypeMappings",
    ∃ ms, x = .object ms ∧ ∀ m ∈ ms, m.2.IsMapping

structure IsConfiguration (j : Json) : Prop where
  names : j.HasOnly ["debug", "tokenTypes", "tokenModifiers", "maxInjectionDepth", "languageConfigs"]
  debug : ∀ x ∈ j.field? "debug", ∃ b, x = .bool b
  tokenTypes : ∀ x ∈ j.field? "tokenTypes", x.IsVocabulary
  tokenModifiers : ∀ x ∈ j.field? "tokenModifiers", x.IsVocabulary
  maxDepth : ∀ x ∈ j.field? "maxInjectionDepth", ∃ i, x.whole? = some i ∧ 1 ≤ i
  languages : ∀ x ∈ j.field? "languageConfigs", ∃ xs, x = .list xs ∧ ∀ y ∈ xs, y.IsLanguage

/-- A list of texts is a list in which everything is a text. -/
theorem exists_eq_texts_iff :
    (∃ words, j = texts words) ↔ ∃ xs, j = .list xs ∧ ∀ x ∈ xs, ∃ t, x = .text t := by
  constructor
  · rintro ⟨words, rfl⟩
    exact ⟨_, rfl, by simp⟩
  · rintro ⟨xs, rfl, htexts⟩
    have hrange : xs ∈ Set.range (List.map Json.text) := by
      rw [Set.range_list_map]
      exact fun x hx => (htexts x hx).imp fun _ h => h.symm
    obtain ⟨words, rfl⟩ := hrange
    exact ⟨words, rfl⟩

end Json

namespace Value

theorem ofJsonItems_eq (xs : List Json) : ofJsonItems xs = xs.map ofJson := by
  induction xs with
  | nil => rfl
  | cons x xs ih => rw [ofJsonItems, ih, List.map_cons]

theorem ofJsonMembers_eq (ms : List (Text × Json)) :
    ofJsonMembers ms = ms.map fun m => (text m.1, ofJson m.2) := by
  induction ms with
  | nil => rfl
  | cons m ms ih =>
    obtain ⟨name, x⟩ := m
    rw [ofJsonMembers, ih, List.map_cons]

theorem valueAt?_ofJsonMembers (ms : List (Text × Json)) (name : Text) :
    valueAt? (ofJsonMembers ms) (text name) = (ms.lookup name).map ofJson := by
  rw [ofJsonMembers_eq]
  induction ms with
  | nil => rfl
  | cons m ms ih =>
    obtain ⟨n, x⟩ := m
    have hname : sameName (text n) (text name) = (name == n) := BEq.comm
    cases hsame : name == n with
    | true => simp [valueAt?, List.lookup_cons, hname, hsame]
    | false => simpa [valueAt?, List.lookup_cons, hname, hsame] using ih

theorem field?_ofJson (j : Json) (name : Text) : (ofJson j).field? name = (j.field? name).map ofJson := by
  cases j with
  | object ms => exact valueAt?_ofJsonMembers ms name
  | _ => rfl

end Value

namespace Schema

variable {c : Content} {j : Json}

/-- A reading of schemas that takes each of them as it is made. -/
structure Judges (judge : Schema → Json → Prop) : Prop where
  boolean : ∀ {j}, judge .boolean j ↔ ∃ b, j = .bool b
  text : ∀ {nonEmpty j}, judge (.text nonEmpty) j ↔
    ∃ t : Text, j = .text t ∧ (nonEmpty = true → t ≠ [])
  integer : ∀ {minimum j}, judge (.integer minimum) j ↔ ∃ i, j.whole? = some i ∧ minimum ≤ i
  list : ∀ {items j}, judge (.list items false) j ↔ ∃ xs, j = .list xs ∧ ∀ x ∈ xs, judge items x
  vocabulary : ∀ {j}, judge (.list (.text true) true) j ↔ j.IsVocabulary
  record : ∀ {fields required j}, judge (.record fields required) j ↔
    j.HasOnly (fields.map Prod.fst) ∧ (∀ name ∈ required, (j.field? name).isSome) ∧
      ∀ f ∈ fields, ∀ x ∈ j.field? f.1, judge f.2 x
  table : ∀ {entries j}, judge (.table entries) j ↔
    ∃ ms, j = .object ms ∧ ∀ m ∈ ms, judge entries m.2

theorem exists_mem_iff {o : Option Json} {P : Json → Prop} :
    (∃ x ∈ o, P x) ↔ o.isSome = true ∧ ∀ x ∈ o, P x := by
  cases o with
  | none => simp
  | some x => simp

namespace Judges

open Config

variable {judge : Schema → Json → Prop}

theorem word (h : Judges judge) : judge (.text true) j ↔ j.IsWord := by
  simp [h.text, Json.IsWord]

theorem texts (h : Judges judge) :
    judge (.list (.text false) false) j ↔ ∃ words, j = .texts words := by
  simp [h.list, h.text, Json.exists_eq_texts_iff]

theorem mapping (h : Judges judge) : judge mappingSchema j ↔ j.IsMapping := by
  simp only [mappingSchema, nonEmptyText, h.record, List.forall_mem_cons, h.word, h.texts]
  constructor
  · rintro ⟨hnames, ⟨hrequired, -⟩, htype, hmodifiers, -⟩
    exact ⟨hnames, exists_mem_iff.mpr ⟨hrequired, htype⟩, hmodifiers⟩
  · rintro ⟨hnames, htype, hmodifiers⟩
    obtain ⟨hrequired, htype⟩ := exists_mem_iff.mp htype
    exact ⟨hnames, ⟨hrequired, by simp⟩, htype, hmodifiers, by simp⟩

theorem language (h : Judges judge) : judge languageSchema j ↔ j.IsLanguage := by
  simp only [languageSchema, nonEmptyText, h.record, List.forall_mem_cons, h.word, h.boolean, h.table,
    h.mapping]
  constructor
  · rintro ⟨hnames, ⟨hhasLang, hhasParser, hhasHighlights, -⟩, hlang, hparser, hsymbol, hhighlights,
      hinjections, honly, hmappings, -⟩
    exact ⟨hnames, exists_mem_iff.mpr ⟨hhasLang, hlang⟩, exists_mem_iff.mpr ⟨hhasParser, hparser⟩,
      exists_mem_iff.mpr ⟨hhasHighlights, hhighlights⟩, hsymbol, hinjections, honly, hmappings⟩
  · rintro ⟨hnames, hlang, hparser, hhighlights, hsymbol, hinjections, honly, hmappings⟩
    obtain ⟨hhasLang, hlang⟩ := exists_mem_iff.mp hlang
    obtain ⟨hhasParser, hparser⟩ := exists_mem_iff.mp hparser
    obtain ⟨hhasHighlights, hhighlights⟩ := exists_mem_iff.mp hhighlights
    exact ⟨hnames, ⟨hhasLang, hhasParser, hhasHighlights, by simp⟩, hlang, hparser, hsymbol,
      hhighlights, hinjections, honly, hmappings, by simp⟩

/-- Whatever reads schemas as they are made accepts what looks like a configuration. -/
theorem configuration (h : Judges judge) : judge schema j ↔ j.IsConfiguration := by
  simp only [schema, vocabularySchema, nonEmptyText, h.record, List.forall_mem_cons, h.boolean,
    h.vocabulary, h.integer, h.list, h.language]
  constructor
  · rintro ⟨hnames, -, hdebug, htypes, hmodifiers, hdepth, hlanguages, -⟩
    exact ⟨hnames, hdebug, htypes, hmodifiers, hdepth, hlanguages⟩
  · rintro ⟨hnames, hdebug, htypes, hmodifiers, hdepth, hlanguages⟩
    exact ⟨hnames, by simp, hdebug, htypes, hmodifiers, hdepth, hlanguages, by simp⟩

end Judges

end Schema

end SemanticHighlight
