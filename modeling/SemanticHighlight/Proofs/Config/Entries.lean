import SemanticHighlight.Proofs.Config.Contents
import SemanticHighlight.Proofs.Config.Stability

/-!
# Where entries come from

If a JSON document was read at all, each entry of the configuration stands in it: the entries are
those of the document in their order, each with the language, the files and everything else that the
document says there, and with paths that were resolved (`entries_of_read`). Nothing is assumed of the
document but that it was read.
-/

namespace SemanticHighlight

/-- The entry says what an item of a document says, with paths that became what they should. -/
structure LanguageConfig.Stands (becomes : Text → Text → Prop) (item : Json) (entry : LanguageConfig) :
    Prop where
  lang : item.field? "lang" = some (.text entry.lang)
  parser : ∃ path : Text, item.field? "parser" = some (.text path) ∧ becomes path entry.parser
  highlights : ∃ path : Text,
    item.field? "highlights" = some (.text path) ∧ becomes path entry.highlights
  injections : Option.Rel (fun x t => ∃ path : Text, x = .text path ∧ becomes path t)
    (item.field? "injections") entry.injections
  injectionOnly : ∃ given,
    Option.Rel (fun x b => x = .bool b) (item.field? "injectionOnly") given ∧
      entry.injectionOnly = given.getD false
  mappings : Option.Rel (fun x table => Config.readTable? (.ofJson x) = some table)
    (item.field? "semanticTokenTypeMappings") entry.mappings
  parserSymbol : Option.Rel (fun x t => x = .text t) (item.field? "parserSymbol") entry.parserSymbol

namespace Json

def IsFor (item : Json) (lang : Text) : Prop := item.field? "lang" = some (.text lang)

def IsInjectionOnly (item : Json) : Prop := item.field? "injectionOnly" = some (.bool true)

end Json

namespace Config

/-! ## Relations one after the other -/

theorem forall₂_trans {α β γ : Type} {R : α → β → Prop} {S : β → γ → Prop} {T : α → γ → Prop}
    (hT : ∀ x y z, R x y → S y z → T x z) {xs : List α} {ys : List β} {zs : List γ}
    (hxy : List.Forall₂ R xs ys) (hyz : List.Forall₂ S ys zs) : List.Forall₂ T xs zs := by
  induction hxy generalizing zs with
  | nil =>
    cases hyz
    exact .nil
  | cons hR _ ih =>
    cases hyz with
    | cons hS hrest => exact .cons (hT _ _ _ hR hS) (ih hrest)

theorem rel_trans {α β γ : Type} {R : α → β → Prop} {S : β → γ → Prop} {T : α → γ → Prop}
    (hT : ∀ x y z, R x y → S y z → T x z) {o : Option α} {o' : Option β} {o'' : Option γ}
    (hR : Option.Rel R o o') (hS : Option.Rel S o' o'') : Option.Rel T o o'' := by
  cases hR with
  | none =>
    cases hS
    exact .none
  | some hxy =>
    cases hS with
    | some hyz => exact .some (hT _ _ _ hxy hyz)

theorem exists_mem_iff_of_forall₂ {α β : Type} {R : α → β → Prop} {P : α → Prop} {Q : β → Prop}
    {xs : List α} {ys : List β} (h : List.Forall₂ R xs ys) (hPQ : ∀ x y, R x y → (P x ↔ Q y)) :
    (∃ x ∈ xs, P x) ↔ ∃ y ∈ ys, Q y := by
  induction h with
  | nil => simp
  | cons hxy _ ih => simp [hPQ _ _ hxy, ih]

end Config

/-! ## Items and entries -/

namespace LanguageConfig

variable {becomes : Text → Text → Prop} {item : Json} {entry written : LanguageConfig} {lang : Text}

theorem Stands.isFor_iff (h : Stands becomes item entry) : item.IsFor lang ↔ entry.lang = lang := by
  rw [Json.IsFor, h.lang, Option.some.injEq, Json.text.injEq]

theorem Stands.isInjectionOnly_iff (h : Stands becomes item entry) :
    item.IsInjectionOnly ↔ entry.injectionOnly = true := by
  obtain ⟨given, hgiven, honly⟩ := h.injectionOnly
  rw [Json.IsInjectionOnly, honly]
  generalize item.field? "injectionOnly" = field at hgiven
  cases hgiven with
  | none => simp
  | some hx =>
    subst hx
    simp

theorem Stands.of_related (h : Stands (fun path t => path = t) item written)
    (hrelated : Related becomes written entry) : Stands becomes item entry where
  lang := by
    rw [hrelated.others]
    exact h.lang
  parser := by
    obtain ⟨path, hpath, rfl⟩ := h.parser
    exact ⟨_, hpath, hrelated.parser⟩
  highlights := by
    obtain ⟨path, hpath, rfl⟩ := h.highlights
    exact ⟨_, hpath, hrelated.highlights⟩
  injections := by
    refine Config.rel_trans ?_ h.injections hrelated.injections
    rintro x written t ⟨path, hx, rfl⟩ hbecomes
    exact ⟨path, hx, hbecomes⟩
  injectionOnly := by
    rw [hrelated.others]
    exact h.injectionOnly
  mappings := by
    rw [hrelated.others]
    exact h.mappings
  parserSymbol := by
    rw [hrelated.others]
    exact h.parserSymbol

end LanguageConfig

namespace Config

variable {j x : Json} {name t : Text} {homes : Homes} {root : Option Path} {config : Config}

/-! ## Reading, looked at from its result -/

theorem forall₂_of_mapM {α β : Type} {f : α → Option β} {xs : List α} {ys : List β}
    (h : xs.mapM f = some ys) : List.Forall₂ (fun x y => f x = some y) xs ys := by
  induction xs generalizing ys with
  | nil =>
    cases h
    exact .nil
  | cons x xs ih =>
    simp only [List.mapM_cons, Option.bind_eq_bind, Option.bind_eq_some_iff, Option.pure_def] at h
    obtain ⟨y, hy, rest, hrest, h⟩ := h
    cases h
    exact .cons hy (ih hrest)

theorem eq_text_of_wholeText? (h : (Value.ofJson x).wholeText? = some t) : x = .text t := by
  obtain ⟨htext, -⟩ := Option.filter_eq_some_iff.mp h
  cases x with
  | text t' =>
    cases htext
    rfl
  | _ => cases htext

theorem eq_bool_of_bool? {b : Bool} (h : (Value.ofJson x).bool? = some b) : x = .bool b := by
  cases x with
  | bool b' =>
    cases h
    rfl
  | _ => cases h

theorem eq_list_of_items? {vs : List Value} (h : (Value.ofJson x).items? = some vs) :
    ∃ items, x = .list items ∧ vs = items.map .ofJson := by
  cases x with
  | list items =>
    cases h
    exact ⟨items, rfl, Value.ofJsonItems_eq items⟩
  | _ => cases h

theorem eq_some_text_of_field? {v : Value} (hfield : (Value.ofJson j).field? name = some v)
    (hread : v.wholeText? = some t) : j.field? name = some (.text t) := by
  rw [Value.field?_ofJson] at hfield
  obtain ⟨x, hx, rfl⟩ := Option.map_eq_some_iff.mp hfield
  rw [hx, eq_text_of_wholeText? hread]

theorem rel_of_optional {α : Type} {f : Value → Option α} {given : Option α} {R : Json → α → Prop}
    (h : optional f (.ofJson j) name = some given) (hR : ∀ x a, f (.ofJson x) = some a → R x a) :
    Option.Rel R (j.field? name) given := by
  rw [optional, Value.field?_ofJson] at h
  cases hx : j.field? name with
  | none =>
    rw [hx] at h
    cases h
    exact .none
  | some x =>
    rw [hx] at h
    obtain ⟨a, ha, rfl⟩ := Option.map_eq_some_iff.mp h
    exact .some (hR x a ha)

theorem stands_of_readLanguage? {entry : LanguageConfig} (h : readLanguage? (.ofJson j) = some entry) :
    LanguageConfig.Stands (fun path t => path = t) j entry := by
  simp only [readLanguage?, Option.bind_eq_bind, Option.bind_eq_some_iff, Option.pure_def] at h
  obtain ⟨_, hlang, lang, hlangRead, _, hparser, parser, hparserRead, _, hhighlights, highlights,
    hhighlightsRead, injections, hinjections, only, honly, mappings, hmappings, symbol, hsymbol, h⟩ := h
  cases h
  exact {
    lang := eq_some_text_of_field? hlang hlangRead
    parser := ⟨parser, eq_some_text_of_field? hparser hparserRead, rfl⟩
    highlights := ⟨highlights, eq_some_text_of_field? hhighlights hhighlightsRead, rfl⟩
    injections := rel_of_optional hinjections fun x t hx => ⟨t, eq_text_of_wholeText? hx, rfl⟩
    injectionOnly := ⟨only, rel_of_optional honly fun _ _ => eq_bool_of_bool?, rfl⟩
    mappings := rel_of_optional hmappings fun _ _ hx => hx
    parserSymbol := rel_of_optional hsymbol fun _ _ => eq_text_of_wholeText? }

/-- The entries of a document that was read, with their paths as they are written. -/
theorem languages_of_ofValue? {v : Value} (h : ofValue? v = some config)
    (hx : v.field? "languageConfigs" = some (.ofJson x)) :
    ∃ items, x = .list items ∧
      List.Forall₂ (LanguageConfig.Stands fun path t => path = t) items config.languages := by
  simp only [ofValue?, Option.bind_eq_bind, Option.bind_eq_some_iff] at h
  obtain ⟨debug, -, types, -, modifiers, -, depth, -, given, hgiven, h⟩ := h
  split_ifs at h
  cases h
  rw [optional, hx] at hgiven
  obtain ⟨entries, hentries, rfl⟩ := Option.map_eq_some_iff.mp hgiven
  obtain ⟨vs, hvs, hentries⟩ := Option.bind_eq_some_iff.mp hentries
  obtain ⟨items, rfl, rfl⟩ := eq_list_of_items? hvs
  have hread := List.forall₂_map_left_iff.mp (forall₂_of_mapM hentries)
  exact ⟨items, rfl, hread.imp fun _ _ => stands_of_readLanguage?⟩

theorem exists_ofValue?_of_read [Services] {v : Value} (h : read homes root (.ofValue v) = .ok config) :
    ∃ written, ofValue? v = some written ∧ written.resolve homes root = .ok config := by
  obtain ⟨written, hdraft, hresolve⟩ := bind_eq_ok.mp h
  refine ⟨written, ?_, hresolve⟩
  unfold draft at hdraft
  split at hdraft
  · cases hdraft
  · cases hdraft
  · split at hdraft
    · cases hdraft
    · next hread =>
      cases hdraft
      exact hread

theorem entries_of_read [Services] {v : Value} (h : read homes root (.ofValue v) = .ok config)
    (hx : v.field? "languageConfigs" = some (.ofJson x)) :
    ∃ items, x = .list items ∧
      List.Forall₂ (LanguageConfig.Stands fun path t => resolveAsset homes root path = .ok t) items
        config.languages := by
  obtain ⟨written, hwritten, hresolve⟩ := exists_ofValue?_of_read h
  obtain ⟨items, rfl, hitems⟩ := languages_of_ofValue? hwritten hx
  have hresolved := languages_of_resolve hresolve
  have hentries : List.Forall₂ (fun written entry => LanguageConfig.resolve homes root written = .ok entry)
      written.languages config.languages := by
    rw [← List.forall₂_eq_eq_eq, List.forall₂_map_left_iff, List.forall₂_map_right_iff] at hresolved
    exact hresolved
  exact ⟨items, rfl, forall₂_trans
    (fun _ _ _ hstands hentry => hstands.of_related (LanguageConfig.related_of_resolve hentry))
    hitems hentries⟩

end Config

end SemanticHighlight
