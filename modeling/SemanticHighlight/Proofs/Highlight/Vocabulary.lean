import SemanticHighlight.Proofs.Highlight.Visit
import SemanticHighlight.Proofs.Token.Vocabulary

/-!
# What a document is highlighted with

Where captures become tokens, what the legend does not know is left out, whatever a mapping table put
there. Every text that is visited, at any depth, is classified with the one legend of the provider,
and nothing later touches the words of a token. So all tokens of a document are known to the legend
(`highlight_knows`).
-/

namespace SemanticHighlight.Provider

variable {World Grammar Query : Type} {provider : Provider World Grammar Query}
  {v : Visit World Grammar Query} {lang t : Text} {s s' : Session World Grammar Query}
  {tokens own : List Token} {injections : List Injection}

theorem classify_knows {legend : Legend} {binding : Binding Grammar Query} {found : List Match}
    {u : Token} (h : u ∈ (classify legend binding found).1) : legend.Knows u := by
  obtain ⟨entry, hentry, hu⟩ := List.mem_filterMap.mp h
  obtain ⟨capture, -, rfl⟩ := List.mem_map.mp hentry
  unfold tokenOf at hu
  split at hu
  · cases hu
  · obtain ⟨kept, hkept, rfl⟩ := Option.map_eq_some_iff.mp hu
    exact Legend.knows_restrict hkept capture.range

theorem Parts.own_known (h : provider.Parts v own injections) : ∀ u ∈ own, provider.legend.Knows u := by
  cases h with
  | unread hparses => exact fun u hu => absurd hu List.not_mem_nil
  | plain hfound hown hquery => exact Token.knows_normalize (fun u hu => classify_knows hu) hown
  | injected hfound hown hinjects => exact Token.knows_normalize (fun u hu => classify_knows hu) hown

theorem Parts.injections_known (h : provider.Parts v own injections)
    (hregions : ∀ w, provider.Nests v w → ∀ {tokens s'}, provider.outcomeOf w = (.ok tokens, s') →
      ∀ u ∈ tokens, provider.legend.Knows u) :
    ∀ i ∈ injections, ∀ u ∈ i.tokens, provider.legend.Knows u := by
  cases h with
  | unread hparses => exact fun i hi => absurd hi List.not_mem_nil
  | plain hfound hown hquery => exact fun i hi => absurd hi List.not_mem_nil
  | injected hfound hown hinjects =>
    intro i hi
    obtain ⟨marked, s₁, m, w, region, inner, s₂, -, -, -, hnests, -, hinner, rfl⟩ :=
      hinjects.mem hi
    intro u hu
    obtain ⟨t, ht, rfl⟩ := List.mem_map.mp hu
    exact (hregions w hnests hinner t ht).withRange _

theorem outcomeOf_knows (h : provider.outcomeOf v = (.ok tokens, s')) :
    ∀ u ∈ tokens, provider.legend.Knows u := by
  induction v using visit_induction generalizing tokens s' with
  | step v ih =>
    obtain ⟨own, injections, hparts, rfl⟩ := outcomeOf_parts h
    exact Token.knows_merge hparts.own_known
      (hparts.injections_known fun w hw _ _ hinner => ih w hw hinner)

theorem highlight_knows (h : (provider.highlight lang t).outcome s = (.ok tokens, s')) :
    ∀ u ∈ tokens, provider.legend.Knows u := by
  obtain ⟨first, found, s₁, -, hfound, rfl⟩ := highlight_ok h
  intro u hu
  exact outcomeOf_knows hfound u ((Token.sort_perm found).mem_iff.mp hu)

end SemanticHighlight.Provider
