import SemanticHighlight.Proofs.Token.Apart

/-!
# Regions that overlap

Two injections may mark the same stretch of a document, or one within the other. Merging cuts the
tokens of the document around every region, but not the tokens of one region around another. So
where all else lies apart, merged tokens overlap exactly if two regions overlap and tokens of the
one meet tokens of the other (`merge_apart_iff`).
-/

namespace SemanticHighlight

namespace Token

variable {tokens : List Token} {injections : List Injection}

/-- The document and each region by itself may be free of overlaps: the merged tokens are so exactly
if overlapping regions have found nothing that meets. -/
theorem merge_apart_iff (htokens : tokens.Pairwise fun t u => ¬ t.range.intersects u.range)
    (hsettled : ∀ i ∈ injections, Settled i.range i.tokens) :
    ((merge tokens injections).Pairwise fun t u => ¬ t.range.intersects u.range) ↔
      injections.Pairwise fun i j => i.range.intersects j.range →
        ∀ t ∈ i.tokens, ∀ u ∈ j.tokens, ¬ t.range.intersects u.range := by
  constructor
  · intro h
    obtain ⟨-, hinjected, -⟩ := List.pairwise_append.mp h
    exact (List.pairwise_flatMap.mp hinjected).2.imp fun hapart _ t ht u hu => hapart t ht u hu
  · intro h
    refine merge_apart htokens hsettled (h.imp_of_mem fun {i j} hi hj hij t ht u hu => ?_)
    by_cases hregions : i.range.intersects j.range
    · exact hij hregions t ht u hu
    · have ht' := (hsettled i hi).within t ht
      have hu' := (hsettled j hj).within u hu
      exact Range.Apart.of_covers hregions ht' hu'

/-- A region within another, both marked by the same query: the inner one is covered twice, although
the document, the outer region and the inner region have no overlaps. -/
theorem merge_apart_iff_nested :
    let line (start stop : Nat) (h : start ≤ stop) : Range :=
      ⟨⟨0, start⟩, ⟨0, stop⟩, Or.inr ⟨rfl, Int.ofNat_le.mpr h⟩⟩
    let tokens : List Token := [⟨line 0 12 (by decide), "comment", []⟩]
    let injections : List Injection :=
      [⟨"outer", line 2 10 (by decide), [⟨line 2 10 (by decide), "string", []⟩]⟩,
        ⟨"inner", line 4 6 (by decide), [⟨line 4 6 (by decide), "keyword", []⟩]⟩]
    (tokens.Pairwise fun t u => ¬ t.range.intersects u.range) ∧
      (∀ i ∈ injections, Settled i.range i.tokens) ∧
      ¬ (merge tokens injections).Pairwise fun t u => ¬ t.range.intersects u.range := by
  intro line tokens injections
  have htokens : tokens.Pairwise fun t u => ¬ t.range.intersects u.range := by decide
  have hsettled : ∀ i ∈ injections, Settled i.range i.tokens := by
    refine List.forall_mem_cons.mpr ⟨?_, List.forall_mem_singleton.mpr ?_⟩
    · exact ⟨List.pairwise_singleton _ _, by decide⟩
    · exact ⟨List.pairwise_singleton _ _, by decide⟩
  refine ⟨htokens, hsettled, fun h => ?_⟩
  exact absurd ((merge_apart_iff htokens hsettled).mp h) (by decide)

end Token
end SemanticHighlight
