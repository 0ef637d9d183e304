import SemanticHighlight.Proofs.Token.Containment

/-!
# Who owns a position

After containment is resolved, a position that some token covers is covered by exactly one, and that
one is what the innermost token was (`innermost_owns`). Two tokens of a laminar family that cover
the same position are nested, so there is a smallest; nothing within it covers the position, so the
position remains in one of its gaps; and what remains of different tokens lies apart.
-/

namespace SemanticHighlight

namespace Token

variable {tokens : List Token} {t u : Token} {p : Position}

def holders (tokens : List Token) (p : Position) : List Token := tokens.filter fun t => t.Covers p

theorem mem_holders : t ∈ holders tokens p ↔ t ∈ tokens ∧ t.Covers p := by
  simp [holders]

/-- The token that a position belongs to: the smallest that covers it, and the first of its range. -/
structure Innermost (tokens : List Token) (p : Position) (t : Token) : Prop where
  covers : t.Covers p
  smallest : ∀ u ∈ tokens, u.Covers p → u.range.covers t.range
  first : tokens.find? (fun u => u.range = t.range) = some t

theorem nested_of_covers (h : t.range.NestedOrApart u.range) (ht : t.Covers p) (hu : u.Covers p) :
    t.range.covers u.range ∨ u.range.covers t.range := by
  rcases h with h | h | h
  · exact Or.inl h
  · exact Or.inr h
  · exact absurd hu (h.not_holds ht)

theorem exists_smallest (hnested : ∀ t ∈ tokens, ∀ u ∈ tokens,
    t.range.covers u.range ∨ u.range.covers t.range) (hne : tokens ≠ []) :
    ∃ t ∈ tokens, ∀ u ∈ tokens, u.range.covers t.range := by
  induction tokens with
  | nil => exact absurd rfl hne
  | cons s rest ih =>
    by_cases hrest : rest = []
    · exact ⟨s, List.mem_cons_self, by simp [hrest, Range.covers_refl]⟩
    · obtain ⟨t, ht, hsmallest⟩ := ih (fun t ht u hu =>
        hnested t (List.mem_cons_of_mem _ ht) u (List.mem_cons_of_mem _ hu)) hrest
      rcases hnested s List.mem_cons_self t (List.mem_cons_of_mem _ ht) with h | h
      · refine ⟨t, List.mem_cons_of_mem _ ht, fun u hu => ?_⟩
        rcases List.mem_cons.mp hu with rfl | hu
        · exact h
        · exact hsmallest u hu
      · refine ⟨s, List.mem_cons_self, fun u hu => ?_⟩
        rcases List.mem_cons.mp hu with rfl | hu
        · exact Range.covers_refl _
        · exact Range.covers_trans (hsmallest u hu) h

theorem exists_innermost (h : Laminar tokens) (hcovered : ∃ t ∈ tokens, t.Covers p) :
    ∃ t, Innermost tokens p t := by
  obtain ⟨s, hs, hscovers⟩ := hcovered
  have hnested : ∀ t ∈ holders tokens p, ∀ u ∈ holders tokens p,
      t.range.covers u.range ∨ u.range.covers t.range := by
    intro t ht u hu
    rw [mem_holders] at ht hu
    exact nested_of_covers (h t ht.1 u hu.1) ht.2 hu.2
  obtain ⟨t, ht, hsmallest⟩ :=
    exists_smallest hnested (List.ne_nil_of_mem (mem_holders.mpr ⟨hs, hscovers⟩))
  obtain ⟨ht, htcovers⟩ := mem_holders.mp ht
  obtain ⟨u, hu, hrange⟩ := exists_mem_deduplicate ht
  refine ⟨u, ?_, ?_, mem_deduplicate.mp hu⟩
  · rwa [Covers, hrange]
  · intro v hv hvcovers
    rw [hrange]
    exact hsmallest v (mem_holders.mpr ⟨hv, hvcovers⟩)

/-- The position remains with the innermost token. -/
theorem Innermost.exists_remains (h : Innermost tokens p t) :
    ∃ u ∈ remains (deduplicate tokens) t, u.Covers p := by
  rcases covers_remains_or_contained (deduplicate tokens) h.covers with hkept | hlost
  · exact hkept
  · obtain ⟨u, hu, hcontains, hucovers⟩ := hlost
    obtain ⟨hne, hcovers⟩ := Range.contains_iff.mp hcontains
    have hsmallest := h.smallest u (deduplicate_subset tokens hu) hucovers
    exact absurd (Range.covers_antisymm hcovers hsmallest) hne

theorem holders_eq_singleton (h : tokens.Pairwise Apart) (ht : t ∈ tokens) (hcovers : t.Covers p) :
    holders tokens p = [t] := by
  have hpairwise : (holders tokens p).Pairwise Apart := h.filter _
  have hmem : t ∈ holders tokens p := mem_holders.mpr ⟨ht, hcovers⟩
  cases hholders : holders tokens p with
  | nil => simp [hholders] at hmem
  | cons u rest =>
    have hall : ∀ v ∈ u :: rest, v.Covers p := fun v hv => (mem_holders.mp (hholders ▸ hv)).2
    rw [hholders] at hpairwise hmem
    cases rest with
    | nil => rw [List.mem_singleton.mp hmem]
    | cons v rest =>
      have hapart := List.rel_of_pairwise_cons hpairwise List.mem_cons_self
      exact absurd (hall v (by simp)) (Range.Apart.not_holds hapart (hall u (by simp)))

/-- A position belongs to nobody exactly where no token covers it; otherwise it belongs to one token
alone, a part of the innermost one. -/
theorem innermost_owns (h : Laminar tokens) (p : Position) :
    ((∀ t ∈ tokens, ¬ t.Covers p) → holders (resolveContainment (deduplicate tokens)) p = []) ∧
      ((∃ t ∈ tokens, t.Covers p) → ∃ t, Innermost tokens p t ∧ ∃ r : Range,
        t.range.covers r ∧ r.Holds p ∧
          holders (resolveContainment (deduplicate tokens)) p = [t.withRange r]) := by
  constructor
  · intro hfree
    apply List.filter_eq_nil_iff.mpr
    intro v hv hcovers
    obtain ⟨t, ht, hv⟩ := List.mem_flatMap.mp hv
    have hwithin := (pieces_remains _ t).within v hv
    exact hfree t (deduplicate_subset tokens ht) ((of_decide_eq_true hcovers).of_covers hwithin)
  · intro hcovered
    obtain ⟨t, ht⟩ := exists_innermost h hcovered
    obtain ⟨u, hu, hcovers⟩ := ht.exists_remains
    have hmem : u ∈ resolveContainment (deduplicate tokens) :=
      List.mem_flatMap.mpr ⟨t, mem_deduplicate.mpr ht.first, hu⟩
    have hapart := resolveContainment_apart (h.subset (deduplicate_subset tokens))
      (deduplicate_distinct tokens)
    refine ⟨t, ht, u.range, (pieces_remains _ t).within u hu, hcovers, ?_⟩
    rw [holders_eq_singleton hapart hmem hcovers, ← (pieces_remains _ t).kept u hu]

/-- Three levels, a range that occurs twice and an empty one, all around one position. -/
theorem innermost_owns_threeLevels :
    let line (start stop : Nat) (h : start ≤ stop) : Range :=
      ⟨⟨0, start⟩, ⟨0, stop⟩, Or.inr ⟨rfl, Int.ofNat_le.mpr h⟩⟩
    let tokens : List Token :=
      [⟨line 4 6 (by decide), "number", []⟩, ⟨line 0 10 (by decide), "string", []⟩,
        ⟨line 2 8 (by decide), "regexp", []⟩, ⟨line 4 6 (by decide), "keyword", []⟩,
        ⟨line 5 5 (by decide), "operator", []⟩]
    Laminar tokens ∧ (∃ t ∈ tokens, t.Covers ⟨0, 5⟩) ∧ ∃ t, Innermost tokens ⟨0, 5⟩ t ∧
      ∃ r : Range, t.range.covers r ∧ r.Holds ⟨0, 5⟩ ∧
        holders (resolveContainment (deduplicate tokens)) ⟨0, 5⟩ = [t.withRange r] := by
  intro line tokens
  have h : Laminar tokens := by decide
  have hcovered : ∃ t ∈ tokens, t.Covers ⟨0, 5⟩ := by decide
  exact ⟨h, hcovered, (innermost_owns h ⟨0, 5⟩).2 hcovered⟩

end Token
end SemanticHighlight
