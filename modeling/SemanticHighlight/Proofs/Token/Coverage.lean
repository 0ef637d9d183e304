import Mathlib.Order.WellFoundedSet
import SemanticHighlight.Proofs.Token.Containment

/-!
# What containment leaves covered

Nothing is asked of the ranges here: tokens may cross each other, share a range or be empty. A token
gives up whatever the tokens strictly within it cover, and those may be cut themselves, so a
position that a token loses need not stay with the next one inside. It is found by going on inwards,
which comes to an end (`within_wellFoundedOn`). So resolving containment neither loses nor invents a
covered position (`resolveContainment_coverage`).
-/

namespace SemanticHighlight

namespace Range

variable {r s u : Range}

theorem contains_irrefl (r : Range) : ¬ r.contains r := by
  simp [contains]

theorem contains_trans (hrs : r.contains s) (hsu : s.contains u) : r.contains u := by
  rw [contains_iff] at *
  refine ⟨?_, covers_trans hrs.2 hsu.2⟩
  rintro rfl
  exact hrs.1 (covers_antisymm hrs.2 hsu.2)

end Range

namespace Token

variable {tokens : List Token} {t : Token} {p : Position}

def Within (s t : Token) : Prop := t.range.contains s.range

instance : IsStrictOrder Token Within where
  irrefl t := Range.contains_irrefl t.range
  trans _ _ _ hst htu := Range.contains_trans htu hst

/-- Going inwards from token to token comes to an end. -/
theorem within_wellFoundedOn (tokens : List Token) : {t | t ∈ tokens}.WellFoundedOn Within :=
  (List.finite_toSet tokens).wellFoundedOn

/-- Inwards of every token that covers a position there is one that keeps it. -/
theorem exists_covers_resolveContainment (ht : t ∈ tokens) (hcovers : t.Covers p) :
    ∃ u ∈ resolveContainment tokens, u.Covers p := by
  refine (within_wellFoundedOn tokens).induction
    (P := fun s => s.Covers p → ∃ u ∈ resolveContainment tokens, u.Covers p) ht ?_ hcovers
  intro s hs ih hscovers
  rcases covers_remains_or_contained tokens hscovers with h | ⟨v, hv, hwithin, hvcovers⟩
  · obtain ⟨u, hu, hucovers⟩ := h
    exact ⟨u, List.mem_flatMap.mpr ⟨s, hs, hu⟩, hucovers⟩
  · exact ih v hv hwithin hvcovers

/-- What remains covers the positions that were covered, no more and no fewer. Each part is of the
type and with the modifiers of the token that it lies within, and shares nothing with any token that
lies strictly within that one. -/
theorem resolveContainment_coverage (tokens : List Token) :
    (∀ p, (∃ u ∈ resolveContainment tokens, u.Covers p) ↔ ∃ t ∈ tokens, t.Covers p) ∧
      ∀ u ∈ resolveContainment tokens, ∃ t ∈ tokens, t.range.covers u.range ∧
        u.type = t.type ∧ u.modifiers = t.modifiers ∧
        ∀ s ∈ tokens, t.range.contains s.range → ¬ u.range.intersects s.range := by
  constructor
  · intro p
    constructor
    · rintro ⟨u, hu, hcovers⟩
      obtain ⟨t, ht, hu⟩ := List.mem_flatMap.mp hu
      exact ⟨t, ht, hcovers.of_covers ((pieces_remains tokens t).within u hu)⟩
    · rintro ⟨t, ht, hcovers⟩
      exact exists_covers_resolveContainment ht hcovers
  · intro u hu
    obtain ⟨t, ht, hu⟩ := List.mem_flatMap.mp hu
    have hpieces := pieces_remains tokens t
    refine ⟨t, ht, hpieces.within u hu, hpieces.type_eq hu, hpieces.modifiers_eq hu, ?_⟩
    intro s hs hcontains
    obtain ⟨hne, hcovers⟩ := Range.contains_iff.mp hcontains
    exact remains_apart hs hne hcovers hu

end Token
end SemanticHighlight
