import Mathlib.Order.Lattice
import Mathlib.Tactic.Order
import Mathlib.Tactic.SplitIfs
import SemanticHighlight.Position.Range

/-!
# The order of positions

Positions form a linear order, and ranges inherit two relations from it: lying within and lying
apart. Both survive going to smaller ranges and moving everything into a surrounding document, which
is all that highlighting ever does to a range.
-/

namespace SemanticHighlight

namespace Position

instance : LinearOrder Position where
  le_refl := le_refl
  le_trans _ _ _ := le_trans
  lt_iff_le_not_ge p q := by
    rw [lt_def, le_def, le_def]
    omega
  le_antisymm _ _ := le_antisymm
  le_total := le_total
  toDecidableLE := inferInstance
  toDecidableLT := inferInstance
  toDecidableEq := inferInstance
  min_def := min_def
  max_def := max_def

def origin : Position := ⟨0, 0⟩

@[simp] theorem origin_translate (o : Position) : origin.translate o = o := by
  simp [translate, origin]

/-- What follows the beginning of an embedded text follows the place where it is embedded. -/
theorem le_translate {p : Position} (h : origin ≤ p) (o : Position) : o ≤ p.translate o := by
  simpa using translate_le_translate o h

end Position

namespace Range

variable {r s u v : Range}

theorem ofEnds?_eq_ok {p q : Position} : ofEnds? p q = .ok r ↔ r.start = p ∧ r.stop = q := by
  unfold ofEnds?
  split_ifs with h
  · simp [Range.ext_iff, eq_comm]
  · refine ⟨False.elim, ?_⟩
    rintro ⟨rfl, rfl⟩
    exact absurd r.ordered h

theorem covers_iff : r.covers s = true ↔ r.start ≤ s.start ∧ s.stop ≤ r.stop := by
  simp [covers]

theorem contains_iff : r.contains s = true ↔ r ≠ s ∧ r.covers s = true := by
  simp [contains]

theorem intersects_iff : r.intersects s = true ↔ r.start < s.stop ∧ s.start < r.stop := by
  simp [intersects]

theorem covers_refl (r : Range) : r.covers r = true := by
  simp [covers_iff]

theorem covers_trans (hrs : r.covers s = true) (hsu : s.covers u = true) : r.covers u = true := by
  rw [covers_iff] at *
  exact ⟨hrs.1.trans hsu.1, hsu.2.trans hrs.2⟩

theorem covers_antisymm (hrs : r.covers s = true) (hsr : s.covers r = true) : r = s := by
  rw [covers_iff] at *
  exact ext (le_antisymm hrs.1 hsr.1) (le_antisymm hsr.2 hrs.2)

theorem Holds.of_covers {p : Position} (h : r.covers s = true) (hs : s.Holds p) : r.Holds p := by
  rw [covers_iff] at h
  exact ⟨h.1.trans hs.1, hs.2.trans_le h.2⟩

/-- Two ranges that share no stretch of the document; they may touch. -/
def Apart (r s : Range) : Prop := ¬ r.intersects s

instance (r s : Range) : Decidable (r.Apart s) := inferInstanceAs (Decidable (¬ _))

theorem apart_iff : r.Apart s ↔ s.stop ≤ r.start ∨ r.stop ≤ s.start := by
  rw [Apart, intersects_iff, not_and_or, not_lt, not_lt]

theorem Apart.symm (h : r.Apart s) : s.Apart r := by
  rw [apart_iff] at *
  exact h.symm

theorem Apart.of_covers (h : r.Apart s) (hr : r.covers u = true) (hs : s.covers v = true) :
    u.Apart v := by
  rw [apart_iff] at *
  rw [covers_iff] at *
  rcases h with h | h
  · exact Or.inl ((hs.2.trans h).trans hr.1)
  · exact Or.inr ((hr.2.trans h).trans hs.1)

theorem Apart.not_holds {p : Position} (h : r.Apart s) (hr : r.Holds p) : ¬ s.Holds p := by
  rw [apart_iff] at h
  rintro ⟨hstart, hstop⟩
  rcases h with h | h
  · exact absurd (hstop.trans_le h) (not_lt.mpr hr.1)
  · exact absurd (hr.2.trans_le h) (not_lt.mpr hstart)

/-- One range lies within the other, or they share nothing. -/
def NestedOrApart (r s : Range) : Prop := r.covers s ∨ s.covers r ∨ r.Apart s

instance (r s : Range) : Decidable (r.NestedOrApart s) := inferInstanceAs (Decidable (_ ∨ _ ∨ _))

theorem NestedOrApart.symm (h : r.NestedOrApart s) : s.NestedOrApart r := by
  rcases h with h | h | h
  · exact Or.inr (Or.inl h)
  · exact Or.inl h
  · exact Or.inr (Or.inr h.symm)

theorem NestedOrApart.refl (r : Range) : r.NestedOrApart r := Or.inl (covers_refl r)

theorem covers_translate (o : Position) (h : r.covers s = true) :
    (r.translate o).covers (s.translate o) = true := by
  rw [covers_iff] at *
  exact ⟨Position.translate_le_translate o h.1, Position.translate_le_translate o h.2⟩

theorem Apart.translate (o : Position) (h : r.Apart s) : (r.translate o).Apart (s.translate o) := by
  rw [apart_iff] at *
  exact h.imp (Position.translate_le_translate o) (Position.translate_le_translate o)

end Range

end SemanticHighlight
