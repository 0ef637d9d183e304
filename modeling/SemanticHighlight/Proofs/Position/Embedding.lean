import SemanticHighlight.Proofs.Position.Offset

/-!
# Texts within texts

A region of a document is read as a text of its own, and regions may lie within regions. A position
in the innermost text goes back to the document through the origins of the regions, one after the
other; on the way it always stands before the same character (`outward_ofOffset`).
-/

namespace SemanticHighlight

namespace Text

/-- The characters from number `start` up to number `stop`. -/
def slice (t : Text) (start stop : Nat) : Text := (t.take stop).drop start

theorem take_append_slice (t : Text) {i j : Nat} (h : i ≤ j) : t.take i ++ t.slice i j = t.take j := by
  have htake : t.take i = (t.take j).take i := by rw [List.take_take, Nat.min_eq_left h]
  rw [slice, htake, List.take_append_drop]

theorem length_slice {t : Text} {i j : Nat} (hj : j ≤ t.length) : (t.slice i j).length = j - i := by
  simp [slice, Nat.min_eq_left hj]

theorem take_slice (t : Text) {i j k : Nat} (hk : i + k ≤ j) :
    (t.slice i j).take k = t.slice i (i + k) := by
  rw [slice, slice, List.take_drop, List.take_take, Nat.min_eq_left hk]

theorem getElem?_slice (t : Text) {i j k : Nat} (hk : i + k < j) :
    (t.slice i j)[k]? = t[i + k]? := by
  rw [slice, List.getElem?_drop, List.getElem?_take_of_lt hk]

/-- What stands before a character within a stretch, moved to where the stretch begins, is what
stands before that character in the whole text. -/
theorem extent_take_slice (t : Text) {i j k : Nat} (hk : i + k ≤ j) :
    (extent ((t.slice i j).take k)).translate (extent (t.take i)) = extent (t.take (i + k)) := by
  rw [take_slice t hk, ← extent_append, take_append_slice t (Nat.le_add_right i k)]

end Text

/-- A stretch of characters that is taken out of a text. -/
structure Cut where
  start : Nat
  stop : Nat
  deriving DecidableEq, Repr

namespace Cut

open LineIndex (ofText ofOffset_eq)

/-- What is left of a text after one cut after the other. -/
def innermost (t : Text) : List Cut → Text
  | [] => t
  | c :: cuts => innermost (t.slice c.start c.stop) cuts

/-- Each cut lies within what the cuts before it have left. -/
def Fit (t : Text) : List Cut → Prop
  | [] => True
  | c :: cuts => c.start ≤ c.stop ∧ c.stop ≤ t.length ∧ Fit (t.slice c.start c.stop) cuts

instance decidableFit (t : Text) : (cuts : List Cut) → Decidable (Fit t cuts)
  | [] => .isTrue trivial
  | c :: cuts =>
    have := decidableFit (t.slice c.start c.stop) cuts
    inferInstanceAs (Decidable (_ ∧ _ ∧ _))

def offset : List Cut → Nat
  | [] => 0
  | c :: cuts => c.start + offset cuts

/-- Moves a position of the innermost text to the whole text, the innermost origin first. -/
def outward (t : Text) : List Cut → Position → Except OutsideText Position
  | [], p => .ok p
  | c :: cuts, p => do
    let q ← outward (t.slice c.start c.stop) cuts p
    return q.translate (← (ofText t).ofOffset c.start)

theorem offset_add_length_innermost_le {t : Text} {cuts : List Cut} (h : Fit t cuts) :
    offset cuts + (innermost t cuts).length ≤ t.length := by
  induction cuts generalizing t with
  | nil => simp [offset, innermost]
  | cons c cuts ih =>
    obtain ⟨hle, hstop, hrest⟩ := h
    have hinner := ih hrest
    rw [Text.length_slice hstop] at hinner
    simp only [offset, innermost] at hinner ⊢
    omega

theorem getElem?_innermost {t : Text} {cuts : List Cut} (h : Fit t cuts) {k : Nat}
    (hk : k < (innermost t cuts).length) : (innermost t cuts)[k]? = t[offset cuts + k]? := by
  induction cuts generalizing t with
  | nil => simp [offset, innermost]
  | cons c cuts ih =>
    obtain ⟨hle, hstop, hrest⟩ := h
    have hinner := offset_add_length_innermost_le hrest
    rw [Text.length_slice hstop] at hinner
    simp only [innermost] at hk ⊢
    rw [ih hrest hk, Text.getElem?_slice t (by omega), offset, Nat.add_assoc]

/-- The whole way outwards: the position before a character of the innermost text becomes the
position before the same character of the whole text. -/
theorem outward_extent {t : Text} {cuts : List Cut} (h : Fit t cuts) {k : Nat}
    (hk : k ≤ (innermost t cuts).length) :
    outward t cuts (Text.extent ((innermost t cuts).take k)) =
      .ok (Text.extent (t.take (offset cuts + k))) := by
  induction cuts generalizing t with
  | nil => simp [outward, offset, innermost]
  | cons c cuts ih =>
    obtain ⟨hle, hstop, hrest⟩ := h
    have hinner := offset_add_length_innermost_le hrest
    rw [Text.length_slice hstop] at hinner
    simp only [innermost] at hk ⊢
    rw [outward, ih hrest hk, ofOffset_eq (hle.trans hstop)]
    have hmove := Text.extent_take_slice t (i := c.start) (j := c.stop) (k := offset cuts + k)
      (by omega)
    simp only [bind, Except.bind, pure, Except.pure, hmove]
    rw [offset, Nat.add_assoc]

/-- Positions of embedded texts stand before the same characters of the document: one level down,
and by way of any number of levels. -/
theorem outward_ofOffset (t : Text) :
    (∀ i j k : Nat, i ≤ j → j ≤ t.length → k ≤ j - i →
      ∃ origin p, (ofText t).ofOffset i = .ok origin ∧
        (ofText (t.slice i j)).ofOffset k = .ok p ∧
        (ofText t).ofOffset (i + k : Nat) = .ok (p.translate origin)) ∧
    ∀ (cuts : List Cut) (k : Nat), Fit t cuts → k ≤ (innermost t cuts).length →
      (k < (innermost t cuts).length → (innermost t cuts)[k]? = t[offset cuts + k]?) ∧
      ∃ p q, (ofText (innermost t cuts)).ofOffset k = .ok p ∧
        outward t cuts p = .ok q ∧ (ofText t).ofOffset (offset cuts + k : Nat) = .ok q := by
  constructor
  · intro i j k hij hj hk
    refine ⟨_, _, ofOffset_eq (hij.trans hj), ofOffset_eq (by rwa [Text.length_slice hj]), ?_⟩
    rw [Text.extent_take_slice t (by omega)]
    exact ofOffset_eq (by omega)
  · intro cuts k hfit hk
    have hlength := offset_add_length_innermost_le hfit
    refine ⟨getElem?_innermost hfit, _, _, ofOffset_eq hk, outward_extent hfit hk, ?_⟩
    exact ofOffset_eq (by omega)

/-- A pair of surrogates, a carriage return and a lone surrogate on the way out of two regions. -/
theorem outward_ofOffset_mixed :
    let t : Text := [0x1F600, 10, 97, 13, 10, 0xD800, 0x1F600, 98]
    let cuts : List Cut := [⟨1, 8⟩, ⟨1, 6⟩]
    Fit t cuts ∧ 5 ≤ (innermost t cuts).length ∧
      ∃ p q, (ofText (innermost t cuts)).ofOffset (5 : Nat) = .ok p ∧
        outward t cuts p = .ok q ∧ (ofText t).ofOffset (offset cuts + 5 : Nat) = .ok q := by
  intro t cuts
  have hfit : Fit t cuts := by decide
  have hle : 5 ≤ (innermost t cuts).length := by decide
  exact ⟨hfit, hle, ((outward_ofOffset t).2 cuts 5 hfit hle).2⟩

end Cut

end SemanticHighlight
