import Mathlib.Order.Interval.Set.Defs
import Mathlib.Order.Monotone.Basic
import SemanticHighlight.Proofs.Position.Offset

/-!
# Which offsets span a range

A text reaches further with every character: a line feed takes the end of the text to the next line,
and any other character to the right. So of two offsets the smaller one has the smaller position, and
two offsets span a range unless they are in the wrong order (`ofOffset_strictMono`).
-/

namespace SemanticHighlight

namespace Position

/-- What stands behind the beginning of an embedded text stands behind the place where it is
embedded. -/
theorem lt_translate {p : Position} (h : origin < p) (o : Position) : o < p.translate o := by
  rw [lt_def] at h ⊢
  unfold translate
  simp only [origin] at h
  split_ifs <;> simp only [true_and] <;> omega

end Position

namespace Text

open CodePoint (newline)

theorem utf16Length_pos {t : Text} (h : t ≠ []) : 0 < t.utf16Length := by
  obtain ⟨c, rest, rfl⟩ := List.exists_cons_of_ne_nil h
  rw [utf16Length_cons]
  exact Nat.add_pos_left (utf16Width_pos c) _

theorem origin_lt_extent {t : Text} (h : t ≠ []) : Position.origin < extent t := by
  rw [Position.lt_def]
  by_cases hline : newline ∈ t
  · have hcount : 0 < t.count newline := List.count_pos_iff.mpr hline
    exact Or.inl (Int.natCast_pos.mpr hcount)
  · rw [extent_of_line hline]
    exact Or.inr ⟨rfl, Int.natCast_pos.mpr (utf16Length_pos h)⟩

theorem extent_lt_append (s : Text) {t : Text} (h : t ≠ []) : extent s < extent (s ++ t) := by
  rw [extent_append]
  exact Position.lt_translate (origin_lt_extent h) _

theorem strictMonoOn_extent_take (t : Text) :
    StrictMonoOn (fun n => extent (t.take n)) (Set.Iic t.length) := by
  intro m hm n hn hlt
  obtain ⟨k, rfl⟩ := Nat.exists_eq_add_of_lt hlt
  have hrest : (t.drop m).take (k + 1) ≠ [] := by
    intro hnil
    have hlength := congrArg List.length hnil
    simp only [List.length_take, List.length_drop, List.length_nil, Set.mem_Iic] at hlength hn
    omega
  show extent (t.take m) < extent (t.take (m + k + 1))
  rw [Nat.add_assoc, List.take_add]
  exact extent_lt_append _ hrest

end Text

namespace LineIndex

open CodePoint (newline)
open Text (extent lastLine strictMonoOn_extent_take)

/-- Two offsets in the wrong order span no range. -/
theorem rangeOf_inverted {t : Text} {i j : Nat} (hji : j < i) (hi : i ≤ t.length) :
    (ofText t).rangeOf i j = .error (.inverted ⟨extent (t.take i), extent (t.take j)⟩) := by
  have hlt : extent (t.take j) < extent (t.take i) :=
    strictMonoOn_extent_take t (hji.le.trans hi) hi hji
  rw [rangeOf, ofOffset_eq hi, ofOffset_eq (hji.le.trans hi)]
  show (Range.ofEnds? (extent (t.take i)) (extent (t.take j))).mapError SpanError.inverted = _
  rw [Range.ofEnds?, dif_neg (not_le.mpr hlt)]
  rfl

/-- The line of an offset is the number of line feeds before it, and its column the number of units
since the last of them. Offsets are ordered like their positions, and two of them span a range exactly
if the second is not the smaller one. -/
theorem ofOffset_strictMono (t : Text) :
    (∀ n : Nat, n ≤ t.length → (ofText t).ofOffset n =
      .ok ⟨(t.take n).count newline, (lastLine (t.take n)).utf16Length⟩) ∧
    ∀ i j : Nat, i ≤ t.length → j ≤ t.length →
      ∃ p q, (ofText t).ofOffset i = .ok p ∧ (ofText t).ofOffset j = .ok q ∧ (i < j ↔ p < q) ∧
        ((∃ e, (ofText t).rangeOf i j = .error (.inverted e)) ↔ j < i) ∧
        (i ≤ j → ∃ r, (ofText t).rangeOf i j = .ok r ∧ r.start = p ∧ r.stop = q) := by
  refine ⟨fun n hn => ofOffset_eq hn, fun i j hi hj => ?_⟩
  have hlt : extent (t.take i) < extent (t.take j) ↔ i < j :=
    (strictMonoOn_extent_take t).lt_iff_lt hi hj
  have hspan : i ≤ j → ∃ r, (ofText t).rangeOf i j = .ok r ∧ r.start = extent (t.take i) ∧
      r.stop = extent (t.take j) := fun hij => ⟨_, rangeOf_eq hij hj, rfl, rfl⟩
  refine ⟨_, _, ofOffset_eq hi, ofOffset_eq hj, hlt.symm, ⟨?_, ?_⟩, hspan⟩
  · rintro ⟨e, he⟩
    by_contra hle
    obtain ⟨r, hr, -⟩ := hspan (not_lt.mp hle)
    cases hr.symm.trans he
  · exact fun hji => ⟨_, rangeOf_inverted hji hi⟩

/-- Before and behind a pair of surrogates, over a line feed and at the end of the text, in either
order. -/
theorem ofOffset_strictMono_mixed :
    let t : Text := [0x61, 0x1F600, 13, 10, 0xD800, 10]
    4 ≤ t.length ∧ 6 ≤ t.length ∧ (ofText t).ofOffset (4 : Nat) = .ok ⟨1, 0⟩ ∧
      (ofText t).ofOffset (6 : Nat) = .ok ⟨2, 0⟩ ∧
      (∃ e, (ofText t).rangeOf (6 : Nat) (4 : Nat) = .error (.inverted e)) ∧
      ∃ r, (ofText t).rangeOf (4 : Nat) (6 : Nat) = .ok r ∧ r.start = ⟨1, 0⟩ ∧ r.stop = ⟨2, 0⟩ := by
  intro t
  have hmiddle : 4 ≤ t.length := by decide
  have hend : 6 ≤ t.length := by decide
  obtain ⟨hplace, hspan⟩ := ofOffset_strictMono t
  have hfirst : (ofText t).ofOffset (4 : Nat) = .ok ⟨1, 0⟩ := hplace 4 hmiddle
  have hlast : (ofText t).ofOffset (6 : Nat) = .ok ⟨2, 0⟩ := hplace 6 hend
  obtain ⟨-, -, -, -, -, hinverted, -⟩ := hspan 6 4 hend hmiddle
  obtain ⟨p, q, hp, hq, -, -, hordered⟩ := hspan 4 6 hmiddle hend
  cases hfirst.symm.trans hp
  cases hlast.symm.trans hq
  exact ⟨hmiddle, hend, hfirst, hlast, hinverted.mpr (by decide), hordered (by decide)⟩

end LineIndex
end SemanticHighlight
