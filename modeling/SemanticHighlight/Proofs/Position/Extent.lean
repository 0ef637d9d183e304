import Mathlib.Data.List.DropRight
import Mathlib.Tactic.SplitIfs
import SemanticHighlight.Position.LineIndex
import SemanticHighlight.Proofs.Position.Order

/-!
# How far a text reaches

The extent of a text is the position of its end if it begins at `0:0`: as many lines down as it has
line feeds, as many columns to the right as its last line has UTF-16 units. A line index finds the
position before a character as the extent of what stands before it (`ofOffset_eq`), and putting two
texts one after the other translates the extent of the second by that of the first
(`extent_append`). Everything else about offsets follows from these two.
-/

namespace SemanticHighlight

namespace Text

open CodePoint (newline)

/-- What follows the last line feed. -/
def lastLine (t : Text) : Text := t.rtakeWhile (· ≠ newline)

/-- The position of the end of a text that begins at `0:0`. -/
def extent (t : Text) : Position := ⟨t.count newline, (lastLine t).utf16Length⟩

theorem lastLine_of_line {t : Text} (h : newline ∉ t) : lastLine t = t := by
  apply List.rtakeWhile_eq_self_iff.mpr
  intro c hc
  simpa using fun hcn : c = newline => h (hcn ▸ hc)

theorem lastLine_append_of_line (s : Text) {t : Text} (h : newline ∉ t) :
    lastLine (s ++ t) = lastLine s ++ t := by
  induction t using List.reverseRecOn with
  | nil => simp
  | append_singleton t c ih =>
    obtain ⟨ht, hc⟩ : newline ∉ t ∧ newline ≠ c := by simpa using h
    have hrest := ih ht
    unfold lastLine at hrest ⊢
    rw [← List.append_assoc, List.rtakeWhile_concat_pos _ _ _ (by simpa using Ne.symm hc), hrest,
      List.append_assoc]

theorem lastLine_append_of_mem (s : Text) {t : Text} (h : newline ∈ t) :
    lastLine (s ++ t) = lastLine t := by
  induction t using List.reverseRecOn with
  | nil => cases h
  | append_singleton t c ih =>
    unfold lastLine at ih ⊢
    rw [← List.append_assoc]
    by_cases hc : c = newline
    · simp [hc]
    · have ht : newline ∈ t := by simpa [Ne.symm hc] using h
      rw [List.rtakeWhile_concat_pos _ _ _ (by simpa using hc),
        List.rtakeWhile_concat_pos _ _ _ (by simpa using hc), ih ht]

/-- A text that follows another one moves by the extent of that one. -/
theorem extent_append (s t : Text) : extent (s ++ t) = (extent t).translate (extent s) := by
  unfold extent Position.translate
  rw [List.count_append]
  by_cases h : newline ∈ t
  · have hpos : 0 < t.count newline := List.count_pos_iff.mpr h
    rw [lastLine_append_of_mem s h, if_neg (by simp only; omega)]
    simp
  · have hzero : t.count newline = 0 := List.count_eq_zero.mpr h
    rw [lastLine_append_of_line s h, if_pos (by simp [hzero]), lastLine_of_line h]
    simp [hzero]

theorem extent_of_line {t : Text} (h : newline ∉ t) : extent t = ⟨0, t.utf16Length⟩ := by
  rw [extent, lastLine_of_line h, List.count_eq_zero.mpr h]
  rfl

theorem extent_line_append {line : Text} (h : newline ∉ line) (t : Text) :
    extent (line ++ newline :: t) = ⟨1 + (extent t).line, (extent t).column⟩ := by
  have hbreak : extent (line ++ [newline]) = ⟨1, 0⟩ := by
    rw [extent_append, extent_of_line h]
    rfl
  rw [List.append_cons, extent_append, hbreak, Position.translate]
  split_ifs with hline
  · simp [hline]
  · rfl

theorem origin_le_extent (t : Text) : Position.origin ≤ extent t := by
  rw [Position.le_def]
  simp only [Position.origin, extent]
  omega

theorem extent_le_append (s t : Text) : extent s ≤ extent (s ++ t) := by
  rw [extent_append]
  exact Position.le_translate (origin_le_extent t) _

theorem extent_take_le (t : Text) {m n : Nat} (h : m ≤ n) :
    extent (t.take m) ≤ extent (t.take n) := by
  obtain ⟨k, rfl⟩ := Nat.exists_eq_add_of_le h
  rw [List.take_add]
  exact extent_le_append _ _

end Text
end SemanticHighlight
