import Mathlib.Tactic.SplitIfs
import SemanticHighlight.Text.Utf16

/-!
# Reading units back

Joining pairs undoes cutting a text into units, as long as no surrogate stands in the text by itself
(`ofUnits_toUnits`). So the units between two characters of a line, however wide those before and
behind them are, show what stands between the two (`sliceUnits_append`).
-/

namespace SemanticHighlight.Text

variable {c : CodePoint} {t : Text}

theorem toUnits_append (s t : Text) : toUnits (s ++ t) = toUnits s ++ toUnits t :=
  List.flatMap_append

theorem length_toUnits (t : Text) : (toUnits t).length = utf16Length t := by
  induction t with
  | nil => rfl
  | cons c rest ih =>
    have hwidth : (unitsOf c).length = utf16Width c := by
      unfold unitsOf utf16Width
      split_ifs <;> rfl
    rw [toUnits, List.flatMap_cons, List.length_append, hwidth, utf16Length_cons, ← ih, toUnits]

/-! ## Joining pairs -/

theorem val_ofNat {n : Nat} (h : n < 0x110000) : (CodePoint.ofNat n).val = n := by
  rw [CodePoint.ofNat, dif_pos h]

theorem ofUnits_cons (h : c.isSurrogate = false) (units : List CodePoint) :
    ofUnits (c :: units) = c :: ofUnits units := by
  cases units with
  | nil => simp [ofUnits, h]
  | cons v rest =>
    have hhigh : c.isHighSurrogate = false := by
      simp only [CodePoint.isSurrogate, CodePoint.isHighSurrogate, Bool.and_eq_false_iff,
        decide_eq_false_iff_not] at h ⊢
      omega
    simp [ofUnits, h, hhigh]

/-- A character past U+FFFF is joined from its two surrogates. -/
theorem ofUnits_unitsOf_append (h : 0x10000 ≤ c.val) (units : List CodePoint) :
    ofUnits (unitsOf c ++ units) = c :: ofUnits units := by
  have hc := c.isLt
  have hhigh : (CodePoint.ofNat (0xD800 + (c.val - 0x10000) / 0x400)).val =
      0xD800 + (c.val - 0x10000) / 0x400 := val_ofNat (by omega)
  have hlow : (CodePoint.ofNat (0xDC00 + (c.val - 0x10000) % 0x400)).val =
      0xDC00 + (c.val - 0x10000) % 0x400 := val_ofNat (by omega)
  rw [unitsOf, if_neg (by omega), List.cons_append, List.singleton_append, ofUnits, if_pos]
  · refine congrArg (· :: ofUnits units) (Fin.ext ?_)
    rw [ofPair, hhigh, hlow, val_ofNat (by omega)]
    omega
  · simp only [CodePoint.isHighSurrogate, CodePoint.isLowSurrogate, hhigh, hlow, Bool.and_eq_true,
      decide_eq_true_eq]
    omega

theorem ofUnits_toUnits (h : ∀ c ∈ t, c.isSurrogate = false) : ofUnits (toUnits t) = t := by
  induction t with
  | nil => rfl
  | cons c rest ih =>
    obtain ⟨hc, hrest⟩ := List.forall_mem_cons.mp h
    rw [toUnits, List.flatMap_cons, ← toUnits]
    by_cases hwide : 0x10000 ≤ c.val
    · rw [ofUnits_unitsOf_append hwide, ih hrest]
    · rw [unitsOf, if_pos (by omega), List.singleton_append, ofUnits_cons hc, ih hrest]

/-! ## Cutting -/

theorem cutIndex_of_le {length n : Nat} (h : n ≤ length) : cutIndex length n = n := by
  rw [cutIndex, if_neg (by omega), Int.toNat_natCast, Nat.min_eq_left h]

/-- The units between two characters show what stands between them. -/
theorem sliceUnits_append {before shown after : Text} (h : ∀ c ∈ shown, c.isSurrogate = false) :
    sliceUnits (before ++ shown ++ after) before.utf16Length (before ++ shown).utf16Length =
      shown := by
  have hstart : before.utf16Length ≤ (toUnits (before ++ shown ++ after)).length := by
    simp only [length_toUnits, utf16Length_append]
    omega
  have hstop : (before ++ shown).utf16Length ≤ (toUnits (before ++ shown ++ after)).length := by
    rw [length_toUnits, utf16Length_append (before ++ shown)]
    omega
  have hwidth : (before ++ shown).utf16Length - before.utf16Length = (toUnits shown).length := by
    rw [utf16Length_append, length_toUnits]
    omega
  rw [sliceUnits]
  rw [cutIndex_of_le hstart, cutIndex_of_le hstop, hwidth, toUnits_append, toUnits_append,
    List.append_assoc, ← length_toUnits before, List.drop_left, List.take_left, ofUnits_toUnits h]

end SemanticHighlight.Text
