import SemanticHighlight.Position.LineIndex
import SemanticHighlight.Proofs.Position.Order

/-!
# Points and positions

A byte column falls on or behind some character of its line. The column of the position is the
UTF-16 length of the characters that fit into the bytes (`columnOf_eq`), whether the line is ASCII or
its boundaries have to be looked up. So it never leaves the line, and points in order give positions
in order (`ofPoint_le_ofPoint`).
-/

namespace SemanticHighlight

namespace Text

/-- The longest initial part of a text that takes at most so many bytes. -/
def fitting : Int → Text → Text
  | _, [] => []
  | bytes, c :: rest =>
    if utf8Width c ≤ bytes then c :: fitting (bytes - utf8Width c) rest else []

theorem fitting_isPrefix (bytes : Int) (t : Text) : fitting bytes t <+: t := by
  induction t generalizing bytes with
  | nil => exact List.prefix_rfl
  | cons c rest ih =>
    rw [fitting]
    split_ifs
    · exact (List.prefix_cons_inj c).mpr (ih _)
    · exact List.nil_prefix

theorem fitting_mono {bytes more : Int} (h : bytes ≤ more) (t : Text) :
    fitting bytes t <+: fitting more t := by
  induction t generalizing bytes more with
  | nil => exact List.prefix_rfl
  | cons c rest ih =>
    rw [fitting, fitting]
    split_ifs with hbytes hmore
    · exact (List.prefix_cons_inj c).mpr (ih (by omega))
    · omega
    · exact List.nil_prefix
    · exact List.nil_prefix

theorem utf16Length_le {s t : Text} (h : s <+: t) : utf16Length s ≤ utf16Length t := by
  obtain ⟨rest, rfl⟩ := h
  rw [utf16Length_append]
  exact Nat.le_add_right _ _

end Text

namespace LineIndex

open Text (fitting fitting_isPrefix fitting_mono utf16Length_le)

theorem le_of_mem_boundariesFrom {line : Text} {bytes units : Nat} {entry : Nat × Nat}
    (h : entry ∈ boundariesFrom bytes units line) : bytes ≤ entry.1 := by
  induction line generalizing bytes units with
  | nil => rw [List.mem_singleton.mp h]
  | cons c rest ih =>
    rcases List.mem_cons.mp h with rfl | h
    · exact Nat.le_refl _
    · have hle := ih h
      omega

/-- The boundaries up to a byte column end at the one behind the characters that fit. -/
theorem boundariesFrom_eq_append (line : Text) (bytes units : Nat) {column : Int}
    (h : (bytes : Int) ≤ column) :
    ∃ (before : List (Nat × Nat)) (last : Nat) (after : List (Nat × Nat)),
      boundariesFrom bytes units line =
        before ++ (last, units + (fitting (column - bytes) line).utf16Length) :: after ∧
      (∀ entry ∈ before, (entry.1 : Int) ≤ column) ∧ (last : Int) ≤ column ∧
      ∀ entry ∈ after, column < entry.1 := by
  induction line generalizing bytes units with
  | nil => exact ⟨[], bytes, [], by simp [boundariesFrom, fitting], by simp, h, by simp⟩
  | cons c rest ih =>
    rw [boundariesFrom, fitting]
    by_cases hfits : (Text.utf8Width c : Int) ≤ column - bytes
    · obtain ⟨before, last, after, heq, hbefore, hlast, hafter⟩ :=
        ih (bytes + Text.utf8Width c) (units + Text.utf16Width c) (by omega)
      refine ⟨(bytes, units) :: before, last, after, ?_, ?_, hlast, hafter⟩
      · have hrest : column - ((bytes + Text.utf8Width c : Nat) : Int) =
            column - bytes - Text.utf8Width c := by omega
        rw [heq, if_pos hfits, hrest, Text.utf16Length_cons, Nat.add_assoc, List.cons_append]
      · simpa [h] using hbefore
    · refine ⟨[], bytes, boundariesFrom (bytes + Text.utf8Width c) (units + Text.utf16Width c) rest,
        by simp [if_neg hfits], by simp, h, fun entry hentry => ?_⟩
      have hle := le_of_mem_boundariesFrom hentry
      omega

theorem tableColumn_eq (line : Text) {column : Int} (h : 0 ≤ column) :
    tableColumn line column = (fitting column line).utf16Length := by
  obtain ⟨before, last, after, heq, hbefore, hlast, hafter⟩ :=
    boundariesFrom_eq_append line 0 0 (by simpa using h : ((0 : Nat) : Int) ≤ column)
  rw [Int.natCast_zero, Int.sub_zero, Nat.zero_add] at heq
  have hboundary : Bisection.boundary (fun entry : Nat × Nat => decide ((entry.1 : Int) ≤ column))
      (boundariesFrom 0 0 line).toArray = before.length + 1 := by
    rw [heq, List.append_cons, Bisection.boundary_append, List.length_append, List.length_singleton]
    · intro entry hentry
      rcases List.mem_append.mp hentry with hentry | hentry
      · exact decide_eq_true (hbefore entry hentry)
      · rw [List.mem_singleton.mp hentry]
        exact decide_eq_true hlast
    · exact fun entry hentry => decide_eq_false (not_le.mpr (hafter entry hentry))
  rw [tableColumn, hboundary, heq]
  simp

theorem utf16Length_fitting_of_isAscii {line : Text} (hline : line.isAscii = true) {column : Int}
    (h : 0 ≤ column) : ((fitting column line).utf16Length : Int) = min column line.length := by
  induction line generalizing column with
  | nil => simp [fitting, h]
  | cons c rest ih =>
    obtain ⟨hc, hrest⟩ : c.isAscii = true ∧ Text.isAscii rest = true := by
      simpa [Text.isAscii] using hline
    have hval : c.val < 0x80 := by simpa [CodePoint.isAscii] using hc
    have hutf8 : Text.utf8Width c = 1 := by simp [Text.utf8Width, hval]
    have hutf16 : Text.utf16Width c = 1 := by
      rw [Text.utf16Width, if_pos (by omega)]
    rw [fitting, hutf8]
    split_ifs with hfits
    · rw [Text.utf16Length_cons, hutf16, Int.natCast_add, ih hrest (by omega), List.length_cons]
      omega
    · rw [Text.utf16Length_nil, List.length_cons]
      omega

/-- The column is the UTF-16 length of the characters that fit into the bytes before it. -/
theorem columnOf_eq (line : Text) {column : Int} (h : 0 ≤ column) :
    columnOf line column = (fitting column line).utf16Length := by
  rw [columnOf]
  split_ifs with hascii
  · exact (utf16Length_fitting_of_isAscii hascii h).symm
  · rw [tableColumn_eq line h]

theorem columnOf_le_columnOf (line : Text) {column later : Int} (h : 0 ≤ column)
    (hle : column ≤ later) : columnOf line column ≤ columnOf line later := by
  rw [columnOf_eq line h, columnOf_eq line (h.trans hle)]
  exact_mod_cast utf16Length_le (fitting_mono hle line)

theorem columnOf_le (line : Text) {column : Int} (h : 0 ≤ column) :
    columnOf line column ≤ line.utf16Length := by
  rw [columnOf_eq line h]
  exact_mod_cast utf16Length_le (fitting_isPrefix column line)

theorem columnOf_nonneg (line : Text) {column : Int} (h : 0 ≤ column) : 0 ≤ columnOf line column := by
  rw [columnOf_eq line h]
  exact Int.natCast_nonneg _

end LineIndex

namespace Point

/-- Points are ordered like positions, row by row. -/
def NotAfter (p q : Point) : Prop := p.row < q.row ∨ (p.row = q.row ∧ p.column ≤ q.column)

instance (p q : Point) : Decidable (p.NotAfter q) := inferInstanceAs (Decidable (_ ∨ _))

end Point

/-- Points in order, none of them in a negative column, give positions in order. -/
theorem LineIndex.ofPoint_le_ofPoint (index : LineIndex) {p q : Point} (hp : 0 ≤ p.column)
    (h : p.NotAfter q) : index.ofPoint p ≤ index.ofPoint q := by
  rcases h with hrow | ⟨hrow, hcolumn⟩
  · exact Or.inl hrow
  · refine Or.inr ⟨hrow, ?_⟩
    rw [ofPoint, ofPoint, hrow]
    exact columnOf_le_columnOf _ hp hcolumn

end SemanticHighlight
