import SemanticHighlight.Proofs.Position.Offset
import SemanticHighlight.Proofs.Position.Point

/-!
# Byte columns are rounded down

A byte column may lie inside a character, past the end of its line or in a row that the text does not
have. In each case the column of the position is that of the longest initial part of the line that
takes no more bytes (`ofPoint_roundsDown`), an empty one outside the text. Whether the characters are
counted or looked up makes no difference, and later points never give earlier positions.
-/

namespace SemanticHighlight

namespace Text

def lineAt (t : Text) (row : Int) : Text := if 0 ≤ row then t.lines.getD row.toNat [] else []

/-- A text is the longest initial part of a line that takes at most so many bytes. -/
structure Fills (s line : Text) (bytes : Int) : Prop where
  isPrefix : s <+: line
  fits : (encodeUtf8 s).length ≤ bytes
  longest : ∀ u, u <+: line → ((encodeUtf8 u).length : Int) ≤ bytes → u.length ≤ s.length

theorem length_encodeUtf8_cons (c : CodePoint) (t : Text) :
    (encodeUtf8 (c :: t)).length = utf8Width c + (encodeUtf8 t).length := by
  rw [← length_encodeCodePoint, ← List.length_append]
  rfl

theorem length_encodeUtf8_fitting {bytes : Int} (h : 0 ≤ bytes) (t : Text) :
    (encodeUtf8 (fitting bytes t)).length ≤ bytes := by
  induction t generalizing bytes with
  | nil => exact h
  | cons c rest ih =>
    rw [fitting]
    split_ifs with hfits
    · have hrest : (encodeUtf8 (fitting (bytes - utf8Width c) rest)).length ≤ bytes - utf8Width c :=
        ih (by omega)
      rw [length_encodeUtf8_cons]
      omega
    · exact h

theorem isPrefix_fitting {bytes : Int} {s t : Text} (hs : s <+: t)
    (hfits : ((encodeUtf8 s).length : Int) ≤ bytes) : s <+: fitting bytes t := by
  induction s generalizing bytes t with
  | nil => exact List.nil_prefix
  | cons c s ih =>
    obtain ⟨rest, rfl, hrest⟩ := List.cons_prefix_iff.mp hs
    rw [length_encodeUtf8_cons] at hfits
    rw [fitting, if_pos (by omega)]
    exact (List.prefix_cons_inj c).mpr (ih hrest (by omega))

theorem fills_fitting {bytes : Int} (h : 0 ≤ bytes) (line : Text) :
    (fitting bytes line).Fills line bytes where
  isPrefix := fitting_isPrefix bytes line
  fits := length_encodeUtf8_fitting h line
  longest _ hu hfits := (isPrefix_fitting hu hfits).length_le

end Text

namespace LineIndex

open Text (fitting fills_fitting)

theorem line_ofText_eq (t : Text) (row : Int) : (ofText t).line row = t.lineAt row := by
  unfold Text.lineAt
  split_ifs with hrow
  · obtain ⟨n, rfl⟩ := Int.eq_ofNat_of_zero_le hrow
    rw [line_ofText, Int.toNat_natCast, List.getD_eq_getElem?_getD]
  · rw [line, if_pos (by omega)]

/-- The column is that of the longest initial part of the line that takes no more bytes, for every row
and byte column. In an ASCII line the lookup finds what counting gives. Points in order give positions
in order. -/
theorem ofPoint_roundsDown (t : Text) :
    (∀ row bytes : Int, 0 ≤ bytes → ∃ s : Text, s.Fills (t.lineAt row) bytes ∧
      (ofText t).ofPoint ⟨row, bytes⟩ = ⟨row, s.utf16Length⟩) ∧
    (∀ (line : Text) (bytes : Int), line.isAscii = true → 0 ≤ bytes →
      (tableColumn line bytes : Int) = min bytes line.length) ∧
    ∀ p q : Point, 0 ≤ p.column → 0 ≤ q.column → p.NotAfter q →
      (ofText t).ofPoint p ≤ (ofText t).ofPoint q := by
  refine ⟨fun row bytes hbytes => ?_, fun line bytes hline hbytes => ?_, fun p q hp _ hpq => ?_⟩
  · refine ⟨fitting bytes (t.lineAt row), fills_fitting hbytes _, ?_⟩
    rw [ofPoint, columnOf_eq _ hbytes, line_ofText_eq]
  · rw [tableColumn_eq line hbytes, utf16Length_fitting_of_isAscii hline hbytes]
  · exact (ofText t).ofPoint_le_ofPoint hp hpq

/-- A byte column inside the character past U+FFFF, one past the end of an ASCII line, and a point
behind the last line. -/
theorem ofPoint_roundsDown_insideCharacter :
    let t : Text := [0x61, 0xE9, 0x20AC, 0x1F600, 0x62, 10, 0xD800]
    (0 : Int) ≤ 8 ∧
      (∃ s : Text, s.Fills (t.lineAt 0) 8 ∧ (ofText t).ofPoint ⟨0, 8⟩ = ⟨0, s.utf16Length⟩) ∧
      (ofText t).ofPoint ⟨0, 8⟩ = ⟨0, 3⟩ ∧
      Text.isAscii [0x61, 0x62] = true ∧ (tableColumn [0x61, 0x62] 8 : Int) = min 8 2 ∧
      Point.NotAfter ⟨0, 8⟩ ⟨5, 0⟩ ∧ (ofText t).ofPoint ⟨0, 8⟩ ≤ (ofText t).ofPoint ⟨5, 0⟩ := by
  intro t
  have hbytes : (0 : Int) ≤ 8 := by decide
  have hascii : Text.isAscii [0x61, 0x62] = true := by decide
  have horder : Point.NotAfter ⟨0, 8⟩ ⟨5, 0⟩ := by decide
  obtain ⟨hcolumn, hlookup, hmono⟩ := ofPoint_roundsDown t
  exact ⟨hbytes, hcolumn 0 8 hbytes, by decide +kernel, hascii, hlookup _ 8 hascii hbytes, horder,
    hmono _ _ hbytes (by decide) horder⟩

end LineIndex
end SemanticHighlight
