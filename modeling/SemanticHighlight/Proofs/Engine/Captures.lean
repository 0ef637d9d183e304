import SemanticHighlight.Engine.Pattern
import SemanticHighlight.Proofs.Position.Embedding
import SemanticHighlight.Proofs.Position.Point
import SemanticHighlight.Proofs.Text.Coding

/-!
# Nodes between characters

A node source counts bytes. A node from one character of a text to another, in the bytes of the text,
becomes the capture of the characters between them: with these characters as its text and with the
range that the line index gives to their offsets (`capture_betweenCharacters`). The point of a
character is found again as its position because its byte column is taken up by what stands before it
in its line (`fitting_encodeUtf8_append`).
-/

namespace SemanticHighlight

namespace Text

open CodePoint (newline)

def byteOffset (t : Text) (n : Nat) : Nat := (encodeUtf8 (t.take n)).length

/-- The node from character number `start` up to character number `stop`: where they are in the bytes
of the text, counted from its beginning and by rows and byte columns. -/
def nodeBetween (t : Text) (start stop : Nat) : Node :=
  Stretch.node t.encodeUtf8 ⟨t.byteOffset start, t.byteOffset stop⟩

theorem take_byteOffset (t : Text) (n : Nat) :
    t.encodeUtf8.take (t.byteOffset n) = encodeUtf8 (t.take n) := by
  have happend : t.encodeUtf8 = encodeUtf8 (t.take n) ++ encodeUtf8 (t.drop n) := by
    rw [← encodeUtf8_append, List.take_append_drop]
  rw [happend, byteOffset, List.take_left]

theorem bytes_nodeBetween (t : Text) {i j : Nat} (h : i ≤ j) :
    (t.nodeBetween i j).bytes t.encodeUtf8 = encodeUtf8 (t.slice i j) := by
  show (t.encodeUtf8.drop (t.byteOffset i)).take (t.byteOffset j - t.byteOffset i) = _
  rw [← List.drop_take, take_byteOffset, ← take_append_slice t h, encodeUtf8_append]
  exact List.drop_left

/-- The row of a character is its line, its byte column what the characters before it take up there. -/
theorem point_byteOffset (t : Text) (n : Nat) :
    Stretch.point t.encodeUtf8 (t.byteOffset n) =
      ⟨(t.take n).count newline, (encodeUtf8 (lastLine (t.take n))).length⟩ := by
  unfold Stretch.point
  rw [take_byteOffset]
  dsimp only
  rw [count_newline_encodeUtf8, takeWhile_reverse_encodeUtf8, List.length_reverse]

/-- As many bytes as an initial part has are taken up by that part. -/
theorem fitting_encodeUtf8_append (s t : Text) : fitting (encodeUtf8 s).length (s ++ t) = s := by
  induction s with
  | nil =>
    cases t with
    | nil => rfl
    | cons c rest =>
      have hpos : 0 < utf8Width c := by
        unfold utf8Width
        split_ifs <;> decide
      have hnone : ¬ (utf8Width c : Int) ≤ (encodeUtf8 []).length := by
        show ¬ (utf8Width c : Int) ≤ 0
        omega
      rw [List.nil_append, fitting, if_neg hnone]
  | cons c rest ih =>
    have hlength : (encodeUtf8 (c :: rest)).length = utf8Width c + (encodeUtf8 rest).length := by
      rw [← length_encodeCodePoint, ← List.length_append]
      rfl
    have hrest : ((encodeUtf8 (c :: rest)).length : Int) - utf8Width c = (encodeUtf8 rest).length := by
      omega
    rw [List.cons_append, fitting, if_pos (by omega), hrest, ih]

theorem lastLine_terminated (lines : List Text) : lastLine (terminated lines) = [] := by
  induction lines using List.reverseRecOn with
  | nil => rfl
  | append_singleton lines line ih =>
    have hends : terminated (lines ++ [line]) = (terminated lines ++ line) ++ [newline] := by
      rw [terminated_append, terminated_cons, terminated_nil, ← List.append_assoc]
    rw [hends]
    simp [lastLine]

/-- What stands before a character in its line is the beginning of the line that the index has
there. -/
theorem lastLine_isPrefix_line {t : Text} {n : Nat} (h : n ≤ t.length) :
    lastLine (t.take n) <+: (LineIndex.ofText t).line ((t.take n).count newline : Nat) := by
  obtain ⟨before, line, after, k, hlines, hbefore, hmem, -, -, htake⟩ := exists_line_before h
  have hpart : newline ∉ line.take k := fun hnl => hmem (List.mem_of_mem_take hnl)
  have hcount : ((t.take n).count newline : Int) = before.length := by
    have hextent := extent_terminated_append hbefore hpart
    rw [← htake] at hextent
    exact congrArg Position.line hextent
  have hlast : lastLine (t.take n) = line.take k := by
    rw [htake, lastLine_append_of_line _ hpart, lastLine_terminated, List.nil_append]
  have hline : (LineIndex.ofText t).line (before.length : Int) = line := by
    simp [LineIndex.line_ofText, hlines]
  rw [hcount, hline, hlast]
  exact List.take_prefix k line

end Text

namespace LineIndex

open Text (extent lastLine lastLine_isPrefix_line)

theorem ofPoint_byteOffset {t : Text} {n : Nat} (h : n ≤ t.length) :
    (ofText t).ofPoint (Stretch.point t.encodeUtf8 (t.byteOffset n)) = extent (t.take n) := by
  obtain ⟨rest, hrest⟩ := lastLine_isPrefix_line h
  rw [Text.point_byteOffset, ofPoint, columnOf_eq _ (Int.natCast_nonneg _), ← hrest,
    Text.fitting_encodeUtf8_append]
  rfl

end LineIndex

namespace Node

open LineIndex (ofText)

/-- A node between two characters comes out as the characters between them, in the range that their
offsets have. -/
theorem capture_betweenCharacters (t : Text) (name : Text) {i j : Nat} (hij : i ≤ j)
    (hj : j ≤ t.length) :
    ∃ range, (ofText t).rangeOf i j = .ok range ∧
      (t.nodeBetween i j).capture (ofText t) t.encodeUtf8 name = .ok ⟨name, range, t.slice i j⟩ := by
  refine ⟨_, LineIndex.rangeOf_eq hij hj, ?_⟩
  have hstart : (ofText t).ofPoint (t.nodeBetween i j).start = Text.extent (t.take i) :=
    LineIndex.ofPoint_byteOffset (hij.trans hj)
  have hstop : (ofText t).ofPoint (t.nodeBetween i j).stop = Text.extent (t.take j) :=
    LineIndex.ofPoint_byteOffset hj
  rw [capture, hstart, hstop, Range.ofEnds?, dif_pos (Text.extent_take_le t hij),
    Text.bytes_nodeBetween t hij, Text.decodeLenient_encodeUtf8]
  rfl

/-- From within the second line to the end of the last one, across a character of each width, a
carriage return and a lone surrogate. -/
theorem capture_betweenCharacters_mixed :
    let t : Text := [97, 10, 98, 0xE9, 0x20AC, 13, 10, 0xD800, 0x1F600]
    let range : Range := ⟨⟨1, 1⟩, ⟨2, 3⟩, by decide⟩
    (3 ≤ 9 ∧ 9 ≤ t.length) ∧
      t.nodeBetween 3 9 = ⟨⟨1, 1⟩, ⟨2, 7⟩, 3, 17⟩ ∧
      (ofText t).rangeOf (3 : Nat) (9 : Nat) = .ok range ∧
      (t.nodeBetween 3 9).capture (ofText t) t.encodeUtf8 "string" =
        .ok ⟨"string", range, [0xE9, 0x20AC, 13, 10, 0xD800, 0x1F600]⟩ := by
  intro t range
  have hij : 3 ≤ 9 := by decide
  have hj : 9 ≤ t.length := by decide
  obtain ⟨found, hfound, hcapture⟩ := capture_betweenCharacters t "string" hij hj
  have hrange : (ofText t).rangeOf (3 : Nat) (9 : Nat) = .ok range := by decide +kernel
  rw [hrange] at hfound
  cases hfound
  exact ⟨⟨hij, hj⟩, by decide +kernel, hrange, hcapture⟩

end Node

end SemanticHighlight
