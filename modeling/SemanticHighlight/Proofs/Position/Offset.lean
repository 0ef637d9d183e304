import SemanticHighlight.Proofs.Position.Extent
import SemanticHighlight.Proofs.Text.Splitting

/-!
# Offsets and positions

The line index finds a row by bisecting the offsets at which lines start, and a column by measuring
what stands before the offset in that row. The result is the extent of what stands before the offset
in the whole text (`ofOffset_eq`).
-/

namespace SemanticHighlight

namespace Text

open CodePoint (newline)

theorem newline_not_mem_of_mem_lines {t line : Text} (h : line ∈ t.lines) : newline ∉ line :=
  separator_not_mem_of_mem_splitOn newline t line h

theorem lines_append_newline {line : Text} (h : newline ∉ line) (t : Text) :
    lines (line ++ newline :: t) = line :: t.lines :=
  splitOn_append_separator h t

/-- Lines that are all ended by a line feed. -/
def terminated (lines : List Text) : Text := lines.flatMap (· ++ [newline])

@[simp] theorem terminated_nil : terminated [] = [] := rfl

@[simp] theorem terminated_cons (line : Text) (rest : List Text) :
    terminated (line :: rest) = line ++ newline :: terminated rest := by
  simp [terminated]

theorem terminated_append (before after : List Text) :
    terminated (before ++ after) = terminated before ++ terminated after := by
  simp [terminated]

theorem extent_terminated_append {before : List Text} {t : Text}
    (hbefore : ∀ line ∈ before, newline ∉ line) (ht : newline ∉ t) :
    extent (terminated before ++ t) = ⟨before.length, t.utf16Length⟩ := by
  induction before with
  | nil => exact extent_of_line ht
  | cons line rest ih =>
    have hrest := ih fun l hl => hbefore l (List.mem_cons_of_mem _ hl)
    rw [terminated_cons, List.append_assoc, List.cons_append,
      extent_line_append (hbefore line List.mem_cons_self), hrest]
    simp [Int.add_comm]

/-- Each offset of a text falls into one of its lines, the end of the line included. -/
theorem exists_line_at (lines : List Text) (hlines : lines ≠ []) {n : Nat}
    (hn : n ≤ (join [newline] lines).length) :
    ∃ before line after k, lines = before ++ line :: after ∧ k ≤ line.length ∧
      n = (terminated before).length + k ∧
      (join [newline] lines).take n = terminated before ++ line.take k := by
  induction lines generalizing n with
  | nil => exact absurd rfl hlines
  | cons line rest ih =>
    by_cases hle : n ≤ line.length
    · refine ⟨[], line, rest, n, rfl, hle, by simp, ?_⟩
      cases rest with
      | nil => simp [join]
      | cons next rest => simp [join, List.take_append_of_le_length hle]
    · have hrest : rest ≠ [] := by
        rintro rfl
        simp only [join, List.intercalate_singleton] at hn
        exact hle hn
      have hjoin : join [newline] (line :: rest) = line ++ newline :: join [newline] rest := by
        simp [join, List.intercalate_cons_of_ne_nil hrest]
      obtain ⟨m, rfl⟩ := Nat.exists_eq_add_of_le (Nat.succ_le_of_lt (Nat.lt_of_not_le hle))
      rw [hjoin] at hn ⊢
      have hm : m ≤ (join [newline] rest).length := by
        simp only [List.length_append, List.length_cons] at hn
        omega
      obtain ⟨before, found, after, k, rfl, hk, rfl, htake⟩ := ih hrest hm
      refine ⟨line :: before, found, after, k, rfl, hk, ?_, ?_⟩
      · simp only [terminated_cons, List.length_append, List.length_cons]
        omega
      · have hlength : line.length.succ = (line ++ [newline]).length := by simp
        rw [List.append_cons, hlength, List.take_length_add_append, htake]
        simp

theorem exists_line_before {t : Text} {n : Nat} (h : n ≤ t.length) :
    ∃ before line after k, t.lines = before ++ line :: after ∧ (∀ l ∈ before, newline ∉ l) ∧
      newline ∉ line ∧ k ≤ line.length ∧ n = (terminated before).length + k ∧
      t.take n = terminated before ++ line.take k := by
  have hjoin : join [newline] t.lines = t := join_splitOn newline t
  obtain ⟨before, line, after, k, hlines, hk, hn, htake⟩ :=
    exists_line_at t.lines (splitOn_ne_nil newline t) (n := n) (by rwa [hjoin])
  rw [hjoin] at htake
  have hmem : ∀ l ∈ before ++ line :: after, newline ∉ l := fun l hl =>
    newline_not_mem_of_mem_lines (hlines ▸ hl)
  exact ⟨before, line, after, k, hlines, fun l hl => hmem l (List.mem_append_left _ hl),
    hmem line (by simp), hk, hn, htake⟩

/-- A text is made of lines that are ended by a line feed and a last one that is not. -/
theorem exists_terminated_append (t : Text) : ∃ before last,
    t = terminated before ++ last ∧ (∀ line ∈ before, newline ∉ line) ∧ newline ∉ last := by
  obtain ⟨before, line, -, k, -, hbefore, hline, -, -, htake⟩ :=
    exists_line_before (Nat.le_refl t.length)
  rw [List.take_length] at htake
  exact ⟨before, line.take k, htake, hbefore, fun hmem => hline (List.mem_of_mem_take hmem)⟩

theorem lines_terminated_append {before : List Text} (h : ∀ line ∈ before, newline ∉ line)
    (t : Text) : lines (terminated before ++ t) = before ++ lines t := by
  induction before with
  | nil => rfl
  | cons line before ih =>
    obtain ⟨hline, hbefore⟩ := List.forall_mem_cons.mp h
    rw [terminated_cons, List.append_assoc, List.cons_append, lines_append_newline hline,
      ih hbefore, List.cons_append]

theorem mem_terminated_append {before : List Text} {last line : Text} (h : line ∈ before ++ [last])
    {c : CodePoint} (hc : c ∈ line) : c ∈ terminated before ++ last := by
  rcases List.mem_append.mp h with h | h
  · exact List.mem_append_left _ (List.mem_flatMap.mpr ⟨line, h, List.mem_append_left _ hc⟩)
  · exact List.mem_append_right _ (List.mem_singleton.mp h ▸ hc)

theorem exists_lines_append {line : Text} (h : newline ∉ line) (t : Text) :
    ∃ rest others, lines (line ++ t) = (line ++ rest) :: others := by
  induction line with
  | nil => exact List.exists_cons_of_ne_nil (splitOn_ne_nil newline t)
  | cons c line ih =>
    obtain ⟨hc, hline⟩ : newline ≠ c ∧ newline ∉ line := by simpa using h
    obtain ⟨rest, others, hlines⟩ := ih hline
    rw [lines] at hlines
    exact ⟨rest, others, by rw [lines, List.cons_append, splitOn, if_neg hc.symm, hlines]; rfl⟩

end Text

namespace LineIndex

open CodePoint (newline)
open Text (terminated terminated_cons terminated_append)

theorem line_ofText (t : Text) (row : Nat) : (ofText t).line row = t.lines[row]?.getD [] := by
  simp [line, ofText]

theorem startsFrom_append (offset : Nat) (before rest : List Text) :
    startsFrom offset (before ++ rest) =
      startsFrom offset before ++ startsFrom (offset + (terminated before).length) rest := by
  induction before generalizing offset with
  | nil => rfl
  | cons line before ih =>
    simp only [List.cons_append, startsFrom, ih, terminated_cons, List.length_append,
      List.length_cons]
    congr 3
    omega

@[simp] theorem length_startsFrom (offset : Nat) (lines : List Text) :
    (startsFrom offset lines).length = lines.length := by
  induction lines generalizing offset with
  | nil => rfl
  | cons line rest ih => simp [startsFrom, ih]

theorem le_of_mem_startsFrom {offset : Nat} {lines : List Text} {start : Nat}
    (h : start ∈ startsFrom offset lines) : offset ≤ start := by
  induction lines generalizing offset with
  | nil => cases h
  | cons line rest ih =>
    rcases List.mem_cons.mp h with rfl | h
    · exact Nat.le_refl _
    · have := ih h
      omega

theorem le_terminated_of_mem_startsFrom {offset : Nat} {lines : List Text} {start : Nat}
    (h : start ∈ startsFrom offset lines) : start ≤ offset + (terminated lines).length := by
  induction lines generalizing offset with
  | nil => cases h
  | cons line rest ih =>
    simp only [terminated_cons, List.length_append, List.length_cons]
    rcases List.mem_cons.mp h with rfl | h
    · omega
    · have := ih h
      omega

/-- Lines start up to the one that holds an offset no later than the offset, and after it past the
end of that line. -/
theorem boundary_startsFrom {before after : List Text} {line : Text} {k : Nat}
    (hk : k ≤ line.length) :
    Bisection.boundary
        (fun start : Nat => decide ((start : Int) ≤ ((terminated before).length + k : Nat)))
        (startsFrom 0 (before ++ line :: after)).toArray = before.length + 1 := by
  rw [List.append_cons, startsFrom_append, Bisection.boundary_append, length_startsFrom,
    List.length_append, List.length_singleton]
  · intro start hstart
    rw [startsFrom_append] at hstart
    rcases List.mem_append.mp hstart with hs | hs
    · have := le_terminated_of_mem_startsFrom hs
      simp only [decide_eq_true_eq]
      omega
    · simp only [startsFrom, List.mem_singleton] at hs
      simp only [decide_eq_true_eq]
      omega
  · intro start hstart
    have hle := le_of_mem_startsFrom hstart
    rw [terminated_append, List.length_append, terminated_cons, List.length_append] at hle
    simp only [decide_eq_false_iff_not, List.length_cons] at hle ⊢
    omega

/-- The position before a character is the extent of what stands before it. -/
theorem ofOffset_eq {t : Text} {n : Nat} (h : n ≤ t.length) :
    (ofText t).ofOffset n = .ok (Text.extent (t.take n)) := by
  obtain ⟨before, line, after, k, hlines, hbefore, hline, hk, hn, htake⟩ :=
    Text.exists_line_before h
  have hextent : Text.extent (t.take n) = ⟨before.length, Text.utf16Length (line.take k)⟩ := by
    rw [htake]
    exact Text.extent_terminated_append hbefore fun hmem => hline (List.mem_of_mem_take hmem)
  have hrow : Bisection.boundary (fun start : Nat => decide ((start : Int) ≤ (n : Int)))
      (ofText t).starts = before.length + 1 := by
    rw [ofText, hlines, hn]
    exact boundary_startsFrom hk
  have hfound : (ofText t).line (before.length : Int) = line := by
    simp [line_ofText, hlines]
  have hstart : (ofText t).starts[before.length]? = some (terminated before).length := by
    rw [ofText, hlines, startsFrom_append]
    simp [startsFrom]
  unfold ofOffset
  rw [if_neg (by simp only [ofText]; omega), hrow, hextent]
  simp only [Nat.add_sub_cancel, hfound, hstart, Option.getD_some, Int.toNat_natCast]
  rw [hn, Nat.add_sub_cancel_left]

theorem rangeOf_eq {t : Text} {i j : Nat} (hij : i ≤ j) (hj : j ≤ t.length) :
    (ofText t).rangeOf i j =
      .ok ⟨Text.extent (t.take i), Text.extent (t.take j), Text.extent_take_le t hij⟩ := by
  rw [rangeOf, ofOffset_eq (hij.trans hj), ofOffset_eq hj]
  show (Range.ofEnds? (Text.extent (t.take i)) (Text.extent (t.take j))).mapError
    SpanError.inverted = _
  rw [Range.ofEnds?, dif_pos (Text.extent_take_le t hij)]
  rfl

end LineIndex

end SemanticHighlight
