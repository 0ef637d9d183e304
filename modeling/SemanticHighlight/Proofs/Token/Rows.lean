import SemanticHighlight.Proofs.Position.Embedding
import SemanticHighlight.Proofs.Text.Units
import SemanticHighlight.Proofs.Token.Decoding
import SemanticHighlight.Proofs.Token.Pieces
import SemanticHighlight.Token.Rows

/-!
# What readers are shown

The fragments of a token show the lines of the text that the token captures (`exists_split_shown`).
A fragment may reach past the end of its line, but what is shown of it ends there, and the line
feeds that no fragment covers are those between the lines shown. So the capture can be read off the
fragments (`visibleText_split`). And the command line and an editor are shown the same tokens: the
relative stream holds what the records say (`decode_encode_eq_records`).
-/

namespace SemanticHighlight

namespace Token

open CodePoint (newline)
open LineIndex (ofText line_ofText)
open Text (terminated)

variable {t u : Token} {index : LineIndex}

/-! ## The text under a fragment -/

/-- A token that reaches from one character of a line to another, or past the end of the line, shows
what stands in between. -/
theorem visibleText_eq {before shown after : Text} (h : ∀ c ∈ shown, c.isSurrogate = false)
    (hline : index.line u.range.start.line = before ++ shown ++ after)
    (hstart : u.range.start.column = before.utf16Length)
    (hstop : visibleStop index u = (before ++ shown).utf16Length) :
    visibleText index u = shown := by
  rw [visibleText, hline, hstart, hstop, Text.sliceUnits_append h]

theorem visibleText_toLineEnd (before : Text) {shown : Text}
    (h : ∀ c ∈ shown, c.isSurrogate = false)
    (hline : index.line u.range.start.line = before ++ shown)
    (hstart : u.range.start.column = before.utf16Length)
    (hstop : ((before ++ shown).utf16Length : Int) ≤ u.range.stop.column) :
    visibleText index u = shown := by
  have hnothing : index.line u.range.start.line = before ++ shown ++ [] := by
    rw [hline, List.append_nil]
  refine visibleText_eq h hnothing hstart ?_
  rw [visibleStop, hline, min_eq_right hstop]

theorem visibleText_withinLine (before after : Text) {shown : Text}
    (h : ∀ c ∈ shown, c.isSurrogate = false)
    (hline : index.line u.range.start.line = before ++ shown ++ after)
    (hstart : u.range.start.column = before.utf16Length)
    (hstop : u.range.stop.column = (before ++ shown).utf16Length) :
    visibleText index u = shown := by
  refine visibleText_eq h hline hstart ?_
  have hle : (before ++ shown).utf16Length ≤ (before ++ shown ++ after).utf16Length := by
    rw [Text.utf16Length_append (before ++ shown)]
    exact Nat.le_add_right _ _
  rw [visibleStop, hline, hstop, min_eq_left (Int.ofNat_le.mpr hle)]

theorem map_linesBetween {α : Type} {f : Int → α} {first : Int} {xs : List α}
    (h : ∀ (n : Nat) (hn : n < xs.length), f (first + 1 + n) = xs[n]) :
    (linesBetween first (first + 1 + xs.length)).map f = xs := by
  have hcount : (first + 1 + xs.length - first - 1).toNat = xs.length := by omega
  apply List.ext_getElem
  · simp [linesBetween, hcount]
  · intro n _ hn
    simpa [linesBetween] using h n hn

/-! ## Fragments -/

theorem exists_split_shown_of_line {text before shown after : Text}
    (htext : text = before ++ shown ++ after) (hstart : t.range.start = Text.extent before)
    (hstop : t.range.stop = Text.extent (before ++ shown))
    (hplain : ∀ c ∈ shown, c.isSurrogate = false) (hshown : newline ∉ shown) :
    ∃ fragments, t.split = .ok fragments ∧
      fragments.map (visibleText (ofText text)) = [shown] := by
  obtain ⟨lines, line, rfl, hlines, hline⟩ := Text.exists_terminated_append before
  have hrow : newline ∉ line ++ shown := by simp [hline, hshown]
  rw [Text.extent_terminated_append hlines hline] at hstart
  rw [List.append_assoc, Text.extent_terminated_append hlines hrow] at hstop
  obtain ⟨rest, others, hrest⟩ := Text.exists_lines_append hrow after
  have hfound : (ofText text).line t.range.start.line = line ++ shown ++ rest := by
    rw [hstart, line_ofText, htext, List.append_assoc (terminated lines), List.append_assoc,
      Text.lines_terminated_append hlines, hrest]
    simp
  refine ⟨[t], if_pos (by rw [hstart, hstop]), ?_⟩
  rw [List.map_singleton, visibleText_withinLine line rest hplain hfound (by rw [hstart])
    (by rw [hstop])]

/-- No line that a range goes on from is longer than the artificial end of its fragment. -/
def LinesFit (index : LineIndex) (r : Range) : Prop :=
  ∀ row, r.start.line ≤ row → row < r.stop.line → ((index.line row).utf16Length : Int) ≤ lineEnd

/-- A token from somewhere in a line to somewhere in a later one: what it captures of the first
line, the lines in between and what it captures of the last. -/
structure Spans (index : LineIndex) (t : Token) (first : Text) (between : List Text) (last : Text) :
    Prop where
  firstLine : ∃ before, index.line t.range.start.line = before ++ first ∧
    t.range.start.column = before.utf16Length
  wholeLines : ∀ (n : Nat) (hn : n < between.length),
    index.line (t.range.start.line + 1 + n) = between[n]
  lastLine : ∃ after, index.line t.range.stop.line = last ++ after ∧
    t.range.stop.column = last.utf16Length
  stopLine : t.range.stop.line = t.range.start.line + 1 + between.length

variable {first last : Text} {between : List Text} {r : Range}

theorem Spans.visibleText_head (h : Spans index t first between last)
    (hfit : LinesFit index t.range) (hplain : ∀ c ∈ first, c.isSurrogate = false)
    (hstart : r.start = t.range.start) (hstop : r.stop.column = lineEnd) :
    visibleText index (t.withRange r) = first := by
  obtain ⟨before, hline, hcolumn⟩ := h.firstLine
  have hlong := hfit t.range.start.line le_rfl (by rw [h.stopLine]; omega)
  refine visibleText_toLineEnd before hplain ?_ ?_ ?_
  · rw [withRange, hstart, hline]
  · rw [withRange, hstart, hcolumn]
  · rw [withRange, hstop, ← hline]
    exact hlong

theorem Spans.map_visibleText_wholeLine (h : Spans index t first between last)
    (hfit : LinesFit index t.range)
    (hplain : ∀ line ∈ between, ∀ c ∈ line, c.isSurrogate = false) :
    (linesBetween t.range.start.line t.range.stop.line).map
      (fun line => visibleText index (t.withRange (wholeLine line))) = between := by
  rw [h.stopLine]
  refine map_linesBetween fun n hn => ?_
  have hline := h.wholeLines n hn
  have hlong := hfit (t.range.start.line + 1 + n) (by omega) (by rw [h.stopLine]; omega)
  rw [hline] at hlong
  exact visibleText_toLineEnd [] (hplain _ (List.getElem_mem hn)) hline rfl hlong

theorem Spans.visibleText_tail (h : Spans index t first between last)
    (hplain : ∀ c ∈ last, c.isSurrogate = false) (hstart : r.start = ⟨t.range.stop.line, 0⟩)
    (hstop : r.stop = t.range.stop) : visibleText index (t.withRange r) = last := by
  obtain ⟨after, hline, hcolumn⟩ := h.lastLine
  refine visibleText_withinLine [] after hplain ?_ ?_ ?_
  · rw [withRange, hstart, hline, List.nil_append]
  · rw [withRange, hstart, Text.utf16Length_nil]
    rfl
  · rw [withRange, hstop, hcolumn, List.nil_append]

theorem Spans.exists_split (h : Spans index t first between last) (hfit : LinesFit index t.range) :
    ∃ fragments, t.split = .ok fragments := by
  obtain ⟨before, hline, hstart⟩ := h.firstLine
  obtain ⟨-, -, hstop⟩ := h.lastLine
  have hlong := hfit t.range.start.line le_rfl (by rw [h.stopLine]; omega)
  cases hsplit : t.split with
  | ok fragments => exact ⟨fragments, rfl⟩
  | error e =>
    have hbeyond := ((split_eq_error (by omega)).mp ⟨e, hsplit⟩).2
    rw [hline, Text.utf16Length_append] at hlong
    omega

theorem Spans.exists_split_shown (h : Spans index t first between last)
    (hfit : LinesFit index t.range)
    (hplain : ∀ line ∈ first :: between ++ [last], ∀ c ∈ line, c.isSurrogate = false) :
    ∃ fragments, t.split = .ok fragments ∧
      fragments.map (visibleText index) = first :: between ++ [last] := by
  obtain ⟨fragments, hsplit⟩ := h.exists_split hfit
  refine ⟨fragments, hsplit, ?_⟩
  rcases split_eq_ok hsplit with ⟨hsame, -⟩ | ⟨-, head, tail, hhead, hhead', htail, htail', rfl⟩
  · rw [h.stopLine] at hsame
    omega
  · have hfirst := h.visibleText_head hfit (hplain first (by simp)) hhead (by rw [hhead'])
    have hbetween := h.map_visibleText_wholeLine hfit fun l hl => hplain l (by simp [hl])
    have hlast := h.visibleText_tail (hplain last (by simp)) htail htail'
    simp only [List.map_append, List.map_cons, List.map_map, List.map_nil, hfirst, hlast]
    exact congrArg (fun shown => first :: shown ++ [last]) hbetween

theorem spans_ofText {lines : List Text} {line after : Text}
    (hrows : ∀ l ∈ lines ++ (line ++ first) :: between, newline ∉ l) (hlast : newline ∉ last)
    (hstart : t.range.start = ⟨lines.length, line.utf16Length⟩)
    (hstop : t.range.stop = ⟨lines.length + 1 + between.length, last.utf16Length⟩) :
    Spans (ofText (terminated (lines ++ (line ++ first) :: between) ++ (last ++ after))) t first
      between last := by
  obtain ⟨rest, others, hrest⟩ := Text.exists_lines_append hlast after
  have hall := Text.lines_terminated_append hrows (last ++ after)
  rw [hrest] at hall
  constructor
  · refine ⟨line, ?_, by rw [hstart]⟩
    rw [hstart, line_ofText, hall]
    simp
  · intro n hn
    have hrow : (lines.length : Int) + 1 + n = (lines.length + (1 + n) : Nat) := by omega
    rw [hstart, hrow, line_ofText, hall, List.append_assoc, List.getElem?_append_right (by omega)]
    simp [Nat.add_comm 1 n, List.getElem?_append_left hn, List.getElem?_eq_getElem hn]
  · refine ⟨rest, ?_, by rw [hstop]⟩
    have hrow : (lines.length : Int) + 1 + between.length =
      (lines.length + (1 + between.length) : Nat) := by omega
    rw [hstop, hrow, line_ofText, hall, List.append_assoc, List.getElem?_append_right (by omega)]
    simp [Nat.add_comm 1 between.length]
  · rw [hstart, hstop]

/-- The fragments of a token show the lines of what the token captures, unless one of these lines
but the last goes on past the artificial end. -/
theorem exists_split_shown {text before shown after : Text}
    (htext : text = before ++ shown ++ after) (hstart : t.range.start = Text.extent before)
    (hstop : t.range.stop = Text.extent (before ++ shown))
    (hplain : ∀ c ∈ shown, c.isSurrogate = false) (hfit : LinesFit (ofText text) t.range) :
    ∃ fragments, t.split = .ok fragments ∧
      fragments.map (visibleText (ofText text)) = shown.lines := by
  obtain ⟨captured, last, rfl, hcaptured, hlast⟩ := Text.exists_terminated_append shown
  have hlines : (terminated captured ++ last).lines = captured ++ [last] := by
    rw [Text.lines_terminated_append hcaptured]
    exact congrArg _ (Text.splitOn_of_not_mem hlast)
  rw [hlines]
  cases captured with
  | nil => exact exists_split_shown_of_line htext hstart hstop hplain hlast
  | cons first between =>
    obtain ⟨lines, line, rfl, hbefore, hline⟩ := Text.exists_terminated_append before
    have hrows : ∀ l ∈ lines ++ (line ++ first) :: between, newline ∉ l := by
      obtain ⟨hfirst, hbetween⟩ := List.forall_mem_cons.mp hcaptured
      refine List.forall_mem_append.mpr ⟨hbefore, List.forall_mem_cons.mpr ⟨?_, hbetween⟩⟩
      simp [hline, hfirst]
    -- The first line that is captured ends the one on which the token starts.
    have hjoin : terminated lines ++ line ++ (terminated (first :: between) ++ last) =
        terminated (lines ++ (line ++ first) :: between) ++ last := by
      simp [Text.terminated_append]
    rw [Text.extent_terminated_append hbefore hline] at hstart
    rw [hjoin, Text.extent_terminated_append hrows hlast] at hstop
    rw [hjoin, List.append_assoc] at htext
    subst htext
    refine (spans_ofText hrows hlast hstart ?_).exists_split_shown hfit fun l hl c hc => hplain c ?_
    · rw [hstop, List.length_append, List.length_cons]
      simp only [Position.mk.injEq, and_true]
      omega
    · exact Text.mem_terminated_append hl hc

/-- Whatever characters a token reaches from and to: joined by line feeds, the texts shown of its
fragments are the text that it captures, if no line of it but the last goes on past the artificial
end. -/
theorem visibleText_split (text : Text) (hplain : ∀ c ∈ text, c.isSurrogate = false) {i j : Nat}
    (hij : i ≤ j) (hj : j ≤ text.length) :
    ∃ r, (ofText text).rangeOf i j = .ok r ∧ ∀ t : Token, t.range = r →
      LinesFit (ofText text) r → ∃ fragments, t.split = .ok fragments ∧
        Text.join [newline] (fragments.map (visibleText (ofText text))) = text.slice i j := by
  refine ⟨_, LineIndex.rangeOf_eq hij hj, ?_⟩
  intro t hrange hfit
  rw [← hrange] at hfit
  have hshown : ∀ c ∈ text.slice i j, c.isSurrogate = false :=
    fun c hc => hplain c (List.mem_of_mem_take (List.mem_of_mem_drop hc))
  have htake := Text.take_append_slice text hij
  have htext : text = text.take i ++ text.slice i j ++ text.drop j := by
    rw [htake, List.take_append_drop]
  obtain ⟨fragments, hsplit, hlines⟩ :=
    exists_split_shown htext (by rw [hrange]) (by rw [hrange, htake]) hshown hfit
  refine ⟨fragments, hsplit, ?_⟩
  rw [hlines]
  exact Text.join_splitOn newline _

/-- Wide characters on the first and the last line, an empty line and a carriage return. -/
theorem visibleText_split_emptyLine :
    let text : Text := [0x1F600, 97, 10, 10, 98, 13, 10, 0x1F600, 99, 100]
    (∀ c ∈ text, c.isSurrogate = false) ∧ 9 ≤ text.length ∧
      ∃ r, (ofText text).rangeOf (1 : Nat) (9 : Nat) = .ok r ∧ LinesFit (ofText text) r ∧
        ∃ fragments, split ⟨r, "string", []⟩ = .ok fragments ∧
          Text.join [newline] (fragments.map (visibleText (ofText text))) =
            [97, 10, 10, 98, 13, 10, 0x1F600, 99] := by
  intro text
  have hall : text.all (fun c => !c.isSurrogate) = true := by decide
  have hplain : ∀ c ∈ text, c.isSurrogate = false :=
    fun c hc => by simpa using List.all_eq_true.mp hall c hc
  have hlength : 9 ≤ text.length := by decide
  obtain ⟨r, hrange, hshown⟩ := visibleText_split text hplain (i := 1) (by decide) hlength
  have hr := Except.ok.inj (hrange.symm.trans (LineIndex.rangeOf_eq (by decide) hlength))
  have hfit : LinesFit (ofText text) r := by
    intro row hfirst hlast
    have hstart : r.start.line = 0 := by rw [hr]; decide
    have hstop : r.stop.line = 3 := by rw [hr]; decide
    have hrow : row = 0 ∨ row = 1 ∨ row = 2 := by omega
    rcases hrow with rfl | rfl | rfl
    · decide
    · decide
    · decide
  exact ⟨hplain, hlength, r, hrange, hfit, hshown ⟨r, "string", []⟩ rfl hfit⟩

/-! ## Records and the relative stream -/

/-- What a record says to a reader of the stream. -/
def Record.shown (legend : Legend) (r : Record) : Shown :=
  ⟨r.line, r.start, r.stop - r.start, r.type,
    legend.modifiers.filter fun m => r.modifiers.contains m⟩

/-- On the lines of a text both ways of cutting a token short are the same. -/
theorem clampedStop_eq_visibleStop (h : t.range.start.line < index.lineCount) :
    clampedStop (some index) t = visibleStop index t :=
  if_pos h

theorem allShown_eq_records {tokens : List Token} (legend : Legend)
    (h : ∀ t ∈ tokens, t.range.start.line < index.lineCount) :
    allShown legend (some index) tokens =
      (visible index tokens).map fun t => (record index t).shown legend := by
  have hvisible : tokens.filter (fun t => decide (0 < visibleLength (some index) t)) =
      visible index tokens := by
    refine List.filter_congr fun t ht => ?_
    rw [visibleLength, clampedStop_eq_visibleStop (h t ht), decide_eq_decide]
    omega
  rw [allShown, hvisible]
  refine List.map_congr_left fun t ht => ?_
  rw [shown, visibleLength, clampedStop_eq_visibleStop (h t (List.mem_of_mem_filter ht))]
  rfl

/-- An editor that reads the stream learns what the records of the visible tokens say: in order, the
line and start of each, the distance to its stop as its length, its type and its modifiers. -/
theorem decode_encode_eq_records {legend : Legend} {tokens : List Token} (text : Text)
    (htypes : ∀ t ∈ tokens, legend.hasType t.type = true)
    (hlines : ∀ t ∈ tokens, t.range.start.line < (ofText text).lineCount) :
    ∃ data, encode legend (some (ofText text)) tokens = .ok data ∧
      decode legend data = some ((visible (ofText text) tokens).map fun t =>
        (record (ofText text) t).shown legend) := by
  obtain ⟨data, hencode, hdecode⟩ := exists_encodeAfter (some (ofText text)) ⟨0, 0⟩ htypes
  rw [allShown_eq_records legend hlines] at hdecode
  exact ⟨data, hencode, hdecode⟩

/-- A line with a wide character cut short, an empty line, a token past the end of its line and one
before it. -/
theorem decode_encode_eq_records_pastEnd :
    let text : Text := [0xE9, 0x1F600, 10, 10, 97, 98]
    let tokens : List Token :=
      [⟨wholeLine 0, "string", ["static", "unheardOf"]⟩, ⟨wholeLine 1, "string", []⟩,
        ⟨⟨⟨2, 1⟩, ⟨2, 9⟩, by decide⟩, "keyword", []⟩, ⟨⟨⟨2, 2⟩, ⟨2, 9⟩, by decide⟩, "number", []⟩]
    (∀ t ∈ tokens, Legend.standard.hasType t.type = true) ∧
      (∀ t ∈ tokens, t.range.start.line < (ofText text).lineCount) ∧
      ∃ data, encode .standard (some (ofText text)) tokens = .ok data ∧
        decode .standard data = some ((visible (ofText text) tokens).map fun t =>
          (record (ofText text) t).shown .standard) ∧
        decode .standard data =
          some [⟨0, 0, 3, "string", ["static"]⟩, ⟨2, 1, 1, "keyword", []⟩] := by
  intro text tokens
  have htypes : ∀ t ∈ tokens, Legend.standard.hasType t.type = true := by decide
  have hlines : ∀ t ∈ tokens, t.range.start.line < (ofText text).lineCount := by decide
  obtain ⟨data, hencode, hdecode⟩ := decode_encode_eq_records text htypes hlines
  have hrecords : ((visible (ofText text) tokens).map fun t =>
      (record (ofText text) t).shown .standard) =
        [⟨0, 0, 3, "string", ["static"]⟩, ⟨2, 1, 1, "keyword", []⟩] := by decide
  exact ⟨htypes, hlines, data, hencode, hdecode, hrecords ▸ hdecode⟩

end Token
end SemanticHighlight
