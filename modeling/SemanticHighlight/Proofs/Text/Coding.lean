import Mathlib.Tactic.SplitIfs
import SemanticHighlight.Proofs.Position.Extent
import SemanticHighlight.Text.Utf8

/-!
# Reading encoded texts back

Decoding with surrogates undoes encoding, whatever the code points of the text
(`decodeLenient_encodeUtf8`), because the first character of an encoded text is read back and the rest
is left (`nextUtf8_encodeCodePoint`). Line feeds stay what they are in the bytes, and nothing else
becomes one: the bytes have as many as the text, and after the last of them come the bytes of the last
line.
-/

namespace SemanticHighlight

theorem CodePoint.ofNat_val (c : CodePoint) : CodePoint.ofNat c.val = c := by
  rw [CodePoint.ofNat, dif_pos c.isLt]

namespace Text

open CodePoint (newline)

theorem toNat_ofNat_of_lt {n : Nat} (h : n < 0x100) : (UInt8.ofNat n).toNat = n := by
  rw [UInt8.toNat_ofNat', Nat.mod_eq_of_lt h]

/-! ## One character -/

theorem readContinuations_continuation {value missing used x : Nat} (hx : x < 0x40) {rest : Octets} :
    readContinuations value (missing + 1) used (UInt8.ofNat (0x80 + x) :: rest) =
      readContinuations (value * 0x40 + x) missing (used + 1) rest := by
  have hnat : (UInt8.ofNat (0x80 + x)).toNat = 0x80 + x := toNat_ofNat_of_lt (by omega)
  have hfits : isContinuation (UInt8.ofNat (0x80 + x)) = true := by
    rw [isContinuation, hnat]
    simp only [Bool.and_eq_true, decide_eq_true_eq]
    omega
  rw [readContinuations, if_pos hfits, hnat]
  congr 1
  omega

theorem nextUtf8_sequence {first second : UInt8} {rest : Octets} (hlow : 0xC2 ≤ first.toNat)
    (hhigh : first.toNat < 0xF5) (hsecond : secondFits true first second = true) :
    nextUtf8 true (first :: second :: rest) =
      if first.toNat < 0xE0 then readContinuations (first.toNat % 0x20) 1 1 (second :: rest)
      else if first.toNat < 0xF0 then readContinuations (first.toNat % 0x10) 2 1 (second :: rest)
      else readContinuations (first.toNat % 0x8) 3 1 (second :: rest) := by
  unfold nextUtf8
  dsimp only
  rw [if_neg (by omega), if_neg (by omega), if_pos hsecond]

theorem secondFits_continuation (first : UInt8) {x : Nat} (hx : x < 0x40)
    (hshort : first.toNat = 0xE0 → 0x20 ≤ x) (hlong : first.toNat = 0xF0 → 0x10 ≤ x)
    (hlast : first.toNat = 0xF4 → x < 0x10) :
    secondFits true first (UInt8.ofNat (0x80 + x)) = true := by
  have hnat : (UInt8.ofNat (0x80 + x)).toNat = 0x80 + x := toNat_ofNat_of_lt (by omega)
  unfold secondFits isContinuation
  rw [hnat]
  split <;> simp <;> omega

/-- The first character of an encoded text is read back, surrogates included. -/
theorem nextUtf8_encodeCodePoint (c : CodePoint) (rest : Octets) :
    nextUtf8 true (encodeCodePoint c ++ rest) = .character c rest := by
  have hc := c.isLt
  unfold encodeCodePoint
  dsimp only
  split_ifs with hone htwo hthree
  · have hfirst : (UInt8.ofNat c.val).toNat = c.val := toNat_ofNat_of_lt (by omega)
    rw [List.singleton_append]
    unfold nextUtf8
    dsimp only
    rw [hfirst, if_pos hone, CodePoint.ofNat_val]
  · have hfirst : (UInt8.ofNat (0xC0 + c.val / 0x40)).toNat = 0xC0 + c.val / 0x40 :=
      toNat_ofNat_of_lt (by omega)
    have hfits := secondFits_continuation (UInt8.ofNat (0xC0 + c.val / 0x40))
      (x := c.val % 0x40) (by omega) (by omega) (by omega) (by omega)
    have hvalue : (0xC0 + c.val / 0x40) % 0x20 * 0x40 + c.val % 0x40 = c.val := by omega
    rw [List.cons_append, List.singleton_append,
      nextUtf8_sequence (by omega) (by omega) hfits, hfirst, if_pos (by omega),
      readContinuations_continuation (by omega), readContinuations, hvalue, CodePoint.ofNat_val]
  · have hfirst : (UInt8.ofNat (0xE0 + c.val / 0x1000)).toNat = 0xE0 + c.val / 0x1000 :=
      toNat_ofNat_of_lt (by omega)
    have hfits := secondFits_continuation (UInt8.ofNat (0xE0 + c.val / 0x1000))
      (x := c.val / 0x40 % 0x40) (by omega) (by omega) (by omega) (by omega)
    have hvalue : ((0xE0 + c.val / 0x1000) % 0x10 * 0x40 + c.val / 0x40 % 0x40) * 0x40 +
        c.val % 0x40 = c.val := by omega
    rw [List.cons_append, List.cons_append, List.singleton_append,
      nextUtf8_sequence (by omega) (by omega) hfits, hfirst, if_neg (by omega), if_pos (by omega),
      readContinuations_continuation (by omega), readContinuations_continuation (by omega),
      readContinuations, hvalue, CodePoint.ofNat_val]
  · have hfirst : (UInt8.ofNat (0xF0 + c.val / 0x40000)).toNat = 0xF0 + c.val / 0x40000 :=
      toNat_ofNat_of_lt (by omega)
    have hfits := secondFits_continuation (UInt8.ofNat (0xF0 + c.val / 0x40000))
      (x := c.val / 0x1000 % 0x40) (by omega) (by omega) (by omega) (by omega)
    have hvalue : (((0xF0 + c.val / 0x40000) % 0x8 * 0x40 + c.val / 0x1000 % 0x40) * 0x40 +
        c.val / 0x40 % 0x40) * 0x40 + c.val % 0x40 = c.val := by omega
    rw [List.cons_append, List.cons_append, List.cons_append, List.singleton_append,
      nextUtf8_sequence (by omega) (by omega) hfits, hfirst, if_neg (by omega), if_neg (by omega),
      readContinuations_continuation (by omega), readContinuations_continuation (by omega),
      readContinuations_continuation (by omega), readContinuations, hvalue, CodePoint.ofNat_val]

/-- Decoding undoes encoding, wherever the text begins. -/
theorem decodeFrom?_encodeUtf8 (position : Nat) (t : Text) :
    decodeFrom? true position (encodeUtf8 t) = .ok t := by
  induction t generalizing position with
  | nil =>
    rw [decodeFrom?.eq_def]
    rfl
  | cons c rest ih =>
    have hnext : nextUtf8 true (encodeUtf8 (c :: rest)) = .character c (encodeUtf8 rest) :=
      nextUtf8_encodeCodePoint c (encodeUtf8 rest)
    rw [decodeFrom?.eq_def]
    split
    · next h => rw [hnext] at h; cases h
    · next d after h =>
      rw [hnext] at h
      cases h
      rw [ih]
      rfl
    · next h => rw [hnext] at h; cases h

theorem decodeLenient_encodeUtf8 (t : Text) : decodeLenient (encodeUtf8 t) = t := by
  rw [decodeLenient, decode?, decodeFrom?_encodeUtf8]

/-! ## Line feeds in bytes -/

theorem toNat_of_mem_encodeCodePoint {c : CodePoint} {b : UInt8} (h : b ∈ encodeCodePoint c) :
    b.toNat = c.val ∨ 0x80 ≤ b.toNat := by
  have hc := c.isLt
  unfold encodeCodePoint at h
  dsimp only at h
  split_ifs at h with hone htwo hthree
  · rw [List.mem_singleton.mp h, toNat_ofNat_of_lt (by omega)]
    exact Or.inl rfl
  all_goals
    right
    simp only [List.mem_cons, List.not_mem_nil, or_false] at h
    rcases h with rfl | rfl | rfl | rfl
    all_goals
      rw [toNat_ofNat_of_lt (by omega)]
      omega

theorem newline_not_mem_encodeCodePoint {c : CodePoint} (h : c ≠ newline) :
    10 ∉ encodeCodePoint c := by
  intro hmem
  rcases toNat_of_mem_encodeCodePoint hmem with hval | hlong
  · exact h (Fin.ext hval.symm)
  · exact absurd hlong (by decide)

theorem encodeUtf8_concat (t : Text) (c : CodePoint) :
    encodeUtf8 (t ++ [c]) = encodeUtf8 t ++ encodeCodePoint c := by
  simp [encodeUtf8]

theorem count_newline_encodeUtf8 (t : Text) : (encodeUtf8 t).count 10 = t.count newline := by
  induction t using List.reverseRecOn with
  | nil => rfl
  | append_singleton t c ih =>
    rw [encodeUtf8_concat, List.count_append, List.count_append, ih]
    by_cases hc : c = newline
    · rw [hc]
      rfl
    · have hbytes : (encodeCodePoint c).count 10 = 0 :=
        List.count_eq_zero.mpr (newline_not_mem_encodeCodePoint hc)
      have hline : [c].count newline = 0 := List.count_eq_zero.mpr (by simpa using Ne.symm hc)
      rw [hbytes, hline]

/-- The bytes after the last line feed are those of the last line. -/
theorem takeWhile_reverse_encodeUtf8 (t : Text) :
    (encodeUtf8 t).reverse.takeWhile (· != 10) = (encodeUtf8 (lastLine t)).reverse := by
  induction t using List.reverseRecOn with
  | nil => rfl
  | append_singleton t c ih =>
    rw [encodeUtf8_concat, List.reverse_append]
    by_cases hc : c = newline
    · have hlast : lastLine (t ++ [newline]) = [] := by simp [lastLine]
      have hnewline : encodeCodePoint newline = [10] := rfl
      rw [hc, hlast, hnewline]
      rfl
    · have hline : newline ∉ [c] := by simpa using Ne.symm hc
      have hbytes : ∀ b ∈ (encodeCodePoint c).reverse, (b != 10) = true := by
        intro b hb
        rw [List.mem_reverse] at hb
        simpa using fun hten : b = 10 => newline_not_mem_encodeCodePoint hc (hten ▸ hb)
      rw [List.takeWhile_append_of_pos hbytes, ih, lastLine_append_of_line t hline,
        encodeUtf8_concat, List.reverse_append]

end Text
end SemanticHighlight
