import Mathlib.Tactic.SplitIfs
import SemanticHighlight.Proofs.Checked
import SemanticHighlight.Proofs.Position.Order
import SemanticHighlight.Token.Fragments
import SemanticHighlight.Token.Stream

/-!
# Reading the relative stream

A client knows the legend and the position of the token before. It adds lines, adds columns as long
as it stays on a line, and looks words up by place and by bit. What it reads are the tokens that were
sent, those without a visible length left out (`decode_encode`). Sender and reader keep the same
running position; a token that is left out moves neither of them.
-/

namespace SemanticHighlight

namespace Legend

variable {legend : Legend} {type : Text} {modifiers words : List Text} {i : Nat}

/-- The modifiers whose bits are set, in the order of the legend. -/
def modifiersOf (legend : Legend) (mask : Nat) : List Text :=
  (legend.modifiers.zipIdx.filter fun entry => mask.testBit entry.2).map Prod.fst

theorem idxOf?_eq_some_iff_of_nodup (h : words.Nodup) {word : Text} :
    words.idxOf? word = some i ↔ words[i]? = some word := by
  constructor
  · intro hidx
    obtain ⟨hi, hword, -⟩ := List.idxOf?_eq_some_iff.mp hidx
    rw [List.getElem?_eq_getElem hi, hword]
  · intro hword
    obtain ⟨hi, hget⟩ := List.getElem?_eq_some_iff.mp hword
    refine List.idxOf?_eq_some_iff.mpr ⟨hi, hget, ?_⟩
    intro j hj hsame
    have hji : words[j]? = words[i]? := by
      rw [hword, List.getElem?_eq_getElem (hj.trans hi), hsame]
    have heq : j = i := (List.getElem?_inj (hj.trans hi) h).mp hji
    omega

theorem types_getElem?_eq_some_iff :
    legend.types[i]? = some type ↔ legend.typeIndex? type = some i :=
  (idxOf?_eq_some_iff_of_nodup legend.types_nodup).symm

theorem exists_typeIndex?_eq_some (h : legend.hasType type = true) :
    ∃ i, legend.typeIndex? type = some i := by
  have hmem : type ∈ legend.types := by simpa [hasType] using h
  cases hindex : legend.typeIndex? type with
  | none => exact absurd hmem (List.idxOf?_eq_none_iff.mp hindex)
  | some i => exact ⟨i, rfl⟩

def setModifier (legend : Legend) (mask : Nat) (modifier : Text) : Nat :=
  match legend.modifiers.idxOf? modifier with
  | some index => mask ||| 1 <<< index
  | none => mask

theorem modifierMask_eq_foldl (legend : Legend) (modifiers : List Text) :
    legend.modifierMask modifiers = modifiers.foldl legend.setModifier 0 := rfl

theorem testBit_setModifier {mask : Nat} {modifier : Text} :
    (legend.setModifier mask modifier).testBit i = true ↔
      mask.testBit i = true ∨ legend.modifiers[i]? = some modifier := by
  rw [← idxOf?_eq_some_iff_of_nodup legend.modifiers_nodup, setModifier]
  cases legend.modifiers.idxOf? modifier with
  | none => simp
  | some index => simp [Nat.testBit_or, Nat.one_shiftLeft, Nat.testBit_two_pow]

theorem testBit_foldl_setModifier {mask : Nat} :
    (modifiers.foldl legend.setModifier mask).testBit i = true ↔
      mask.testBit i = true ∨ ∃ m ∈ modifiers, legend.modifiers[i]? = some m := by
  induction modifiers generalizing mask with
  | nil => simp
  | cons modifier rest ih =>
    rw [List.foldl_cons, ih, testBit_setModifier]
    simp [or_assoc]

theorem testBit_modifierMask :
    (legend.modifierMask modifiers).testBit i = true ↔
      ∃ m ∈ modifiers, legend.modifiers[i]? = some m := by
  rw [modifierMask_eq_foldl, testBit_foldl_setModifier]
  simp

/-- Reading a mask gives the modifiers that it was made of, as far as the legend has them. -/
theorem modifiersOf_modifierMask (legend : Legend) (modifiers : List Text) :
    legend.modifiersOf (legend.modifierMask modifiers) =
      legend.modifiers.filter fun m => modifiers.contains m := by
  have hbits : legend.modifiers.zipIdx.filter
        (fun entry => (legend.modifierMask modifiers).testBit entry.2) =
      legend.modifiers.zipIdx.filter ((fun m => modifiers.contains m) ∘ Prod.fst) := by
    apply List.filter_congr
    intro entry hentry
    have hword : legend.modifiers[entry.2]? = some entry.1 := List.mem_zipIdx_iff_getElem?.mp hentry
    rw [Bool.eq_iff_iff, testBit_modifierMask]
    simp [hword]
  rw [modifiersOf, hbits, ← List.filter_map, List.zipIdx_map_fst]

end Legend

namespace Token

variable {legend : Legend} {index : Option LineIndex} {previous : Position} {t : Token}
  {tokens : List Token} {data : List Int}

/-- A token as the reader of a stream knows it. -/
structure Shown where
  line : Int
  start : Int
  length : Int
  type : Text
  /-- In the order of the legend. -/
  modifiers : List Text
  deriving DecidableEq, Repr

/-- The tokens of a stream that follow one that started at `previous`. -/
def decodeAfter (legend : Legend) (previous : Position) : List Int → Option (List Shown)
  | [] => some []
  | deltaLine :: deltaStart :: length :: typeIndex :: mask :: rest => do
    let line := previous.line + deltaLine
    let start := if deltaLine = 0 then previous.column + deltaStart else deltaStart
    let type ← if typeIndex < 0 then none else legend.types[typeIndex.toNat]?
    let modifiers ← if mask < 0 then none else some (legend.modifiersOf mask.toNat)
    let following ← decodeAfter legend ⟨line, start⟩ rest
    return ⟨line, start, length, type, modifiers⟩ :: following
  | _ => none

/-- The tokens of a stream; there are none if it is no stream of this legend. -/
def decode (legend : Legend) (data : List Int) : Option (List Shown) :=
  decodeAfter legend ⟨0, 0⟩ data

def shown (legend : Legend) (index : Option LineIndex) (t : Token) : Shown :=
  ⟨t.range.start.line, t.range.start.column, visibleLength index t, t.type,
    legend.modifiers.filter fun m => t.modifiers.contains m⟩

def allShown (legend : Legend) (index : Option LineIndex) (tokens : List Token) : List Shown :=
  (tokens.filter fun t => decide (0 < visibleLength index t)).map (shown legend index)

/-! ## One token -/

/-- How far a token starts to the right of `previous`, or of the beginning of its line. -/
def deltaStart (previous start : Position) : Int :=
  if start.line - previous.line = 0 then start.column - previous.column else start.column

theorem column_of_deltaStart (previous start : Position) :
    (if start.line - previous.line = 0 then previous.column + deltaStart previous start
      else deltaStart previous start) = start.column := by
  unfold deltaStart
  split_ifs
  · omega
  · rfl

theorem deltaStart_nonneg {start : Position} (h : previous ≤ start) (hcolumn : 0 ≤ start.column) :
    0 ≤ deltaStart previous start := by
  have hle := Position.le_def.mp h
  unfold deltaStart
  split_ifs
  · omega
  · exact hcolumn

def numbers (legend : Legend) (index : Option LineIndex) (previous : Position) (t : Token)
    (typeIndex : Nat) : List Int :=
  [t.range.start.line - previous.line, deltaStart previous t.range.start, visibleLength index t,
    typeIndex, legend.modifierMask t.modifiers]

theorem encodeAfter_of_hidden (h : visibleLength index t ≤ 0) :
    encodeAfter legend index previous (t :: tokens) = encodeAfter legend index previous tokens := by
  rw [encodeAfter, if_pos h]

theorem encodeAfter_of_visible (h : 0 < visibleLength index t) {i : Nat}
    (htype : legend.typeIndex? t.type = some i) :
    encodeAfter legend index previous (t :: tokens) =
      (encodeAfter legend index t.range.start tokens).map (numbers legend index previous t i ++ ·) := by
  rw [encodeAfter, if_neg (not_le.mpr h), htype]
  cases encodeAfter legend index t.range.start tokens with
  | error e => rfl
  | ok following => rfl

theorem decodeAfter_numbers {i : Nat} (htype : legend.typeIndex? t.type = some i)
    (rest : List Int) :
    decodeAfter legend previous (numbers legend index previous t i ++ rest) =
      (decodeAfter legend t.range.start rest).map (shown legend index t :: ·) := by
  have hword : legend.types[i]? = some t.type := Legend.types_getElem?_eq_some_iff.mpr htype
  have hindex : ¬ ((i : Int) < 0) := by omega
  have hmask : ¬ ((legend.modifierMask t.modifiers : Int) < 0) := by omega
  have hline : previous.line + (t.range.start.line - previous.line) = t.range.start.line := by omega
  have hstart := column_of_deltaStart previous t.range.start
  simp only [numbers, List.cons_append, List.nil_append, decodeAfter, hline, hstart, hindex, hmask,
    if_false, Int.toNat_natCast, hword, Legend.modifiersOf_modifierMask]
  cases decodeAfter legend t.range.start rest with
  | none => rfl
  | some following => rfl

theorem numbers_nonneg (hvisible : 0 < visibleLength index t) (hprevious : previous ≤ t.range.start)
    (hcolumn : 0 ≤ t.range.start.column) {i : Nat} :
    ∀ n ∈ numbers legend index previous t i, 0 ≤ n := by
  have hle := Position.le_def.mp hprevious
  intro n hn
  simp only [numbers, List.mem_cons, List.not_mem_nil, or_false] at hn
  rcases hn with rfl | rfl | rfl | rfl | rfl
  · omega
  · exact deltaStart_nonneg hprevious hcolumn
  · exact hvisible.le
  · exact Int.natCast_nonneg _
  · exact Int.natCast_nonneg _

/-! ## All tokens -/

/-- Tokens with known types have a stream, and the reader gets them back from it. -/
theorem exists_encodeAfter (index : Option LineIndex) (previous : Position)
    (htypes : ∀ t ∈ tokens, legend.hasType t.type = true) :
    ∃ data, encodeAfter legend index previous tokens = .ok data ∧
      decodeAfter legend previous data = some (allShown legend index tokens) := by
  -- The position before is the same on both sides, and moves only with a token that is sent.
  induction tokens generalizing previous with
  | nil => exact ⟨[], rfl, rfl⟩
  | cons t rest ih =>
    have hrest : ∀ u ∈ rest, legend.hasType u.type = true :=
      fun u hu => htypes u (List.mem_cons_of_mem _ hu)
    by_cases hvisible : 0 < visibleLength index t
    · obtain ⟨i, htype⟩ := Legend.exists_typeIndex?_eq_some (htypes t List.mem_cons_self)
      obtain ⟨data, hencode, hdecode⟩ := ih t.range.start hrest
      refine ⟨numbers legend index previous t i ++ data, ?_, ?_⟩
      · rw [encodeAfter_of_visible hvisible htype, hencode]
        rfl
      · rw [decodeAfter_numbers htype, hdecode]
        simp [allShown, hvisible]
    · obtain ⟨data, hencode, hdecode⟩ := ih previous hrest
      refine ⟨data, ?_, ?_⟩
      · rw [encodeAfter_of_hidden (not_lt.mp hvisible), hencode]
      · rw [hdecode]
        simp [allShown, hvisible]

/-- Ascending tokens give no negative numbers. -/
theorem encodeAfter_nonneg (hencode : encodeAfter legend index previous tokens = .ok data)
    (hprevious : ∀ t ∈ tokens, previous ≤ t.range.start)
    (hascending : tokens.Pairwise fun t u => t.range.start ≤ u.range.start)
    (hcolumns : ∀ t ∈ tokens, 0 ≤ t.range.start.column) : ∀ n ∈ data, 0 ≤ n := by
  induction tokens generalizing previous data with
  | nil =>
    rw [encodeAfter, Except.ok.injEq] at hencode
    simp [← hencode]
  | cons t rest ih =>
    obtain ⟨hfirst, hrest⟩ := List.pairwise_cons.mp hascending
    have hcolumns' : ∀ u ∈ rest, 0 ≤ u.range.start.column :=
      fun u hu => hcolumns u (List.mem_cons_of_mem _ hu)
    by_cases hvisible : 0 < visibleLength index t
    · cases htype : legend.typeIndex? t.type with
      | none =>
        rw [encodeAfter, if_neg (not_le.mpr hvisible), htype] at hencode
        cases hencode
      | some i =>
        rw [encodeAfter_of_visible hvisible htype] at hencode
        cases hfollowing : encodeAfter legend index t.range.start rest with
        | error e =>
          rw [hfollowing] at hencode
          cases hencode
        | ok following =>
          rw [hfollowing, Except.map, Except.ok.injEq] at hencode
          intro n hn
          rw [← hencode] at hn
          rcases List.mem_append.mp hn with hn | hn
          · have hstart := hprevious t List.mem_cons_self
            exact numbers_nonneg hvisible hstart (hcolumns t List.mem_cons_self) n hn
          · exact ih hfollowing hfirst hrest hcolumns' n hn
    · rw [encodeAfter_of_hidden (not_lt.mp hvisible)] at hencode
      exact ih hencode (fun u hu => hprevious u (List.mem_cons_of_mem _ hu)) hrest hcolumns'

/-- Whatever tokens are sent, clamped to their lines or not: reading the stream gives back, in order,
line, start, length, type and modifiers of every token with a visible length and of no other. A
stream of ascending tokens with no negative coordinates has no negative numbers. -/
theorem decode_encode (index : Option LineIndex)
    (htypes : ∀ t ∈ tokens, legend.hasType t.type = true) :
    ∃ data, encode legend index tokens = .ok data ∧
      decode legend data = some (allShown legend index tokens) ∧
      ((tokens.Pairwise fun t u => t.range.start ≤ u.range.start) →
        (∀ t ∈ tokens, 0 ≤ t.range.start.line ∧ 0 ≤ t.range.start.column) → ∀ n ∈ data, 0 ≤ n) := by
  obtain ⟨data, hencode, hdecode⟩ := exists_encodeAfter index ⟨0, 0⟩ htypes
  refine ⟨data, hencode, hdecode, ?_⟩
  intro hascending hcoordinates
  refine encodeAfter_nonneg hencode ?_ hascending fun t ht => (hcoordinates t ht).2
  intro t ht
  obtain ⟨hline, hcolumn⟩ := hcoordinates t ht
  rw [Position.le_def]
  dsimp only
  omega

/-- A line cut short, an empty line in between and two tokens on one line. -/
theorem decode_encode_emptyLine :
    let index := some (LineIndex.ofText [97, 98, 10, 10, 99, 100])
    let tokens : List Token :=
      [⟨wholeLine 0, "string", ["static", "unheardOf", "readonly"]⟩, ⟨wholeLine 1, "string", []⟩,
        ⟨⟨⟨2, 0⟩, ⟨2, 1⟩, by decide⟩, "keyword", []⟩, ⟨⟨⟨2, 1⟩, ⟨2, 2⟩, by decide⟩, "number", []⟩]
    (∀ t ∈ tokens, Legend.standard.hasType t.type = true) ∧
      ∃ data, encode .standard index tokens = .ok data ∧
        decode .standard data = some [⟨0, 0, 2, "string", ["readonly", "static"]⟩,
          ⟨2, 0, 1, "keyword", []⟩, ⟨2, 1, 1, "number", []⟩] ∧ ∀ n ∈ data, 0 ≤ n := by
  intro index tokens
  have htypes : ∀ t ∈ tokens, Legend.standard.hasType t.type = true := by decide
  obtain ⟨data, hencode, hdecode, hnonneg⟩ := decode_encode index htypes
  have hshown : allShown .standard index tokens = [⟨0, 0, 2, "string", ["readonly", "static"]⟩,
      ⟨2, 0, 1, "keyword", []⟩, ⟨2, 1, 1, "number", []⟩] := by decide
  exact ⟨htypes, data, hencode, hshown ▸ hdecode, hnonneg (by decide) (by decide)⟩

end Token

end SemanticHighlight
