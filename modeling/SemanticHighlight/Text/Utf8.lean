import SemanticHighlight.Text.Basic

/-!
# Texts as bytes

Encoding gives every code point its one to four bytes, surrogates the three that their number
would have. Decoding is one step, `next`, read in three ways: `decode?` stops at the first
ill-formed sequence, `decodeReplacing` puts a replacement character for each, and both can be told
to let encoded surrogates pass. An ill-formed sequence is the longest initial part of a well-formed
one, at least one byte.
-/

namespace SemanticHighlight

abbrev Octets := List UInt8

namespace Text

def utf8Width (c : CodePoint) : Nat :=
  if c.val < 0x80 then 1 else if c.val < 0x800 then 2 else if c.val < 0x10000 then 3 else 4

def encodeCodePoint (c : CodePoint) : Octets :=
  let n := c.val
  if n < 0x80 then [UInt8.ofNat n]
  else if n < 0x800 then [UInt8.ofNat (0xC0 + n / 0x40), UInt8.ofNat (0x80 + n % 0x40)]
  else if n < 0x10000 then
    [UInt8.ofNat (0xE0 + n / 0x1000), UInt8.ofNat (0x80 + n / 0x40 % 0x40),
      UInt8.ofNat (0x80 + n % 0x40)]
  else
    [UInt8.ofNat (0xF0 + n / 0x40000), UInt8.ofNat (0x80 + n / 0x1000 % 0x40),
      UInt8.ofNat (0x80 + n / 0x40 % 0x40), UInt8.ofNat (0x80 + n % 0x40)]

def encodeUtf8 (t : Text) : Octets := t.flatMap encodeCodePoint

theorem length_encodeCodePoint (c : CodePoint) :
    (encodeCodePoint c).length = utf8Width c := by
  unfold encodeCodePoint utf8Width
  dsimp only
  repeat' split
  all_goals rfl

theorem encodeUtf8_append (s t : Text) : encodeUtf8 (s ++ t) = encodeUtf8 s ++ encodeUtf8 t := by
  simp [encodeUtf8]

end Text

inductive Utf8Fault where
  | startByte
  | continuationByte
  | endOfData
  deriving DecidableEq, Repr

/-- An ill-formed sequence: what is wrong, where it starts, how long it is and its first byte. -/
structure Utf8Error where
  fault : Utf8Fault
  position : Nat
  width : Nat
  first : UInt8
  deriving DecidableEq, Repr

inductive Utf8Step where
  | done
  | character (c : CodePoint) (rest : Octets)
  | illFormed (fault : Utf8Fault) (width : Nat) (rest : Octets)

def Utf8Step.rest : Utf8Step → Octets
  | .done => []
  | .character _ rest => rest
  | .illFormed _ _ rest => rest

namespace Text

def isContinuation (b : UInt8) : Bool := 0x80 ≤ b.toNat && b.toNat < 0xC0

/-- Whether `second` may follow the first byte of a longer sequence: no overlong form, nothing past
the last code point, and a surrogate only if `surrogates` is set. -/
def secondFits (surrogates : Bool) (first second : UInt8) : Bool :=
  isContinuation second &&
    match first.toNat with
    | 0xE0 => 0xA0 ≤ second.toNat
    | 0xED => surrogates || second.toNat < 0xA0
    | 0xF0 => 0x90 ≤ second.toNat
    | 0xF4 => second.toNat < 0x90
    | _ => true

/-- Appends the six bits of each of `missing` continuation bytes to `value`, after `used` bytes of
the same sequence. -/
def readContinuations (value : Nat) : (missing used : Nat) → Octets → Utf8Step
  | 0, _, rest => .character (.ofNat value) rest
  | _ + 1, used, [] => .illFormed .endOfData used []
  | missing + 1, used, b :: rest =>
    if isContinuation b then
      readContinuations (value * 0x40 + b.toNat % 0x40) missing (used + 1) rest
    else .illFormed .continuationByte used (b :: rest)

def nextUtf8 (surrogates : Bool) : Octets → Utf8Step
  | [] => .done
  | first :: rest =>
    let n := first.toNat
    if n < 0x80 then .character (.ofNat n) rest
    else if n < 0xC2 ∨ 0xF5 ≤ n then .illFormed .startByte 1 rest
    else
      match rest with
      | [] => .illFormed .endOfData 1 []
      | second :: _ =>
        if secondFits surrogates first second then
          if n < 0xE0 then readContinuations (n % 0x20) 1 1 rest
          else if n < 0xF0 then readContinuations (n % 0x10) 2 1 rest
          else readContinuations (n % 0x8) 3 1 rest
        else .illFormed .continuationByte 1 rest

theorem length_rest_readContinuations (value missing used : Nat) (bytes : Octets) :
    (readContinuations value missing used bytes).rest.length ≤ bytes.length := by
  fun_induction readContinuations value missing used bytes with
  | case1 => exact Nat.le_refl _
  | case2 => exact Nat.le_refl _
  | case3 _ _ _ _ _ _ ih => exact Nat.le_succ_of_le ih
  | case4 => exact Nat.le_refl _

theorem length_rest_nextUtf8 (surrogates : Bool) {bytes : Octets} (h : bytes ≠ []) :
    (nextUtf8 surrogates bytes).rest.length < bytes.length := by
  obtain ⟨first, rest, rfl⟩ := List.exists_cons_of_ne_nil h
  unfold nextUtf8
  dsimp only
  split
  · exact Nat.lt_succ_self _
  split
  · exact Nat.lt_succ_self _
  split
  · exact Nat.lt_succ_self _
  split
  · have tail := fun value missing => length_rest_readContinuations value missing 1
    repeat' split
    all_goals exact Nat.lt_succ_of_le (tail _ _ _)
  · exact Nat.lt_succ_self _

theorem length_rest_of_nextUtf8 {surrogates : Bool} {bytes : Octets} {step : Utf8Step}
    (h : nextUtf8 surrogates bytes = step) (hstep : step ≠ .done) :
    step.rest.length < bytes.length := by
  subst h
  refine length_rest_nextUtf8 surrogates fun hnil => hstep ?_
  rw [hnil, nextUtf8]

/-- Decodes from byte number `position` on, up to the first ill-formed sequence. -/
def decodeFrom? (surrogates : Bool) (position : Nat) (bytes : Octets) : Except Utf8Error Text :=
  match h : nextUtf8 surrogates bytes with
  | .done => .ok []
  | .character c rest => do
    have : rest.length < bytes.length := length_rest_of_nextUtf8 h (by simp)
    let t ← decodeFrom? surrogates (position + utf8Width c) rest
    return c :: t
  | .illFormed fault width _ => .error ⟨fault, position, width, bytes.headD 0⟩
termination_by bytes.length

/-- Strict decoding, except that `surrogates` lets encoded surrogates pass. -/
def decode? (surrogates : Bool) (bytes : Octets) : Except Utf8Error Text :=
  decodeFrom? surrogates 0 bytes

def decodeReplacing (bytes : Octets) : Text :=
  match h : nextUtf8 false bytes with
  | .done => []
  | .character c rest =>
    have : rest.length < bytes.length := length_rest_of_nextUtf8 h (by simp)
    c :: decodeReplacing rest
  | .illFormed _ _ rest =>
    have : rest.length < bytes.length := length_rest_of_nextUtf8 h (by simp)
    CodePoint.replacement :: decodeReplacing rest
termination_by bytes.length

/-- Decodes with surrogates; if that fails, again with replacement characters. -/
def decodeLenient (bytes : Octets) : Text :=
  match decode? true bytes with
  | .ok t => t
  | .error _ => decodeReplacing bytes

end Text

namespace Utf8Fault

def reason : Utf8Fault → Text
  | startByte => "invalid start byte"
  | continuationByte => "invalid continuation byte"
  | endOfData => "unexpected end of data"

end Utf8Fault

namespace Utf8Error

/-- Names the offending byte, or the stretch if there are several. -/
def message (e : Utf8Error) : Text :=
  "'utf-8' codec can't decode " ++
    (if e.width = 1 then
      "byte 0x" ++ Text.ofHex 2 e.first.toNat ++ " in position " ++ Text.ofNat e.position
    else
      "bytes in position " ++ Text.ofNat e.position ++ "-" ++
        Text.ofNat (e.position + e.width - 1)) ++
    ": " ++ e.fault.reason

instance : ToText Utf8Error := ⟨message⟩

end Utf8Error

/-! ## Characters without bytes -/

/-- A stretch of characters that an encoding has no bytes for, and where it starts. -/
structure Unencodable where
  position : Nat
  stretch : Text
  deriving DecidableEq, Repr

namespace Unencodable

def place (e : Unencodable) : Text :=
  if e.stretch.length = 1 then
    "character '" ++ e.stretch.flatMap Text.numbered ++ "' in position " ++ Text.ofNat e.position
  else
    "characters in position " ++ Text.ofNat e.position ++ "-" ++
      Text.ofNat (e.position + e.stretch.length - 1)

/-- A stretch of surrogates where bytes are asked for. -/
def message (e : Unencodable) : Text :=
  "'utf-8' codec can't encode " ++ e.place ++ ": surrogates not allowed"

end Unencodable

namespace Text

def stretches (inside : CodePoint → Bool) (t : Text) : List Unencodable :=
  let pieces : List Text := t.splitBy fun c d => inside c == inside d
  (pieces.foldl (fun (place, found) piece =>
    let here : List Unencodable := if piece.any inside then [⟨place, piece⟩] else []
    (place + piece.length, found ++ here)) ((0, []) : Nat × List Unencodable)).2

def unencodable? (t : Text) : Option Unencodable := (t.stretches CodePoint.isSurrogate).head?

end Text

end SemanticHighlight
