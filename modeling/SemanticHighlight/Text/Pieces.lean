import SemanticHighlight.Text.Lines
import SemanticHighlight.Text.Utf8

/-!
# Reading a file in pieces

Whoever reads a file in pieces gets so many characters at a time, with all line ends made one. Behind
that, bytes are decoded in chunks that are at least as large as the pieces. An ill-formed sequence is
found when its chunk is decoded, so that earlier pieces come through, and its position is counted
from the beginning of the chunk.
-/

namespace SemanticHighlight

structure PieceReader where
  /-- What is not yet decoded. -/
  bytes : Octets
  /-- The first bytes of a character whose other bytes are still to come. -/
  unfinished : Octets
  /-- Whether a carriage return is held back until it is known what follows. -/
  heldReturn : Bool
  /-- What is decoded and not yet handed out. -/
  ready : Text
  /-- How many bytes the last chunk had, and how many characters came of it. -/
  lastBytes : Nat
  lastCharacters : Nat

namespace PieceReader

def ofBytes (bytes : Octets) : PieceReader := ⟨bytes, [], false, [], 0, 0⟩

def pieceSize : Nat := 4096

def leastChunk : Nat := 8192

def decodeComplete (position : Nat) (bytes : Octets) : Except Utf8Error (Text × Octets) :=
  match h : Text.nextUtf8 false bytes with
  | .done => .ok ([], [])
  | .character c rest => do
    have : rest.length < bytes.length := Text.length_rest_of_nextUtf8 h (by simp)
    let (t, unfinished) ← decodeComplete (position + Text.utf8Width c) rest
    return (c :: t, unfinished)
  | .illFormed .endOfData _ _ => .ok ([], bytes)
  | .illFormed fault width _ => .error ⟨fault, position, width, bytes.headD 0⟩
termination_by bytes.length

/-- As many bytes as `wanted` characters will take if they are like those before. -/
def chunkSize (r : PieceReader) (wanted : Nat) : Nat :=
  max leastChunk (wanted * r.lastBytes / r.lastCharacters)

def isReturn (c : CodePoint) : Bool := c.val = 13

/-- Decodes another chunk. A carriage return at its end is held back. -/
def decodeChunk (r : PieceReader) (wanted : Nat) : Except Utf8Error PieceReader := do
  let chunk := r.bytes.take (r.chunkSize wanted)
  let (t, unfinished) ← decodeComplete 0 (r.unfinished ++ chunk)
  let t := if r.heldReturn && t ≠ [] then CodePoint.ofNat 13 :: t else t
  let endsInReturn := (t.getLast?.map isReturn).getD (r.heldReturn && t = [])
  let t := Text.unifyLineEnds (if endsInReturn then t.dropLast else t)
  return ⟨r.bytes.drop chunk.length, unfinished, endsInReturn, r.ready ++ t, chunk.length, t.length⟩

def decodeEnd (r : PieceReader) : Except Utf8Error PieceReader := do
  let _ ← Text.decode? false r.unfinished
  let ending : Text := if r.heldReturn then [CodePoint.newline] else []
  return { r with heldReturn := false, ready := r.ready ++ ending }

/-- Decodes until `wanted` characters are ready or there are no more bytes. Every chunk takes some,
which `fuel` counts. -/
def fill (wanted : Nat) : (fuel : Nat) → PieceReader → Except Utf8Error PieceReader
  | 0, r => .ok r
  | fuel + 1, r =>
    if wanted ≤ r.ready.length then .ok r
    else if r.bytes = [] then r.decodeEnd
    else do fill wanted fuel (← r.decodeChunk (wanted - r.ready.length))

/-- The pieces up to where decoding fails, if it does. -/
def pieces : (fuel : Nat) → PieceReader → List Text × Option Utf8Error
  | 0, _ => ([], none)
  | fuel + 1, r =>
    match r.fill pieceSize (r.bytes.length + 1) with
    | .error e => ([], some e)
    | .ok r =>
      if r.ready = [] then ([], none)
      else
        let (more, e) := pieces fuel { r with ready := r.ready.drop pieceSize }
        (r.ready.take pieceSize :: more, e)

end PieceReader

namespace Text

def pieces (bytes : Octets) : List Text × Option Utf8Error :=
  (PieceReader.ofBytes bytes).pieces (bytes.length + 1)

end Text

end SemanticHighlight
