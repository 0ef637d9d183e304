import SemanticHighlight.Text.Basic

/-!
# UTF-16 units

Editors count columns in UTF-16 units: two for a code point past U+FFFF, one for every other, lone
surrogates included. A cut by units may go through a pair; each half left alone is shown as a
replacement character.
-/

namespace SemanticHighlight.Text

def utf16Width (c : CodePoint) : Nat := if c.val < 0x10000 then 1 else 2

def utf16Length : Text → Nat
  | [] => 0
  | c :: rest => utf16Width c + utf16Length rest

@[simp] theorem utf16Length_nil : utf16Length [] = 0 := rfl

@[simp] theorem utf16Length_cons (c : CodePoint) (t : Text) :
    utf16Length (c :: t) = utf16Width c + utf16Length t := rfl

@[simp] theorem utf16Length_append (s t : Text) :
    utf16Length (s ++ t) = utf16Length s + utf16Length t := by
  induction s with
  | nil => simp
  | cons c s ih => simp [ih, Nat.add_assoc]

theorem utf16Width_pos (c : CodePoint) : 0 < utf16Width c := by
  unfold utf16Width
  split <;> decide

/-- The units of a code point; the high surrogate of a pair comes first. -/
def unitsOf (c : CodePoint) : List CodePoint :=
  if c.val < 0x10000 then [c]
  else [.ofNat (0xD800 + (c.val - 0x10000) / 0x400), .ofNat (0xDC00 + (c.val - 0x10000) % 0x400)]

def toUnits (t : Text) : List CodePoint := t.flatMap unitsOf

def ofPair (high low : CodePoint) : CodePoint :=
  .ofNat (0x10000 + (high.val - 0xD800) * 0x400 + (low.val - 0xDC00))

/-- Joins surrogate pairs and replaces surrogates that stand alone. -/
def ofUnits : List CodePoint → Text
  | [] => []
  | [u] => if u.isSurrogate then [CodePoint.replacement] else [u]
  | u :: v :: rest =>
    if u.isHighSurrogate && v.isLowSurrogate then ofPair u v :: ofUnits rest
    else (if u.isSurrogate then CodePoint.replacement else u) :: ofUnits (v :: rest)

/-- Where a cut at `column` falls in a line of `length` units: negative columns count from the end
of the line, and no cut lies outside it. -/
def cutIndex (length : Nat) (column : Int) : Nat :=
  if column < 0 then (length + column).toNat else min column.toNat length

def sliceUnits (t : Text) (start stop : Int) : Text :=
  let units := toUnits t
  let first := cutIndex units.length start
  ofUnits ((units.drop first).take (cutIndex units.length stop - first))

end SemanticHighlight.Text
