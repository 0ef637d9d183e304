/-!
# Text as code points

A text is a list of code points, surrogates included: an editor may send one half of a surrogate
pair, and it has to leave the highlighter the way it came in. This module holds the type, the
reading of string literals and the few list operations that every other module shares.
-/

namespace SemanticHighlight

/-- A Unicode code point. Unlike a `Char` it may be a surrogate. -/
abbrev CodePoint := Fin 0x110000

namespace CodePoint

def ofChar (c : Char) : CodePoint :=
  ⟨c.toNat, by
    have h := c.valid
    simp only [UInt32.isValidChar, Nat.isValidChar] at h
    change c.val.toNat < _
    rcases h with h | h <;> omega⟩

instance : Coe Char CodePoint := ⟨ofChar⟩

/-- The code point numbered `n`, or the replacement character if there is none. -/
def ofNat (n : Nat) : CodePoint :=
  if h : n < 0x110000 then ⟨n, h⟩ else ⟨0xFFFD, by decide⟩

/-- Stands in for whatever cannot be decoded. -/
def replacement : CodePoint := ⟨0xFFFD, by decide⟩

def newline : CodePoint := ⟨10, by decide⟩

def isAscii (c : CodePoint) : Bool := c.val < 0x80

def isSurrogate (c : CodePoint) : Bool := 0xD800 ≤ c.val && c.val < 0xE000

def isHighSurrogate (c : CodePoint) : Bool := 0xD800 ≤ c.val && c.val < 0xDC00

def isLowSurrogate (c : CodePoint) : Bool := 0xDC00 ≤ c.val && c.val < 0xE000

def isDigit (c : CodePoint) : Bool := 0x30 ≤ c.val && c.val ≤ 0x39

/-- The value of a decimal digit; meaningful only under `isDigit`. -/
def digitValue (c : CodePoint) : Nat := c.val - 0x30

/-- The value of a digit in any base up to sixteen, in either case. -/
def hexValue? (c : CodePoint) : Option Nat :=
  if c.isDigit then some (c.val - 0x30)
  else if 0x41 ≤ c.val && c.val ≤ 0x46 then some (c.val - 0x41 + 10)
  else if 0x61 ≤ c.val && c.val ≤ 0x66 then some (c.val - 0x61 + 10)
  else none

/-- Lower case of an ASCII letter; everything else stays. -/
def lowerAscii (c : CodePoint) : CodePoint :=
  if 0x41 ≤ c.val && c.val ≤ 0x5A then ofNat (c.val + 0x20) else c

end CodePoint

abbrev Text := List CodePoint

namespace Text

def ofString (s : String) : Text := s.toList.map CodePoint.ofChar

instance : Coe String Text := ⟨ofString⟩

def ofNat (n : Nat) : Text := (Nat.toDigits 10 n).map CodePoint.ofChar

def ofInt : Int → Text
  | .ofNat n => ofNat n
  | .negSucc n => "-" ++ ofNat (n + 1)

/-- Lower-case hexadecimal notation, padded with zeros to `width` digits. -/
def ofHex (width n : Nat) : Text :=
  let digits : Text := (Nat.toDigits 16 n).map CodePoint.ofChar
  List.replicate (width - digits.length) ('0' : CodePoint) ++ digits

/-- A character by its number, as an escape sequence. -/
def numbered (c : CodePoint) : Text :=
  if c.val < 0x100 then "\\x" ++ ofHex 2 c.val
  else if c.val < 0x10000 then "\\u" ++ ofHex 4 c.val
  else "\\U" ++ ofHex 8 c.val

def toNat (digits : Text) : Nat := digits.foldl (fun n c => 10 * n + c.digitValue) 0

def join (separator : Text) (parts : List Text) : Text := List.intercalate separator parts

/-- The stretches between occurrences of `separator`; never an empty list. -/
def splitOn (separator : CodePoint) : Text → List Text
  | [] => [[]]
  | c :: rest =>
    if c = separator then [] :: splitOn separator rest
    else
      match splitOn separator rest with
      | [] => [[c]]
      | first :: others => (c :: first) :: others

theorem splitOn_ne_nil (separator : CodePoint) (t : Text) : splitOn separator t ≠ [] := by
  cases t with
  | nil => simp [splitOn]
  | cons c rest =>
    rw [splitOn]
    split
    · simp
    · split <;> simp

theorem join_splitOn (separator : CodePoint) (t : Text) :
    join [separator] (splitOn separator t) = t := by
  induction t with
  | nil => rfl
  | cons c rest ih =>
    rw [splitOn]
    obtain ⟨first, others, h⟩ := List.exists_cons_of_ne_nil (splitOn_ne_nil separator rest)
    rw [h] at ih ⊢
    split
    · next hc =>
      subst hc
      simp only [join, List.intercalate, List.intersperse] at ih ⊢
      simp [ih]
    · cases others with
      | nil => simpa [join, List.intercalate] using ih
      | cons second others =>
        simp only [join, List.intercalate, List.intersperse] at ih ⊢
        simp only [List.flatten_cons, List.cons_append] at ih ⊢
        rw [ih]

/-- What follows `start` at the beginning of the text, if the text begins with it. -/
def after? : (start t : Text) → Option Text
  | [], t => some t
  | _ :: _, [] => none
  | s :: start, c :: t => if s = c then after? start t else none

def startsWith (t start : Text) : Bool := (after? start t).isSome

/-- The text up to the first `separator` and, if there is one, what follows it. -/
def cut (separator : CodePoint) : Text → Text × Option Text
  | [] => ([], none)
  | c :: rest =>
    if c = separator then ([], some rest)
    else let (head, tail) := cut separator rest; (c :: head, tail)

def padRight (width : Nat) (t : Text) : Text :=
  t ++ List.replicate (width - t.length) (' ' : CodePoint)

def lowerAscii (t : Text) : Text := t.map CodePoint.lowerAscii

def isAscii (t : Text) : Bool := t.all CodePoint.isAscii

/-- Order by code point, a proper initial part first. -/
def le : Text → Text → Bool
  | [], _ => true
  | _ :: _, [] => false
  | c :: s, d :: t => decide (c.val < d.val) || (c == d && le s t)

def sort (texts : List Text) : List Text := texts.mergeSort le

/-- The characters of the text that a `String` can hold, others replaced. -/
def toString (t : Text) : String :=
  String.ofList (t.map fun c => if c.isSurrogate then Char.ofNat 0xFFFD else Char.ofNat c.val)

end Text

/-- Writes a value for a reader of messages and logs. -/
class ToText (α : Type) where
  toText : α → Text

export ToText (toText)

instance : ToText Text := ⟨id⟩
instance : ToText Nat := ⟨Text.ofNat⟩
instance : ToText Int := ⟨Text.ofInt⟩

end SemanticHighlight
