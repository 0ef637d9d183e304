import SemanticHighlight.Text.Basic

/-!
# Numeric addresses of hosts

A host of version 4 is four numbers below 256. One of version 6 is eight groups of hexadecimal
digits, of which one gap may leave out a run; its last two groups may be written as a host of version
4, and a scope may follow behind a percent sign.
-/

namespace SemanticHighlight.IpAddress

/-- A number below 256 without leading zeros. -/
def isOctet (t : Text) : Bool :=
  t ≠ [] && t.length ≤ 3 && t.all CodePoint.isDigit &&
    (t = "0" || t.head? ≠ some ('0' : CodePoint)) && Text.toNat t < 256

def isVersion4 (t : Text) : Bool :=
  let parts := t.splitOn '.'
  parts.length = 4 && parts.all isOctet

def isHexText (t : Text) : Bool := t.all fun c => c.hexValue?.isSome

def isGroup (t : Text) : Bool := t ≠ [] && t.length ≤ 4 && isHexText t

/-- The groups between the colons; a host of version 4 at the end makes two. -/
def groupsOf (t : Text) : List Text :=
  let parts := t.splitOn ':'
  let zero : Text := "0"
  if isVersion4 (parts.getLastD []) then parts.dropLast ++ [zero, zero] else parts

/-- The place of the first empty group that is neither the first nor the last. -/
def gap? (groups : List Text) : Option Nat := ((groups.drop 1).dropLast.idxOf? []).map (· + 1)

def side? (groups : List Text) : Option Nat :=
  if groups = [[]] then some 0 else if groups.all isGroup then some groups.length else none

def scopeFits : Option Text → Bool
  | none => true
  | some scope => scope ≠ [] && !scope.contains ('%' : CodePoint)

def isVersion6 (t : Text) : Bool :=
  let (address, scope) := t.cut '%'
  let groups := groupsOf address
  scopeFits scope &&
    match gap? groups with
    | none => groups.length = 8 && groups.all isGroup
    | some place =>
      match side? (groups.take place), side? (groups.drop (place + 1)) with
      | some front, some back => front + back < 8
      | _, _ => false

/-- An address of a version to come: the version, and anything behind a point. -/
def isFuture (t : Text) : Bool :=
  match t with
  | [] => false
  | v :: rest =>
    let (version, address) := Text.cut '.' rest
    v = 'v' && version ≠ [] && isHexText version && address.getD [] ≠ []

end SemanticHighlight.IpAddress
