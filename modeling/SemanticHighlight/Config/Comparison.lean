import SemanticHighlight.Config.Content

/-!
# Comparing values

Values are equal in two ways. Loosely, truth values count as numbers, and a list is only equal to a
list. Strictly, truth values are equal to nothing else, and lists, pairs and bytes are rows alike.
Some values have an order as well. Whether a list holds something twice is found by sorting it, if it
can be sorted, and else by comparing each item with all those before.
-/

namespace SemanticHighlight

/-- Why a comparison has no answer. -/
inductive Obstacle where
  | incomparable
  /-- Collections that contain themselves are alike as far as one can see. -/
  | endless
  deriving DecidableEq, Repr

abbrev Comparing := Except Obstacle

namespace Value

def isNumber : Value → Bool
  | bool _ | int _ | real _ | notANumber _ => true
  | _ => false

def isNan : Value → Bool
  | notANumber _ | real .nan => true
  | _ => false

/-- Where an infinite number stands, seen from the finite ones. -/
def side : Value → Int
  | real (.infinite negative) => if negative then -1 else 1
  | _ => 0

/-- The order of numbers. What is no number has none. -/
def isLessNumber (a b : Value) : Bool :=
  if a.isNan || b.isNan then false
  else if a.side ≠ b.side then a.side < b.side
  else
    match a.quotient?, b.quotient? with
    | some (n, d), some (m, e) => n * e < m * d
    | _, _ => false

/-- The members of a set as they are told: numbers in ascending order, others as they came. -/
def arrange (members : List Value) : List Value :=
  if members.all fun v => v.isNumber && !v.isNan then members.mergeSort fun a b => !isLessNumber b a
  else members

def isSubset (xs ys : List Value) : Bool := xs.all fun x => ys.any (sameName x)

/-- The parts of a row, if a value is one and not a text. -/
def row? : Value → Option (List Value)
  | list items => some items
  | pair a b => some [a, b]
  | bytes b => some (b.map fun byte => int byte.toNat)
  | _ => none

mutual

def depth : Value → Nat
  | bytes _ => 1
  | list items => depthOfItems items + 1
  | pair a b => max (depth a) (depth b) + 1
  | table entries => depthOfEntries entries + 1
  | _ => 0

def depthOfItems : List Value → Nat
  | [] => 0
  | v :: rest => max (depth v) (depthOfItems rest)

def depthOfEntries : List (Value × Value) → Nat
  | [] => 0
  | (_, v) :: rest => max (depth v) (depthOfEntries rest)

end

def isSameKnot : Value → Value → Bool
  | knot _ m, knot _ n => m == n
  | _, _ => false

/-- The order of two values that are no collections. -/
def isLess (a b : Value) : Comparing Bool :=
  match a, b with
  | text s, text t => .ok (s < t)
  | bytes s, bytes t => .ok (s.map UInt8.toNat < t.map UInt8.toNat)
  | date s, date t => .ok (s.dayNumber < t.dayNumber)
  | moment s, moment t =>
    if s.isComparable t then .ok (s.count < t.count) else .error .incomparable
  | set xs, set ys => .ok (xs.length < ys.length && isSubset xs ys)
  | a, b => if a.isNumber && b.isNumber then .ok (isLessNumber a b) else .error .incomparable

end Value

namespace Comparing

def sameRow (equal : Value → Value → Comparing Bool) (xs ys : List Value) : Comparing Bool :=
  if xs.length ≠ ys.length then .ok false else (xs.zip ys).allM fun (x, y) => equal x y

def sameTable (equal : Value → Value → Comparing Bool) (xs ys : List (Value × Value)) :
    Comparing Bool :=
  if xs.length ≠ ys.length then .ok false
  else
    xs.allM fun (name, x) =>
      match Value.valueAt? ys name with
      | some y => equal x y
      | none => .ok false

/-- The first items that differ decide the order of two rows; else the shorter one comes first. -/
def lessRow (equal less : Value → Value → Comparing Bool) :
    List Value → List Value → Comparing Bool
  | x :: xs, y :: ys => do if ← equal x y then lessRow equal less xs ys else less x y
  | [], _ :: _ => .ok true
  | _, [] => .ok false

/-- The items at the beginning that ascend or, if they go `down`, strictly descend; `run` are those
found so far, the last of them first. -/
def takeRun (less : Value → Value → Comparing Bool) (down : Bool) (last : Value)
    (run : List Value) : List Value → Comparing (List Value × List Value)
  | [] => .ok (run, [])
  | x :: rest => do
    if (← less x last) = down then takeRun less down x (x :: run) rest else return (run, x :: rest)

/-- The place of a new item among sorted ones, found by halving: behind those that it is not less
than. -/
def placeOf (less : Value → Value → Comparing Bool) (x : Value) (xs : Array Value) :
    (fuel low high : Nat) → Comparing Nat
  | 0, low, _ => .ok low
  | fuel + 1, low, high =>
    if low < high then do
      let middle := low + (high - low) / 2
      if ← less x (xs.getD middle x) then placeOf less x xs fuel low middle
      else placeOf less x xs fuel (middle + 1) high
    else .ok low

def insertSorted (less : Value → Value → Comparing Bool) (xs : Array Value) (x : Value) :
    Comparing (Array Value) := do
  return xs.insertIdxIfInBounds (← placeOf less x xs (xs.size + 1) 0 xs.size) x

/-- The items in ascending order. A run at the beginning is taken as it is. -/
def sort (less : Value → Value → Comparing Bool) : List Value → Comparing (List Value)
  | x :: y :: rest => do
    let down ← less y x
    let (run, rest) ← takeRun less down y [y, x] rest
    let run := if down then run else run.reverse
    return (← rest.foldlM (insertSorted less) run.toArray).toList
  | xs => .ok xs

end Comparing

namespace Content

/-- How deep the comparison of a value with another one goes before it is given up. Where nothing
contains itself, it is as deep as the value is nested, so that it comes to its end. -/
def reach (c : Content) (v : Value) : Nat := if c.knots.isEmpty then v.depth + 2 else 1000

/-- Whether two values are equal where truth values count as numbers. -/
def looselyEqual (c : Content) : (depth : Nat) → Value → Value → Comparing Bool
  | 0, _, _ => .error .endless
  | depth + 1, a, b =>
    if a.isSameKnot b then .ok true
    else
      match c.view a, c.view b with
      | .list xs, .list ys => Comparing.sameRow (c.looselyEqual depth) xs ys
      | .pair x y, .pair z w => Comparing.sameRow (c.looselyEqual depth) [x, y] [z, w]
      | .table xs, .table ys => Comparing.sameTable (c.looselyEqual depth) xs ys
      | .set xs, .set ys => .ok (xs.length == ys.length && Value.isSubset xs ys)
      | a, b => .ok (Value.sameName a b)

/-- Whether two values are equal where truth values are not numbers. -/
def strictlyEqual (c : Content) : (depth : Nat) → Value → Value → Comparing Bool
  | 0, _, _ => .error .endless
  | depth + 1, a, b =>
    if a.isSameKnot b then .ok true
    else
      match c.view a, c.view b with
      | .bool a, .bool b => .ok (a == b)
      | .bool _, _ | _, .bool _ => .ok false
      | .table xs, .table ys => Comparing.sameTable (c.strictlyEqual depth) xs ys
      | a, b =>
        match a.row?, b.row? with
        | some xs, some ys => Comparing.sameRow (c.strictlyEqual depth) xs ys
        | _, _ => c.looselyEqual depth a b

def isLess (c : Content) : (depth : Nat) → Value → Value → Comparing Bool
  | 0, _, _ => .error .endless
  | depth + 1, a, b =>
    let row := Comparing.lessRow (c.looselyEqual depth) (c.isLess depth)
    match c.view a, c.view b with
    | .list xs, .list ys => row xs ys
    | .pair x y, .pair z w => row [x, y] [z, w]
    | a, b => a.isLess b

/-- The order of the items of a list, among which truth values have no place. -/
def isLessItem (c : Content) (a b : Value) : Comparing Bool :=
  if a.bool?.isSome || b.bool?.isSome then .error .incomparable else c.isLess (c.reach a) a b

def hasEqualNeighbours (c : Content) (xs : List Value) : Comparing Bool :=
  (xs.zip xs.tail).anyM fun (x, y) => c.strictlyEqual (c.reach x) x y

def hasEqualPair (c : Content) (before : List Value) : List Value → Comparing Bool
  | [] => .ok false
  | x :: rest => do
    if ← before.anyM fun y => c.strictlyEqual (c.reach y) y x then return true
    c.hasEqualPair (before ++ [x]) rest

def hasRepeats (c : Content) (xs : List Value) : Comparing Bool :=
  match Comparing.sort c.isLessItem xs with
  | .ok sorted => c.hasEqualNeighbours sorted
  | .error .incomparable => c.hasEqualPair [] xs
  | .error .endless => .error .endless

end Content

end SemanticHighlight
