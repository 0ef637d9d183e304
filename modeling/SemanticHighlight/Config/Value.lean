import SemanticHighlight.Json.Basic
import SemanticHighlight.Number.Calendar
import SemanticHighlight.Text.Utf8

/-!
# Values of a configuration document

A configuration is written as JSON by an editor and as YAML in a file; this is what either of them
can say. The names of a table may be any value that is no collection, not only texts. In a file a
collection may contain itself; where it comes again, only its number is given.
-/

namespace SemanticHighlight

/-- What is written around lists, pairs and tables. -/
inductive Brackets where
  | square
  | round
  | curly
  deriving DecidableEq, Repr

inductive Value where
  | null
  | bool (b : Bool)
  | int (i : Int)
  | real (x : Binary64)
  /-- What is no number is only equal to itself. -/
  | notANumber (id : Nat)
  | text (t : Text)
  | bytes (b : Octets)
  | date (d : Date)
  | moment (m : Moment)
  | list (items : List Value)
  | pair (first second : Value)
  | set (members : List Value)
  | table (entries : List (Value × Value))
  /-- A collection that contains itself, by its number. -/
  | knot (brackets : Brackets) (number : Nat)
  deriving Repr, Inhabited

namespace Value

mutual

def ofJson : Json → Value
  | .null => null
  | .bool b => bool b
  | .int i => int i
  | .real x => real x
  | .text t => text t
  | .list items => list (ofJsonItems items)
  | .object members => table (ofJsonMembers members)

def ofJsonItems : List Json → List Value
  | [] => []
  | j :: rest => ofJson j :: ofJsonItems rest

def ofJsonMembers : List (Text × Json) → List (Value × Value)
  | [] => []
  | (name, j) :: rest => (text name, ofJson j) :: ofJsonMembers rest

end

/-- The finite number that a value stands for where truth values count as numbers. -/
def quotient? : Value → Option (Int × Nat)
  | bool b => some (if b then 1 else 0, 1)
  | int i => some (i, 1)
  | real x => x.toQuotient?
  | _ => none

/-- Whether two values are the same number, whatever they are written as. -/
def sameNumber (a b : Value) : Bool :=
  match a, b with
  | real (.infinite s), real (.infinite t) => s == t
  | notANumber i, notANumber j => i == j
  | _, _ =>
    match a.quotient?, b.quotient? with
    | some (n, d), some (m, e) => n * e == m * d
    | _, _ => false

/-- Whether two values are the same name in a table. Collections are never names. -/
def sameName : Value → Value → Bool
  | null, null => true
  | text s, text t => s == t
  | bytes s, bytes t => s == t
  | date s, date t => s == t
  | moment s, moment t => s.isSame t
  | a, b => sameNumber a b

/-- What stands under a name; anything else has no names. -/
def valueAt? (entries : List (Value × α)) (name : Value) : Option α :=
  (entries.find? fun e => sameName e.1 name).map Prod.snd

/-- Puts something under a name, in its place if the name is known and at the end if not. -/
def insert (entries : List (Value × α)) (name : Value) (value : α) : List (Value × α) :=
  if entries.any fun e => sameName e.1 name then
    entries.map fun e => if sameName e.1 name then (e.1, value) else e
  else entries ++ [(name, value)]

mutual

/-- A value with something else in place of every knot. -/
def untie (f : Brackets → Nat → Value) : Value → Value
  | list items => list (untieItems f items)
  | pair a b => pair (untie f a) (untie f b)
  | table entries => table (untieEntries f entries)
  | knot brackets number => f brackets number
  | v => v

def untieItems (f : Brackets → Nat → Value) : List Value → List Value
  | [] => []
  | v :: rest => untie f v :: untieItems f rest

def untieEntries (f : Brackets → Nat → Value) : List (Value × Value) → List (Value × Value)
  | [] => []
  | (name, v) :: rest => (name, untie f v) :: untieEntries f rest

end

mutual

def holdsInt (p : Int → Bool) : Value → Bool
  | int i => p i
  | list items => anyHoldsInt p items
  | pair a b => holdsInt p a || holdsInt p b
  | set members => anyHoldsInt p members
  | table entries => anyEntryHoldsInt p entries
  | _ => false

def anyHoldsInt (p : Int → Bool) : List Value → Bool
  | [] => false
  | v :: rest => holdsInt p v || anyHoldsInt p rest

def anyEntryHoldsInt (p : Int → Bool) : List (Value × Value) → Bool
  | [] => false
  | (name, v) :: rest => holdsInt p name || holdsInt p v || anyEntryHoldsInt p rest

end

def isNull : Value → Bool
  | null => true
  | _ => false

def text? : Value → Option Text
  | text t => some t
  | _ => none

def bool? : Value → Option Bool
  | bool b => some b
  | _ => none

def items? : Value → Option (List Value)
  | list items => some items
  | _ => none

def entries? : Value → Option (List (Value × Value))
  | table entries => some entries
  | _ => none

/-- The whole number that a value is; a number with an empty fraction is one. -/
def integer? : Value → Option Int
  | int i => some i
  | real x => x.toInt?
  | _ => none

def field? (v : Value) (name : Text) : Option Value :=
  v.entries?.bind fun entries => valueAt? entries (text name)

end Value

end SemanticHighlight
