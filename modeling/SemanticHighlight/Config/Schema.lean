import SemanticHighlight.Config.Comparison
import SemanticHighlight.Config.Wording

/-!
# Schemas

A schema says what a value has to look like. Checking collects every violation with the place in the
document where it was found; the one that is reported stands nearest to the root and, of several
equally near, at the greatest place. Where places have no order, no violation can be picked.
-/

namespace SemanticHighlight

inductive Schema where
  | boolean
  | text (nonEmpty : Bool)
  | integer (minimum : Int)
  | list (items : Schema) (unique : Bool)
  /-- A table with these names only. -/
  | record (fields : List (Text × Schema)) (required : List Text)
  /-- A table with any names. -/
  | table (entries : Schema)

/-- One step from a value into a part of it. -/
inductive Step where
  | name (name : Value)
  | index (i : Nat)
  deriving Repr

inductive Violation where
  | wrongType (value : Value) (expected : Text)
  | unexpected (names : List Value)
  | missing (name : Text)
  | empty
  | tooSmall (value : Value) (minimum : Int)
  | repeated (value : Value)
  /-- Whether a list holds something twice cannot be found out. -/
  | unclear
  deriving Repr

/-- A violation and where it was found. -/
structure Finding where
  place : List Step
  violation : Violation
  deriving Repr

namespace Step

def plain : Step → Text
  | name n => n.plain
  | index i => Text.ofNat i

end Step

namespace Violation

def message : Violation → Text
  | wrongType value expected => value.literal ++ " is not of type " ++ expected.quoted
  | unexpected names =>
    let verb : Text := if names.length = 1 then "was" else "were"
    "Additional properties are not allowed (" ++ Text.join ", " (names.map Value.literal) ++ " " ++
      verb ++ " unexpected)"
  | missing name => name.quoted ++ " is a required property"
  | empty => "'' should be non-empty"
  | tooSmall value minimum =>
    value.literal ++ " is less than the minimum of " ++ Text.ofInt minimum
  | repeated value => value.literal ++ " has non-unique elements"
  | unclear => []

end Violation

namespace Schema

def here (violations : List Violation) : List Finding := violations.map fun v => ⟨[], v⟩

def inside (step : Step) (findings : List Finding) : List Finding :=
  findings.map fun f => { f with place := step :: f.place }

/-- Whether a number is below a whole number; no other value is, and not a truth value either. -/
def isBelow (minimum : Int) : Value → Bool
  | .int i => i < minimum
  | .real (.infinite negative) => negative
  | .real x => (x.toQuotient?.map fun (n, d) => decide (n < minimum * d)).getD false
  | _ => false

/-- The names of a table that a record does not have, in ascending order of their plain wording. -/
def strangers (fields : List (Text × Schema)) (entries : List (Value × Value)) : List Value :=
  let names := (entries.map Prod.fst).filter fun name =>
    !fields.any fun f => Value.sameName (.text f.1) name
  names.mergeSort fun a b => Text.le a.plain b.plain

def recordViolations (fields : List (Text × Schema)) (required : List Text)
    (entries : List (Value × Value)) : List Violation :=
  let extra := strangers fields entries
  (if extra = [] then [] else [.unexpected extra]) ++
    (required.filter fun name => (Value.valueAt? entries (.text name)).isNone).map .missing

def mistyped (c : Content) (v : Value) (expected : Text) : List Finding :=
  here [.wrongType (c.unfold v) expected]

def repeatViolations (c : Content) (v : Value) (items : List Value) : List Violation :=
  match c.hasRepeats items with
  | .ok false => []
  | .ok true => [.repeated (c.unfold v)]
  | .error _ => [.unclear]

mutual

/-- All that is wrong with a value of a document, and where. -/
def findings (c : Content) : Schema → Value → List Finding
  | boolean, v => if v.bool?.isSome then [] else mistyped c v "boolean"
  | text nonEmpty, v =>
    match v.text? with
    | none => mistyped c v "string"
    | some t => here (if nonEmpty ∧ t = [] then [.empty] else [])
  | integer minimum, v =>
    (if v.integer?.isSome then [] else mistyped c v "integer") ++
      here (if isBelow minimum v then [.tooSmall v minimum] else [])
  | list items unique, v =>
    match (c.view v).items? with
    | none => mistyped c v "array"
    | some xs =>
      here (if unique then repeatViolations c v xs else []) ++
        xs.zipIdx.flatMap fun (x, i) => inside (.index i) (findings c items x)
  | record fields required, v =>
    match (c.view v).entries? with
    | none => mistyped c v "object"
    | some entries =>
      here (recordViolations fields required entries) ++ fieldFindings c fields entries
  | table entrySchema, v =>
    match (c.view v).entries? with
    | none => mistyped c v "object"
    | some entries =>
      entries.flatMap fun (name, x) => inside (.name name) (findings c entrySchema x)

def fieldFindings (c : Content) :
    List (Text × Schema) → List (Value × Value) → List Finding
  | [], _ => []
  | (name, schema) :: rest, entries =>
    (match Value.valueAt? entries (.text name) with
      | none => []
      | some x => inside (.name (.text name)) (findings c schema x)) ++
      fieldFindings c rest entries

end

end Schema

/-- Why checking does not come to one finding or to none. -/
inductive Dilemma where
  /-- The names in the places of two findings have no order. -/
  | incomparable (new old : Value)
  | endless
  /-- The check itself failed. -/
  | escaped (kind text : Text)
  deriving Repr

namespace Dilemma

def isMoment : Value → Bool
  | .moment _ => true
  | _ => false

def isDate : Value → Bool
  | .date _ => true
  | _ => false

def message : Dilemma → Text
  | endless => "maximum recursion depth exceeded in comparison"
  | escaped _ text => text
  | incomparable new old =>
    if isMoment new && isMoment old then "can't compare offset-naive and offset-aware datetimes"
    else if isMoment new && isDate old || isDate new && isMoment old then
      "can't compare datetime.datetime to datetime.date"
    else
      "'>' not supported between instances of '" ++ new.kindName ++ "' and '" ++ old.kindName ++ "'"

end Dilemma

namespace Step

/-- Indexes by size, names by their own order. -/
def isAfter : Step → Step → Except Dilemma Bool
  | index i, index j => .ok (j < i)
  | name m, name n => (n.isLess m).mapError fun _ => .incomparable m n
  | _, _ => .ok false

def isSame : Step → Step → Bool
  | index i, index j => i == j
  | name m, name n => Value.sameName m n
  | _, _ => false

end Step

namespace Finding

/-- The order of places of the same length: the first different step decides. -/
def isAfterPlace : List Step → List Step → Except Dilemma Bool
  | a :: as, b :: bs => if a.isSame b then isAfterPlace as bs else a.isAfter b
  | _, _ => .ok false

/-- Whether a finding is reported rather than another one that was made before it. -/
def precedes (f g : Finding) : Except Dilemma Bool :=
  if f.place.length = g.place.length then isAfterPlace f.place g.place
  else .ok (f.place.length < g.place.length)

def isClear (f : Finding) : Bool :=
  match f.violation with
  | .unclear => false
  | _ => true

def better (best : Option Finding) (f : Finding) : Except Dilemma (Option Finding) := do
  if !f.isClear then throw .endless
  match best with
  | none => return some f
  | some g => return some (if ← f.precedes g then f else g)

/-- The finding to report. -/
def select? (findings : List Finding) : Except Dilemma (Option Finding) := findings.foldlM better none

/-- The place in words; the root has none. -/
def location (f : Finding) : Text := Text.join "/" (f.place.map Step.plain)

end Finding

end SemanticHighlight
