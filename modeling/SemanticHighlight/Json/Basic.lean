import SemanticHighlight.Number.Binary64
import SemanticHighlight.Text.Basic

/-!
# JSON values

Whole numbers have any size; every other number is a floating point number. The members of an
object keep the order in which their names first appeared, and each name stands for the value given
last.
-/

namespace SemanticHighlight

inductive Json where
  | null
  | bool (b : Bool)
  | int (i : Int)
  | real (x : Binary64)
  | text (t : Text)
  | list (items : List Json)
  | object (members : List (Text × Json))
  deriving Repr, Inhabited

namespace Json

instance : Coe Text Json := ⟨Json.text⟩
instance : Coe Int Json := ⟨Json.int⟩
instance : Coe Bool Json := ⟨Json.bool⟩

def nat (n : Nat) : Json := .int n

def texts (ts : List Text) : Json := .list (ts.map .text)

def ofOption (f : α → Json) : Option α → Json
  | none => .null
  | some a => f a

/-- Sets the value of a name, in its place if it is known and at the end if not. -/
def insert (members : List (Text × α)) (name : Text) (value : α) : List (Text × α) :=
  if members.any fun m => m.1 = name then
    members.map fun m => if m.1 = name then (name, value) else m
  else members ++ [(name, value)]

def members : Json → List (Text × Json)
  | object ms => ms
  | _ => []

def items : Json → List Json
  | list xs => xs
  | _ => []

def field? (j : Json) (name : Text) : Option Json := j.members.lookup name

def text? : Json → Option Text
  | text t => some t
  | _ => none

def int? : Json → Option Int
  | int i => some i
  | _ => none

def bool? : Json → Option Bool
  | bool b => some b
  | _ => none

def isNull : Json → Bool
  | null => true
  | _ => false

mutual

def sortMembers : Json → Json
  | list xs => list (sortItems xs)
  | object ms => object ((sortEach ms).mergeSort fun a b => Text.le a.1 b.1)
  | j => j

def sortItems : List Json → List Json
  | [] => []
  | x :: xs => sortMembers x :: sortItems xs

def sortEach : List (Text × Json) → List (Text × Json)
  | [] => []
  | (name, value) :: ms => (name, sortMembers value) :: sortEach ms

end

end Json

end SemanticHighlight
