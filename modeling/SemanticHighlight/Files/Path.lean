import SemanticHighlight.Text.Utf8

/-!
# Paths

A path is normalised when it is read: repeated slashes, `.` parts and a slash at the end vanish, and
`..` stays, since it may lead through a link. Two slashes at the beginning are a root of their own;
more are one slash.
-/

namespace SemanticHighlight

inductive Anchor where
  | here
  | root
  | doubleRoot
  deriving DecidableEq, Repr

structure Path where
  anchor : Anchor
  parts : List Text
  deriving DecidableEq, Repr

/-- Why a text cannot even be handed over as a name. -/
inductive NameProblem where
  /-- It holds the character that ends all names. -/
  | zero
  | unencodable (e : Unencodable)
  deriving DecidableEq, Repr

namespace NameProblem

def message : NameProblem → Text
  | zero => "embedded null byte"
  | unencodable e => e.message

/-- Whether a surrogate stands for a single byte. -/
def isByteMark (c : CodePoint) : Bool := 0xDC80 ≤ c.val && c.val ≤ 0xDCFF

def length : Text → Nat
  | [] => 0
  | c :: rest => (if isByteMark c then 1 else Text.utf8Width c) + length rest

def maxLength : Nat := 255

def maxPathLength : Nat := 4095

/-- What remains of a stretch of surrogates when those that stand for bytes are taken off its
beginning. -/
def remainder (e : Unencodable) : Option Unencodable :=
  let rest := e.stretch.dropWhile isByteMark
  if rest = [] then none else some ⟨e.position + e.stretch.length - rest.length, rest⟩

/-- What is wrong with a text as a name. -/
def ofText? (t : Text) : Option NameProblem :=
  match (t.stretches CodePoint.isSurrogate).findSome? remainder with
  | some e => some (unencodable e)
  | none => if t.any fun c => c.val = 0 then some zero else none

end NameProblem

/-- A home directory was asked for and is not known. -/
inductive UnknownHome where
  | noAccount (name : Text)
  | noName (problem : NameProblem)
  deriving DecidableEq, Repr

namespace UnknownHome

def message : UnknownHome → Text
  | noAccount _ => "Could not determine home directory."
  | noName problem => problem.message

end UnknownHome

/-- The home directories that `~` and `~name` stand for. -/
structure Homes where
  own : Text
  accounts : List (Text × Text)
  deriving Repr

/-- The home directory of an account, or one's own if none is named. -/
def Homes.find (homes : Homes) (account : Text) : Except UnknownHome Text :=
  if account = [] then .ok homes.own
  else
    match NameProblem.ofText? account with
    | some problem => .error (.noName problem)
    | none =>
      match homes.accounts.lookup account with
      | some home => .ok home
      | none => .error (.noAccount account)

namespace Path

def slash : CodePoint := '/'

/-- The number of slashes at the beginning decides where a path starts. -/
def anchorOf (t : Text) : Anchor :=
  match (t.takeWhile (· == slash)).length with
  | 0 => .here
  | 2 => .doubleRoot
  | _ => .root

def ofText (t : Text) : Path :=
  ⟨anchorOf t, (t.splitOn slash).filter fun part => part ≠ [] ∧ part ≠ "."⟩

def anchorText : Anchor → Text
  | .here => ""
  | .root => "/"
  | .doubleRoot => "//"

/-- The path in its normal form; a path without parts is `.` or its root. -/
def toText (p : Path) : Text :=
  if p.anchor = .here ∧ p.parts = [] then "." else anchorText p.anchor ++ Text.join "/" p.parts

instance : ToText Path := ⟨toText⟩

def isAbsolute (p : Path) : Bool := p.anchor != .here

/-- A path as seen from a directory: an absolute one is itself. -/
def under (p base : Path) : Path :=
  if p.isAbsolute then p else ⟨base.anchor, base.parts ++ p.parts⟩

def name (p : Path) : Text := p.parts.getLastD []

def parent (p : Path) : Path := { p with parts := p.parts.dropLast }

/-- The last part from its last point on, if the point is neither the first nor the last character
of it. -/
def suffix (p : Path) : Text :=
  let name := p.name
  let tail : Text := name.reverse.takeWhile (· != ('.' : CodePoint))
  if tail.length + 1 < name.length ∧ tail ≠ [] then "." ++ tail.reverse else ""

/-- A leading `~` or `~name` replaced by the home directory it stands for. -/
def expandHome (homes : Homes) (p : Path) : Except UnknownHome Path :=
  match p.anchor, p.parts with
  | .here, first :: rest =>
    match Text.after? "~" first with
    | none => .ok p
    | some account => do
      let home ← homes.find account
      return ⟨(ofText home).anchor, (ofText home).parts ++ rest⟩
  | _, _ => .ok p

/-- Every `..` taken together with the part before it; above the root there is nothing. -/
def collapse (parts : List Text) : List Text :=
  parts.foldl (fun (done : List Text) (part : Text) => if part = ".." then done.dropLast else done ++ [part]) []

/-- An absolute path without `..`, seen from a working directory. The two roots are one place. -/
def resolve (p working : Path) : Path := ⟨.root, collapse (p.under working).parts⟩

end Path

end SemanticHighlight
