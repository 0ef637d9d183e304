import SemanticHighlight.Text.Basic

/-!
# Similar texts

The longest stretch that two texts share splits both of them, and the parts on either side are
compared in the same way. Two texts are alike if the stretches found make up enough of them.
-/

namespace SemanticHighlight.Text

def sharedStart : Text → Text → Nat
  | c :: s, d :: t => if c = d then sharedStart s t + 1 else 0
  | _, _ => 0

/-- A stretch that two texts share, by where it starts in either. -/
structure Stretch where
  first : Nat
  second : Nat
  length : Nat
  deriving DecidableEq, Repr

/-- The longest shared stretch; of several, the one that starts first in `s`, then in `t`. -/
def longestStretch (s t : Text) : Stretch :=
  let starts := (List.range s.length).flatMap fun i => (List.range t.length).map fun j => (i, j)
  starts.foldl (fun best (i, j) =>
    let length := sharedStart (s.drop i) (t.drop j)
    if best.length < length then ⟨i, j, length⟩ else best) ⟨0, 0, 0⟩

/-- How many characters the stretches have that two texts share in the same order. -/
def sharedLength (s t : Text) : Nat :=
  let ⟨i, j, length⟩ := longestStretch s t
  if _h : 0 < length ∧ i < s.length then
    sharedLength (s.take i) (t.take j) + length +
      sharedLength (s.drop (i + length)) (t.drop (j + length))
  else 0
termination_by s.length
decreasing_by
  · simp only [List.length_take]; omega
  · simp only [List.length_drop]; omega

/-- Whether the shared stretches make up three fifths of two texts or more. -/
def isSimilar (s t : Text) : Bool := 10 * sharedLength s t ≥ 3 * (s.length + t.length)

/-- Whether `a` is more like `t` than `b` is; of two that are alike, the greater one. -/
def isCloser (t a b : Text) : Bool :=
  let left := sharedLength a t * (b.length + t.length)
  let right := sharedLength b t * (a.length + t.length)
  right < left || (left == right && le b a)

/-- The texts that are most like `t`, three at most, in ascending order. -/
def similar (t : Text) (others : List Text) : List Text :=
  sort (((others.filter fun o => isSimilar o t).mergeSort (isCloser t)).take 3)

end SemanticHighlight.Text
