import SemanticHighlight.Text.Basic

/-!
# Positions

A position is a line and a column, both counted from zero, the column in UTF-16 units. Positions
are ordered line by line. `translate` moves a position of an embedded text into the document around
it; it keeps the order (`translate_le_translate`), which is why ranges can be moved without being
checked again.
-/

namespace SemanticHighlight

structure Position where
  line : Int
  column : Int
  deriving DecidableEq, Repr

namespace Position

protected def le (p q : Position) : Prop :=
  p.line < q.line ∨ (p.line = q.line ∧ p.column ≤ q.column)

protected def lt (p q : Position) : Prop :=
  p.line < q.line ∨ (p.line = q.line ∧ p.column < q.column)

instance : LE Position := ⟨Position.le⟩
instance : LT Position := ⟨Position.lt⟩

theorem le_def {p q : Position} :
    p ≤ q ↔ p.line < q.line ∨ (p.line = q.line ∧ p.column ≤ q.column) := Iff.rfl

theorem lt_def {p q : Position} :
    p < q ↔ p.line < q.line ∨ (p.line = q.line ∧ p.column < q.column) := Iff.rfl

instance (p q : Position) : Decidable (p ≤ q) := decidable_of_iff' _ le_def
instance (p q : Position) : Decidable (p < q) := decidable_of_iff' _ lt_def

instance : Min Position := minOfLe
instance : Max Position := maxOfLe

theorem min_def (p q : Position) : min p q = if p ≤ q then p else q := rfl
theorem max_def (p q : Position) : max p q = if p ≤ q then q else p := rfl

theorem le_refl (p : Position) : p ≤ p := Or.inr ⟨rfl, Int.le_refl _⟩

theorem le_trans {p q r : Position} (hpq : p ≤ q) (hqr : q ≤ r) : p ≤ r := by
  rw [le_def] at hpq hqr ⊢
  omega

theorem le_of_lt {p q : Position} (h : p < q) : p ≤ q := by
  rw [le_def]
  rw [lt_def] at h
  omega

theorem le_total (p q : Position) : p ≤ q ∨ q ≤ p := by
  rw [le_def, le_def]
  omega

theorem le_antisymm {p q : Position} (hpq : p ≤ q) (hqp : q ≤ p) : p = q := by
  rw [le_def] at hpq hqp
  cases p
  cases q
  simp only [mk.injEq]
  simp only at hpq hqp
  omega

theorem le_min {p q r : Position} (hq : p ≤ q) (hr : p ≤ r) : p ≤ min q r := by
  rw [min_def]
  split <;> assumption

theorem max_le {p q r : Position} (hp : p ≤ r) (hq : q ≤ r) : max p q ≤ r := by
  rw [max_def]
  split <;> assumption

/-- Only the first line of an embedded text shares a line with its origin, so only there are columns
shifted. -/
def translate (p origin : Position) : Position :=
  if p.line = 0 then ⟨origin.line, origin.column + p.column⟩
  else ⟨origin.line + p.line, p.column⟩

theorem translate_le_translate (origin : Position) {p q : Position} (h : p ≤ q) :
    p.translate origin ≤ q.translate origin := by
  rw [le_def] at h ⊢
  unfold translate
  split <;> split <;> simp only [true_and] <;> omega

def message (p : Position) : Text := Text.ofInt p.line ++ ":" ++ Text.ofInt p.column

instance : ToText Position := ⟨message⟩

end Position

end SemanticHighlight
