import SemanticHighlight.Text.Basic

/-!
# Splitting and joining

Splitting a text at a separator undoes joining texts that do not hold it (`splitOn_join`), as joining
undoes splitting.
-/

namespace SemanticHighlight.Text

variable {separator : CodePoint}

theorem separator_not_mem_of_mem_splitOn (separator : CodePoint) (t : Text) :
    ∀ part ∈ splitOn separator t, separator ∉ part := by
  induction t with
  | nil => simp [splitOn]
  | cons c rest ih =>
    rw [splitOn]
    split
    · simpa using ih
    · next hc =>
      obtain ⟨first, others, h⟩ := List.exists_cons_of_ne_nil (splitOn_ne_nil separator rest)
      rw [h] at ih ⊢
      simpa [Ne.symm hc] using ih

theorem splitOn_of_not_mem {t : Text} (h : separator ∉ t) : splitOn separator t = [t] := by
  induction t with
  | nil => rfl
  | cons c rest ih =>
    obtain ⟨hc, hrest⟩ : separator ≠ c ∧ separator ∉ rest := by simpa using h
    rw [splitOn, if_neg (Ne.symm hc), ih hrest]

theorem splitOn_append_separator {part : Text} (h : separator ∉ part) (t : Text) :
    splitOn separator (part ++ separator :: t) = part :: splitOn separator t := by
  induction part with
  | nil => simp [splitOn]
  | cons c rest ih =>
    obtain ⟨hc, hrest⟩ : separator ≠ c ∧ separator ∉ rest := by simpa using h
    rw [List.cons_append, splitOn, if_neg (Ne.symm hc), ih hrest]

theorem join_cons_cons (separator : CodePoint) (first second : Text) (rest : List Text) :
    join [separator] (first :: second :: rest) =
      first ++ separator :: join [separator] (second :: rest) := by
  simp [join, List.intercalate, List.intersperse]

theorem splitOn_join {parts : List Text} (hne : parts ≠ []) (h : ∀ part ∈ parts, separator ∉ part) :
    splitOn separator (join [separator] parts) = parts := by
  induction parts with
  | nil => exact absurd rfl hne
  | cons first rest ih =>
    have hfirst : separator ∉ first := h first List.mem_cons_self
    cases rest with
    | nil =>
      have hjoin : join [separator] [first] = first := by simp [join, List.intercalate]
      rw [hjoin, splitOn_of_not_mem hfirst]
    | cons second rest =>
      have hrest : ∀ part ∈ second :: rest, separator ∉ part :=
        fun part hpart => h part (List.mem_cons_of_mem _ hpart)
      rw [join_cons_cons, splitOn_append_separator hfirst, ih (List.cons_ne_nil _ _) hrest]

end SemanticHighlight.Text
