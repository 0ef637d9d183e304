import SemanticHighlight.Proofs.Token.Apart

/-!
# Tokens on one line

Cutting at the ends of lines is the only step that makes single-line tokens (`normalize_singleLine`).
All later ones keep them on their line: moving shifts both ends of a line alike, and clipping leaves
parts of what was there (`merge_singleLine`). Sorting puts tokens in ascending order and leaves those
with one start in the order in which they came (`sort_filter_start`).
-/

namespace SemanticHighlight

namespace Range

variable {r s : Range}

theorem isSingleLine_iff : r.isSingleLine = true ↔ r.start.line = r.stop.line := by
  simp [isSingleLine]

/-- Within one line there is no way to another. -/
theorem isSingleLine_of_covers (h : r.covers s = true) (hr : r.isSingleLine = true) :
    s.isSingleLine = true := by
  rw [isSingleLine_iff] at hr ⊢
  obtain ⟨hstart, hstop⟩ := covers_iff.mp h
  have hfirst := Position.le_def.mp hstart
  have hmiddle := Position.le_def.mp s.ordered
  have hlast := Position.le_def.mp hstop
  omega

theorem isSingleLine_translate (o : Position) (h : r.isSingleLine = true) :
    (r.translate o).isSingleLine = true := by
  rw [isSingleLine_iff] at h ⊢
  unfold translate Position.translate
  dsimp only
  rw [← h]
  split_ifs
  · rfl
  · rfl

end Range

namespace Token

variable {t : Token} {tokens out : List Token} {injections : List Injection}

def SingleLine (tokens : List Token) : Prop := ∀ t ∈ tokens, t.range.isSingleLine = true

instance (tokens : List Token) : Decidable (SingleLine tokens) :=
  inferInstanceAs (Decidable (∀ t ∈ tokens, t.range.isSingleLine = true))

/-! ## Cutting, moving and merging -/

theorem split_singleLine (h : t.split = .ok out) : SingleLine out := by
  rcases split_eq_ok h with ⟨hline, rfl⟩ | ⟨-, head, tail, hhead, hhead', htail, htail', rfl⟩
  · intro u hu
    rw [List.mem_singleton.mp hu]
    exact Range.isSingleLine_iff.mpr hline
  · intro u hu
    obtain ⟨r, hr, rfl⟩ := List.mem_map.mp hu
    apply Range.isSingleLine_iff.mpr
    simp only [List.cons_append, List.mem_cons, List.mem_append, List.mem_map, List.mem_nil_iff,
      or_false] at hr
    rcases hr with rfl | ⟨line, -, rfl⟩ | rfl
    · rw [withRange, hhead, hhead']
    · rfl
    · rw [withRange, htail, htail']

theorem fragments_singleLine (t : Token) : SingleLine (fragments t) := by
  unfold fragments
  cases h : t.split with
  | error e => exact fun u hu => absurd hu List.not_mem_nil
  | ok cut => exact split_singleLine h

theorem normalize_singleLine (h : normalize tokens = .ok out) : SingleLine out := by
  rw [normalize_eq_ok h]
  intro u hu
  obtain ⟨t, -, hu⟩ := List.mem_flatMap.mp hu
  exact fragments_singleLine t u hu

theorem SingleLine.translate (h : SingleLine tokens) (o : Position) :
    SingleLine (tokens.map fun t => t.translate o) := by
  intro u hu
  obtain ⟨t, ht, rfl⟩ := List.mem_map.mp hu
  exact Range.isSingleLine_translate o (h t ht)

/-- Whatever the regions are, and however they overlap: what is left of a token lies within it. -/
theorem merge_singleLine (htokens : SingleLine tokens)
    (hinjections : ∀ i ∈ injections, SingleLine i.tokens) : SingleLine (merge tokens injections) := by
  intro u hu
  rcases List.mem_append.mp hu with hu | hu
  · obtain ⟨t, ht, hcovers⟩ := clipAll_within u hu
    exact Range.isSingleLine_of_covers hcovers (htokens t ht)
  · obtain ⟨i, hi, hu⟩ := List.mem_flatMap.mp hu
    exact hinjections i hi u hu

/-! ## Sorting -/

/-- Tokens with one start keep their order. -/
theorem sort_filter_start (tokens : List Token) (p : Position) :
    (sort tokens).filter (fun t => decide (t.range.start = p)) =
      tokens.filter fun t => decide (t.range.start = p) := by
  let same : Token → Bool := fun t => decide (t.range.start = p)
  have hequal : (tokens.filter same).Pairwise fun s t => startsNotAfter s t = true := by
    refine List.pairwise_of_forall_mem_list fun s hs t ht => ?_
    have hs' := of_decide_eq_true (List.mem_filter.mp hs).2
    have ht' := of_decide_eq_true (List.mem_filter.mp ht).2
    exact startsNotAfter_iff.mpr (hs'.trans ht'.symm).le
  -- The tokens with this start are in order already, so the stable sort leaves them as they are.
  have hsub : List.Sublist (tokens.filter same) (sort tokens) :=
    List.sublist_mergeSort startsNotAfter_trans startsNotAfter_total hequal List.filter_sublist
  have hsub' : List.Sublist (tokens.filter same) ((sort tokens).filter same) := by
    have hself : (tokens.filter same).filter same = tokens.filter same := by simp
    rw [← hself]
    exact hsub.filter same
  have hlength : (tokens.filter same).length = ((sort tokens).filter same).length :=
    ((sort_perm tokens).filter same).length_eq.symm
  exact (hsub'.eq_of_length hlength).symm

end Token

end SemanticHighlight
