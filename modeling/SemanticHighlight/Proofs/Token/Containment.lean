import SemanticHighlight.Proofs.Token.Pieces

/-!
# Nested tokens

The captures of one pass are a family of ranges in which any two are nested or apart, however deep.
Each token of it keeps what the tokens strictly within it leave (`mem_containedIn`). That settles any
depth at once: what remains of two tokens never meets (`resolveContainment_apart`).
-/

namespace SemanticHighlight

namespace Token

variable {tokens : List Token} {t u : Token}

def Laminar (tokens : List Token) : Prop :=
  ∀ s ∈ tokens, ∀ t ∈ tokens, s.range.NestedOrApart t.range

instance (tokens : List Token) : Decidable (Laminar tokens) :=
  inferInstanceAs (Decidable (∀ s ∈ tokens, ∀ t ∈ tokens, s.range.NestedOrApart t.range))

theorem Laminar.subset {others : List Token} (h : Laminar tokens) (hsub : others ⊆ tokens) :
    Laminar others :=
  fun s hs t ht => h s (hsub hs) t (hsub ht)

/-! ## One token for each range -/

theorem mem_deduplicateAfter {seen : List Range} :
    t ∈ deduplicateAfter seen tokens ↔
      t.range ∉ seen ∧ tokens.find? (fun u => u.range = t.range) = some t := by
  induction tokens generalizing seen with
  | nil => simp [deduplicateAfter]
  | cons u rest ih =>
    rw [deduplicateAfter, List.find?_cons]
    by_cases hrange : u.range = t.range
    · simp only [hrange, decide_true, Option.some.injEq]
      split_ifs with hseen
      · simp [ih, hseen]
      · simp [ih, hseen, eq_comm]
    · simp only [hrange, decide_false]
      split_ifs with hseen
      · exact ih
      · have hne : t ≠ u := fun h => hrange (h ▸ rfl)
        simp [ih, hne, Ne.symm hrange]

theorem mem_deduplicate :
    t ∈ deduplicate tokens ↔ tokens.find? (fun u => u.range = t.range) = some t := by
  simp [deduplicate, mem_deduplicateAfter]

theorem deduplicate_subset (tokens : List Token) : deduplicate tokens ⊆ tokens :=
  fun _ h => List.mem_of_find?_eq_some (mem_deduplicate.mp h)

theorem exists_mem_deduplicate (h : t ∈ tokens) : ∃ u ∈ deduplicate tokens, u.range = t.range := by
  cases hfind : tokens.find? (fun u => u.range = t.range) with
  | none => simpa using List.find?_eq_none.mp hfind t h
  | some u =>
    have hrange : u.range = t.range := by simpa using List.find?_some hfind
    exact ⟨u, mem_deduplicate.mpr (by rwa [hrange]), hrange⟩

theorem deduplicateAfter_distinct (seen : List Range) (tokens : List Token) :
    (deduplicateAfter seen tokens).Pairwise fun t u => t.range ≠ u.range := by
  induction tokens generalizing seen with
  | nil => exact List.Pairwise.nil
  | cons t rest ih =>
    rw [deduplicateAfter]
    split_ifs
    · exact ih seen
    · refine List.pairwise_cons.mpr ⟨fun u hu => ?_, ih _⟩
      have hnew := (mem_deduplicateAfter.mp hu).1
      exact fun h => hnew (h ▸ List.mem_cons_self)

theorem deduplicate_distinct (tokens : List Token) :
    (deduplicate tokens).Pairwise fun t u => t.range ≠ u.range :=
  deduplicateAfter_distinct [] tokens

/-! ## What a token contains -/

theorem sort_perm (tokens : List Token) : (sort tokens).Perm tokens :=
  List.mergeSort_perm tokens _

theorem startsNotAfter_iff : startsNotAfter t u = true ↔ t.range.start ≤ u.range.start := by
  simp [startsNotAfter]

theorem startsNotAfter_trans (s t u : Token) (hst : startsNotAfter s t = true)
    (htu : startsNotAfter t u = true) : startsNotAfter s u = true := by
  rw [startsNotAfter_iff] at hst htu ⊢
  exact hst.trans htu

theorem startsNotAfter_total (s t : Token) : (startsNotAfter s t || startsNotAfter t s) = true := by
  rw [Bool.or_eq_true, startsNotAfter_iff, startsNotAfter_iff]
  exact le_total s.range.start t.range.start

theorem sort_ascending (tokens : List Token) :
    (sort tokens).Pairwise fun s t => s.range.start ≤ t.range.start := by
  have hsorted := List.pairwise_mergeSort startsNotAfter_trans startsNotAfter_total tokens
  exact hsorted.imp fun h => startsNotAfter_iff.mp h

theorem filter_contains_eq_nil {outer : Range}
    (h : ∀ t ∈ tokens, t.range.start < outer.start ∨ outer.stop < t.range.start) :
    (tokens.map Token.range).filter outer.contains = [] := by
  apply List.filter_eq_nil_iff.mpr
  intro r hr hcontains
  obtain ⟨t, ht, rfl⟩ := List.mem_map.mp hr
  obtain ⟨hstart, hstop⟩ := Range.covers_iff.mp (Range.contains_iff.mp hcontains).2
  rcases h t ht with hbefore | hafter
  · exact absurd hbefore (not_lt.mpr hstart)
  · exact absurd (hafter.trans_le t.range.ordered) (not_lt.mpr hstop)

/-- Looking only at the tokens that start inside `outer` misses none that lies within it. -/
theorem containedIn_eq_filter (h : tokens.Pairwise fun s t => s.range.start ≤ t.range.start)
    (outer : Range) :
    containedIn tokens.toArray outer = (tokens.map Token.range).filter outer.contains := by
  obtain ⟨before, rest, rfl, hbefore, hrest⟩ := Bisection.exists_append_of_pairwise
    (p := fun t : Token => decide (t.range.start < outer.start))
    (h.imp fun hle hlt => by simpa using hle.trans_lt (of_decide_eq_true hlt))
  obtain ⟨inside, after, rfl, hinside, hafter⟩ := Bisection.exists_append_of_pairwise
    (p := fun t : Token => decide (t.range.start ≤ outer.stop))
    ((List.pairwise_append.mp h).2.1.imp fun hle hlt => by
      simpa using hle.trans (of_decide_eq_true hlt))
  have hfirst : Bisection.boundary (fun t : Token => decide (t.range.start < outer.start))
      (before ++ (inside ++ after)).toArray = before.length :=
    Bisection.boundary_append hbefore hrest
  have hlast : Bisection.boundary (fun t : Token => decide (t.range.start ≤ outer.stop))
      (before ++ (inside ++ after)).toArray = (before ++ inside).length := by
    rw [← List.append_assoc]
    refine Bisection.boundary_append (fun t ht => ?_) hafter
    rcases List.mem_append.mp ht with ht | ht
    · have hlt := of_decide_eq_true (hbefore t ht)
      exact decide_eq_true (hlt.le.trans outer.ordered)
    · exact hinside t ht
  have hwindow : ((before ++ (inside ++ after)).toArray.extract before.length
      (before ++ inside).length).toList = inside := by
    simp
  have hnone : (before.map Token.range).filter outer.contains = [] :=
    filter_contains_eq_nil fun t ht => Or.inl (of_decide_eq_true (hbefore t ht))
  have hnone' : (after.map Token.range).filter outer.contains = [] :=
    filter_contains_eq_nil fun t ht => Or.inr (not_le.mp (of_decide_eq_false (hafter t ht)))
  rw [containedIn, hfirst, hlast, hwindow]
  simp only [List.map_append, List.filter_append, hnone, hnone', List.nil_append, List.append_nil]
  apply List.filter_congr
  intro r hr
  obtain ⟨t, ht, rfl⟩ := List.mem_map.mp hr
  have hstart : outer.start ≤ t.range.start :=
    not_lt.mp (of_decide_eq_false (hrest t (List.mem_append_left _ ht)))
  rw [Bool.eq_iff_iff, Range.contains_iff, Range.covers_iff]
  simp [hstart, and_comm, ne_comm]

theorem mem_containedIn {outer r : Range} :
    r ∈ containedIn (sort tokens).toArray outer ↔
      (∃ t ∈ tokens, t.range = r) ∧ outer.contains r := by
  rw [containedIn_eq_filter (sort_ascending tokens), List.mem_filter, List.mem_map]
  simp only [(sort_perm tokens).mem_iff]

theorem containedIn_ascending (tokens : List Token) (outer : Range) :
    (containedIn (sort tokens).toArray outer).Pairwise fun r s => r.start ≤ s.start := by
  have hsorted : ((sort tokens).map Token.range).Pairwise fun r s => r.start ≤ s.start :=
    List.pairwise_map.mpr (sort_ascending tokens)
  rw [containedIn_eq_filter (sort_ascending tokens)]
  exact hsorted.filter _

/-! ## What is left -/

/-- What is left of a token among others. -/
def remains (tokens : List Token) (t : Token) : List Token :=
  t.without (containedIn (sort tokens).toArray t.range)

theorem resolveContainment_eq (tokens : List Token) :
    resolveContainment tokens = tokens.flatMap (remains tokens) := rfl

theorem pieces_remains (tokens : List Token) (t : Token) : Pieces t (remains tokens t) :=
  pieces_without fun _ hr => (Range.contains_iff.mp (mem_containedIn.mp hr).2).2

theorem resolveContainment_singleton (t : Token) : resolveContainment [t] = [t] := by
  have hempty : containedIn (sort [t]).toArray t.range = [] := by
    apply List.eq_nil_iff_forall_not_mem.mpr
    intro r hr
    obtain ⟨⟨u, hu, rfl⟩, hcontains⟩ := mem_containedIn.mp hr
    rw [List.mem_singleton.mp hu] at hcontains
    exact (Range.contains_iff.mp hcontains).1 rfl
  simp [resolveContainment, hempty, without]

/-- What is left of a token lies apart from all that the token strictly contains. -/
theorem remains_apart (hu : u ∈ tokens) (hne : t.range ≠ u.range) (hcovers : t.range.covers u.range)
    {v : Token} (hv : v ∈ remains tokens t) : v.range.Apart u.range :=
  apart_of_mem_without (containedIn_ascending tokens t.range) hv u.range
    (mem_containedIn.mpr ⟨⟨u, hu, rfl⟩, Range.contains_iff.mpr ⟨hne, hcovers⟩⟩)

/-- A position that a token loses is covered by a token strictly within it. -/
theorem covers_remains_or_contained (tokens : List Token) {p : Position} (hcovers : t.Covers p) :
    (∃ u ∈ remains tokens t, u.Covers p) ∨
      ∃ s ∈ tokens, t.range.contains s.range ∧ s.Covers p := by
  by_cases hlost : ∃ r ∈ containedIn (sort tokens).toArray t.range, r.Holds p
  · obtain ⟨r, hr, hholds⟩ := hlost
    obtain ⟨⟨s, hs, rfl⟩, hcontains⟩ := mem_containedIn.mp hr
    exact Or.inr ⟨s, hs, hcontains, hholds⟩
  · have hfree : ∀ r ∈ containedIn (sort tokens).toArray t.range, ¬ r.Holds p :=
      fun r hr hholds => hlost ⟨r, hr, hholds⟩
    exact Or.inl (exists_covers_without (containedIn_ascending tokens t.range) hcovers hfree)

/-- Whatever remains begins and ends where some token does. -/
theorem resolveContainment_ends {P : Position → Prop}
    (h : ∀ t ∈ tokens, P t.range.start ∧ P t.range.stop) :
    ∀ u ∈ resolveContainment tokens, P u.range.start ∧ P u.range.stop := by
  intro u hu
  obtain ⟨t, ht, hu⟩ := List.mem_flatMap.mp hu
  refine ends_of_mem_without (h t ht) (fun r hr => ?_) hu
  obtain ⟨⟨s, hs, rfl⟩, -⟩ := mem_containedIn.mp hr
  exact h s hs

/-- One look at what each token contains settles any depth of nesting. -/
theorem resolveContainment_apart (h : Laminar tokens)
    (hdistinct : tokens.Pairwise fun t u => t.range ≠ u.range) :
    (resolveContainment tokens).Pairwise Apart := by
  rw [resolveContainment_eq]
  refine List.pairwise_flatMap.mpr ⟨fun t _ => (pieces_remains tokens t).apart, ?_⟩
  apply hdistinct.imp_of_mem
  intro t u ht hu hne v hv w hw
  have hv' := (pieces_remains tokens t).within v hv
  have hw' := (pieces_remains tokens u).within w hw
  -- Of two nested tokens the outer one was cut around the whole inner one, and so around its pieces.
  rcases h t ht u hu with hcovers | hcovers | hapart
  · exact (remains_apart hu hne hcovers hv).of_covers (Range.covers_refl _) hw'
  · exact ((remains_apart ht hne.symm hcovers hw).of_covers (Range.covers_refl _) hv').symm
  · exact hapart.of_covers hv' hw'

end Token
end SemanticHighlight
