import SemanticHighlight.Proofs.Token.OneLine

/-!
# Containment without bisection

What a token keeps can be said without bounds and sorted starts: compare it with every token of the
list, sort those strictly within it and walk over them. This plain definition gives the same list as
the one that looks candidates up by bisection (`resolveContainment_eq_plainly`), also where tokens
share a start, a stop or their whole range. Two facts make it so. Choosing tokens before they are
sorted is the same as choosing them afterwards, because a stable sort is determined by the order of
the tokens with each start (`sort_filter`). And the gaps are what a walk emits on its way
(`finish_foldl_pass`).
-/

namespace SemanticHighlight

namespace Token

variable {ts us : List Token} {t u : Token}

/-! ## Stable sorting -/

/-- The tokens that start at one position, in their order. -/
def startingAt (p : Position) (tokens : List Token) : List Token :=
  tokens.filter fun t => decide (t.range.start = p)

theorem mem_startingAt {p : Position} : t ∈ startingAt p ts ↔ t ∈ ts ∧ t.range.start = p := by
  simp [startingAt]

theorem startingAt_cons (p : Position) (t : Token) (ts : List Token) :
    startingAt p (t :: ts) =
      if t.range.start = p then t :: startingAt p ts else startingAt p ts := by
  simp [startingAt, List.filter_cons]

theorem startingAt_sort (p : Position) (tokens : List Token) :
    startingAt p (sort tokens) = startingAt p tokens :=
  sort_filter_start tokens p

theorem startingAt_filter (p : Position) (q : Token → Bool) (tokens : List Token) :
    startingAt p (tokens.filter q) = (startingAt p tokens).filter q := by
  simp only [startingAt, List.filter_filter, Bool.and_comm]

theorem subset_of_startingAt (h : ∀ p, startingAt p ts = startingAt p us) : ts ⊆ us := by
  intro t ht
  have hmem : t ∈ startingAt t.range.start us := h t.range.start ▸ mem_startingAt.mpr ⟨ht, rfl⟩
  exact (mem_startingAt.mp hmem).1

theorem start_le_of_mem_cons (h : (u :: us).Pairwise fun s t => s.range.start ≤ t.range.start)
    (ht : t ∈ u :: us) : u.range.start ≤ t.range.start := by
  rcases List.mem_cons.mp ht with rfl | ht
  · exact le_rfl
  · exact List.rel_of_pairwise_cons h ht

/-- Two lists in ascending order are equal if they agree on the tokens of each start. -/
theorem eq_of_ascending (hts : ts.Pairwise fun s t => s.range.start ≤ t.range.start)
    (hus : us.Pairwise fun s t => s.range.start ≤ t.range.start)
    (hsame : ∀ p, startingAt p ts = startingAt p us) : ts = us := by
  induction ts generalizing us with
  | nil => exact (List.subset_nil.mp (subset_of_startingAt fun p => (hsame p).symm)).symm
  | cons t ts ih =>
    cases us with
    | nil => exact List.subset_nil.mp (subset_of_startingAt hsame)
    | cons u us =>
      have ht : t ∈ u :: us := subset_of_startingAt hsame List.mem_cons_self
      have hu : u ∈ t :: ts := subset_of_startingAt (fun p => (hsame p).symm) List.mem_cons_self
      -- Each head starts first in its list, so both start alike and come first among such tokens.
      have hstart : t.range.start = u.range.start :=
        le_antisymm (start_le_of_mem_cons hts hu) (start_le_of_mem_cons hus ht)
      have hhead : t = u := by
        have hfirst := hsame u.range.start
        simp only [startingAt_cons, hstart, if_true, List.cons.injEq] at hfirst
        exact hfirst.1
      have hrest : ∀ p, startingAt p ts = startingAt p us := by
        intro p
        have hboth := hsame p
        rw [hhead, startingAt_cons, startingAt_cons] at hboth
        split_ifs at hboth
        · exact (List.cons.inj hboth).2
        · exact hboth
      rw [hhead, ih hts.tail hus.tail hrest, List.tail_cons]

theorem sort_filter (tokens : List Token) (q : Token → Bool) :
    sort (tokens.filter q) = (sort tokens).filter q := by
  refine eq_of_ascending (sort_ascending _) ((sort_ascending tokens).filter q) fun p => ?_
  rw [startingAt_sort, startingAt_filter, startingAt_filter, startingAt_sort]

/-! ## Walking over what a token contains -/

/-- The part of a token between two positions, if there is one. -/
def stretch (t : Token) (start stop : Position) : List Token :=
  if h : start < stop then [t.withRange ⟨start, stop, Position.le_of_lt h⟩] else []

/-- A walk over tokens within a token: how far it has come and what it has emitted. -/
structure Walk where
  current : Position
  emitted : List Token

namespace Walk

/-- Emits what lies before the next token inside and goes on behind that one, never back. -/
def pass (outer : Token) (w : Walk) (inner : Token) : Walk where
  current := max w.current inner.range.stop
  emitted := w.emitted ++ outer.stretch w.current inner.range.start

def finish (outer : Token) (w : Walk) : List Token :=
  w.emitted ++ outer.stretch w.current outer.range.stop

end Walk

/-- What is left of a token around the tokens strictly within it, each token of the list compared
with it in turn. -/
def remainsPlainly (tokens : List Token) (t : Token) : List Token :=
  let inner := sort (tokens.filter fun u => t.range.contains u.range)
  if inner = [] then [t]
  else (inner.foldl (Walk.pass t) ⟨t.range.start, []⟩).finish t

/-- Replaces every token that strictly contains others by what they leave of it. -/
def resolvePlainly (tokens : List Token) : List Token := tokens.flatMap (remainsPlainly tokens)

theorem map_gaps_nil (t : Token) (current stop : Position) :
    (gaps current stop []).map t.withRange = t.stretch current stop := by
  unfold gaps stretch
  split_ifs <;> rfl

theorem map_gaps_cons (t : Token) (current stop : Position) (r : Range) (rest : List Range) :
    (gaps current stop (r :: rest)).map t.withRange =
      t.stretch current r.start ++ (gaps (max current r.stop) stop rest).map t.withRange := by
  rw [gaps, stretch]
  split_ifs <;> rfl

theorem finish_foldl_pass (t : Token) (w : Walk) (inner : List Token) :
    (inner.foldl (Walk.pass t) w).finish t =
      w.emitted ++ (gaps w.current t.range.stop (inner.map Token.range)).map t.withRange := by
  induction inner generalizing w with
  | nil => rw [List.map_nil, map_gaps_nil, List.foldl_nil, Walk.finish]
  | cons u rest ih =>
    rw [List.foldl_cons, ih, List.map_cons, map_gaps_cons, Walk.pass, List.append_assoc]

/-- Bisection finds what a comparison with every token finds, in the order of a stable sort. -/
theorem containedIn_eq_sort (tokens : List Token) (outer : Range) :
    containedIn (sort tokens).toArray outer =
      (sort (tokens.filter fun u => outer.contains u.range)).map Token.range := by
  rw [containedIn_eq_filter (sort_ascending tokens), sort_filter, List.filter_map]
  rfl

theorem remains_eq_plainly (tokens : List Token) (t : Token) :
    remains tokens t = remainsPlainly tokens t := by
  rw [remains, containedIn_eq_sort, without, remainsPlainly, finish_foldl_pass]
  simp only [List.map_eq_nil_iff, List.nil_append]

/-- With or without duplicates, and in whatever order: looking up by bisection what each token
contains gives the same list as comparing it with every token. -/
theorem resolveContainment_eq_plainly (tokens : List Token) :
    resolveContainment tokens = resolvePlainly tokens := by
  rw [resolveContainment_eq, resolvePlainly]
  exact congrArg tokens.flatMap (funext (remains_eq_plainly tokens))

end Token
end SemanticHighlight
