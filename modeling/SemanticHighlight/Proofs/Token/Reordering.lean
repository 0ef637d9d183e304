import Mathlib.Order.MinMax
import SemanticHighlight.Proofs.Token.Lookup
import SemanticHighlight.Proofs.Token.Survivors

/-!
# In any order

Neither of the two passes that cut tokens around ranges cares in which order it hears of them. What
regions leave of a token does not depend on the order in which they were found (`merge_of_perm`):
around two regions the same stretches are left, whichever is cut away first (`clip_comm`). What
captures leave of each other does not depend on the order in which they were reported
(`normalize_of_perm`): a token passes what lies within it in order of the starts, and of two ranges
with one start the second never opens a gap (`map_gaps_swap`).
-/

namespace SemanticHighlight

namespace Token

variable {tokens others : List Token} {t : Token}

theorem stretch_eq_nil {start stop : Position} (h : stop ≤ start) : t.stretch start stop = [] :=
  dif_neg (not_lt.mpr h)

/-! ## Regions in any order -/

variable {region next : Range}

theorem clip_of_empty (h : t.range.start = t.range.stop) (region : Range) :
    t.clip region = if region.covers t.range then [] else [t] := by
  unfold clip
  split_ifs with hcovers hmeets
  · rfl
  · rfl
  · rw [Bool.not_eq_true', Bool.not_eq_false, Range.intersects_iff] at hmeets
    exact absurd (Range.covers_iff.mpr ⟨h ▸ hmeets.2.le, h ▸ hmeets.1.le⟩) hcovers

theorem map_before (h : t.range.start < t.range.stop) (region : Range) :
    (t.range.before region).toList.map t.withRange =
      t.stretch t.range.start (min t.range.stop region.start) := by
  unfold Range.before stretch
  by_cases hlt : t.range.start < region.start
  · rw [dif_pos hlt, dif_pos (lt_min h hlt)]
    rfl
  · rw [dif_neg hlt, dif_neg fun hmin => hlt (hmin.trans_le (min_le_right _ _))]
    rfl

theorem map_after (h : t.range.start < t.range.stop) (region : Range) :
    (t.range.after region).toList.map t.withRange =
      t.stretch (max t.range.start region.stop) t.range.stop := by
  unfold Range.after stretch
  by_cases hlt : region.stop < t.range.stop
  · rw [dif_pos hlt, dif_pos (max_lt h hlt)]
    rfl
  · rw [dif_neg hlt, dif_neg fun hmax => hlt ((le_max_right _ _).trans_lt hmax)]
    rfl

/-- What is not empty keeps a stretch on either side of a region, and one of the two is the whole of
it where the region lies apart. -/
theorem clip_of_not_empty (h : t.range.start < t.range.stop) (region : Range) :
    t.clip region = t.stretch t.range.start (min t.range.stop region.start) ++
      t.stretch (max t.range.start region.stop) t.range.stop := by
  unfold clip
  split_ifs with hcovers hmeets
  · obtain ⟨hstart, hstop⟩ := Range.covers_iff.mp hcovers
    rw [stretch_eq_nil ((min_le_right _ _).trans hstart),
      stretch_eq_nil (hstop.trans (le_max_right _ _)), List.append_nil]
  · have hwhole : t.stretch t.range.start t.range.stop = [t] := dif_pos h
    rw [Bool.not_eq_true', ← Bool.not_eq_true] at hmeets
    rcases Range.apart_iff.mp hmeets with hle | hle
    · rw [stretch_eq_nil ((min_le_right _ _).trans (region.ordered.trans hle)), max_eq_left hle,
        hwhole, List.nil_append]
    · have hnone : t.stretch (max t.range.start region.stop) t.range.stop = [] :=
        stretch_eq_nil ((hle.trans region.ordered).trans (le_max_right _ _))
      rw [hnone, min_eq_left hle, hwhole, List.append_nil]
  · rw [List.map_append, map_before h, map_after h]

theorem flatMap_clip_stretch (start stop : Position) :
    (t.stretch start stop).flatMap (fun u => u.clip region) =
      t.stretch start (min stop region.start) ++ t.stretch (max start region.stop) stop := by
  by_cases h : start < stop
  · have hsingle : t.stretch start stop = [t.withRange ⟨start, stop, h.le⟩] := dif_pos h
    rw [hsingle, List.flatMap_singleton]
    exact clip_of_not_empty (t := t.withRange ⟨start, stop, h.le⟩) h region
  · have hle := not_lt.mp h
    rw [stretch_eq_nil hle, stretch_eq_nil ((min_le_left _ _).trans hle),
      stretch_eq_nil (hle.trans (le_max_left _ _))]
    rfl

/-- At most one of two regions leaves something between itself and the other. -/
theorem stretches_between_comm (t : Token) (region next : Range) :
    t.stretch (max t.range.start next.stop) (min t.range.stop region.start) ++
        t.stretch (max t.range.start region.stop) (min t.range.stop next.start) =
      t.stretch (max t.range.start region.stop) (min t.range.stop next.start) ++
        t.stretch (max t.range.start next.stop) (min t.range.stop region.start) := by
  rcases le_total region.start next.stop with h | h
  · rw [stretch_eq_nil (((min_le_right _ _).trans h).trans (le_max_right _ _)), List.nil_append,
      List.append_nil]
  · have hnext : next.start ≤ region.stop := (next.ordered.trans h).trans region.ordered
    rw [stretch_eq_nil (((min_le_right t.range.stop next.start).trans hnext).trans
      (le_max_right _ _)), List.nil_append, List.append_nil]

/-- Cutting around two regions leaves the same, whichever comes first. -/
theorem clip_comm (t : Token) (region next : Range) :
    (t.clip region).flatMap (fun u => u.clip next) =
      (t.clip next).flatMap fun u => u.clip region := by
  rcases t.range.ordered.lt_or_eq with h | h
  · rw [clip_of_not_empty h, clip_of_not_empty h]
    simp only [List.flatMap_append, flatMap_clip_stretch]
    -- Before both regions, between them in one order or the other, and behind both.
    rw [min_right_comm, max_right_comm, List.append_assoc, List.append_assoc,
      ← List.append_assoc (t.stretch (max _ next.stop) _), stretches_between_comm,
      List.append_assoc]
  · rw [clip_of_empty h, clip_of_empty h]
    split_ifs with hregion hnext hnext
    · rfl
    · simp [hregion, clip_of_empty h]
    · simp [hnext, clip_of_empty h]
    · simp [hregion, hnext, clip_of_empty h]

theorem survivors_of_perm {cuts cuts' : List Range} (h : cuts.Perm cuts') (t : Token) :
    survivors cuts t = survivors cuts' t := by
  induction h generalizing t with
  | nil => rfl
  | cons region _ ih => exact congrArg (t.clip region).flatMap (funext ih)
  | swap region next rest =>
    simp only [survivors]
    rw [← List.flatMap_assoc, clip_comm, List.flatMap_assoc]
  | trans _ _ ih ih' => exact (ih t).trans (ih' t)

theorem regions_perm {injections found : List Injection} (h : injections.Perm found) :
    (regions injections).Perm (regions found) :=
  (h.filter _).map _

/-- Whatever the regions are: in front of the tokens of the injections stands the same, in the same
order, whichever injection was found first. -/
theorem merge_of_perm {injections found : List Injection} (tokens : List Token)
    (h : injections.Perm found) :
    ∃ kept, merge tokens injections = kept ++ injections.flatMap Injection.tokens ∧
      merge tokens found = kept ++ found.flatMap Injection.tokens := by
  refine ⟨clipAll tokens injections, rfl, ?_⟩
  have hsurvivors : survivors (regions injections) = survivors (regions found) :=
    funext (survivors_of_perm (regions_perm h))
  rw [merge, clipAll_eq_flatMap, clipAll_eq_flatMap, hsurvivors]

/-- Regions that nest, overlap, touch, coincide and are empty, around an empty token as well. -/
theorem merge_of_perm_overlapping :
    let line (start stop : Nat) (h : start ≤ stop) : Range :=
      ⟨⟨0, start⟩, ⟨0, stop⟩, Or.inr ⟨rfl, Int.ofNat_le.mpr h⟩⟩
    let tokens : List Token :=
      [⟨line 0 20 (by decide), "comment", []⟩, ⟨line 12 12 (by decide), "string", []⟩]
    let found (r : Range) : Injection := ⟨"x", r, [⟨r, "keyword", []⟩]⟩
    let injections : List Injection :=
      [found (line 2 8 (by decide)), found (line 4 6 (by decide)), found (line 7 10 (by decide)),
        found (line 10 12 (by decide)), found (line 2 8 (by decide)),
        found (line 15 15 (by decide))]
    let kept : List Token :=
      [⟨line 0 2 (by decide), "comment", []⟩, ⟨line 12 15 (by decide), "comment", []⟩,
        ⟨line 15 20 (by decide), "comment", []⟩]
    injections.Perm injections.reverse ∧
      merge tokens injections = kept ++ injections.flatMap Injection.tokens ∧
        merge tokens injections.reverse = kept ++ injections.reverse.flatMap Injection.tokens := by
  intro line tokens found injections kept
  have hperm : injections.Perm injections.reverse := (List.reverse_perm injections).symm
  obtain ⟨left, hmerge, hmerge'⟩ := merge_of_perm tokens hperm
  have hkept : merge tokens injections = kept ++ injections.flatMap Injection.tokens := by decide
  have hleft : left = kept := List.append_cancel_right (hmerge.symm.trans hkept)
  exact ⟨hperm, hkept, hleft ▸ hmerge'⟩

/-! ## Captures in any order -/

variable {current stop : Position} {inner inner' : List Range} {r s : Range}

/-- Of two ranges with one start the second opens no gap. -/
theorem map_gaps_swap (t : Token) (current stop : Position) (h : r.start = s.start)
    (rest : List Range) :
    (gaps current stop (r :: s :: rest)).map t.withRange =
      (gaps current stop (s :: r :: rest)).map t.withRange := by
  have hr : s.start ≤ max current r.stop := (h ▸ r.ordered).trans (le_max_right _ _)
  have hs : r.start ≤ max current s.stop := (h ▸ s.ordered).trans (le_max_right _ _)
  simp only [map_gaps_cons]
  rw [stretch_eq_nil hr, stretch_eq_nil hs, max_right_comm, h]

theorem map_gaps_middle (t : Token) (current stop : Position) {before : List Range}
    (h : ∀ s ∈ before, s.start = r.start) (after : List Range) :
    (gaps current stop (before ++ r :: after)).map t.withRange =
      (gaps current stop (r :: (before ++ after))).map t.withRange := by
  induction before generalizing current with
  | nil => rfl
  | cons s before ih =>
    obtain ⟨hs, hbefore⟩ := List.forall_mem_cons.mp h
    rw [List.cons_append, map_gaps_cons, ih (max current s.stop) hbefore, ← map_gaps_cons,
      map_gaps_swap t current stop hs, List.cons_append]

/-- In order of the starts, the same ranges leave the same gaps. -/
theorem map_gaps_of_perm (t : Token) (current stop : Position) (h : inner.Perm inner')
    (hinner : inner.Pairwise fun r s => r.start ≤ s.start)
    (hinner' : inner'.Pairwise fun r s => r.start ≤ s.start) :
    (gaps current stop inner).map t.withRange = (gaps current stop inner').map t.withRange := by
  induction inner generalizing inner' current with
  | nil => rw [List.nil_perm.mp h]
  | cons r rest ih =>
    obtain ⟨hfirst, hrest⟩ := List.pairwise_cons.mp hinner
    -- What stands before the range in the other list can only start where the range does.
    obtain ⟨before, after, rfl⟩ := List.append_of_mem (h.subset List.mem_cons_self)
    obtain ⟨hbefore, hafter, hacross⟩ := List.pairwise_append.mp hinner'
    have hsame : ∀ s ∈ before, s.start = r.start := by
      intro s hs
      have hle : s.start ≤ r.start := hacross s hs r List.mem_cons_self
      rcases List.mem_cons.mp (h.symm.subset (List.mem_append_left _ hs)) with rfl | hmem
      · rfl
      · exact le_antisymm hle (hfirst s hmem)
    have hperm : rest.Perm (before ++ after) := (h.trans List.perm_middle).cons_inv
    have hsorted : (before ++ after).Pairwise fun r s => r.start ≤ s.start :=
      hinner'.sublist (List.Sublist.append_left (List.sublist_cons_self r after) before)
    rw [map_gaps_middle t current stop hsame, map_gaps_cons, map_gaps_cons,
      ih (max current r.stop) hperm hrest hsorted]

theorem containedIn_perm (h : tokens.Perm others) (outer : Range) :
    (containedIn (sort tokens).toArray outer).Perm (containedIn (sort others).toArray outer) := by
  rw [containedIn_eq_filter (sort_ascending tokens), containedIn_eq_filter (sort_ascending others)]
  exact ((((sort_perm tokens).trans h).trans (sort_perm others).symm).map _).filter _

theorem remains_of_perm (h : tokens.Perm others) (t : Token) :
    remains tokens t = remains others t := by
  have hinner := containedIn_perm h t.range
  have hempty : containedIn (sort tokens).toArray t.range = [] ↔
      containedIn (sort others).toArray t.range = [] := by
    rw [← List.length_eq_zero_iff, hinner.length_eq, List.length_eq_zero_iff]
  rw [remains, remains, without, without, map_gaps_of_perm t _ _ hinner
    (containedIn_ascending tokens t.range) (containedIn_ascending others t.range)]
  simp only [hempty]

theorem resolveContainment_perm (h : tokens.Perm others) :
    (resolveContainment tokens).Perm (resolveContainment others) := by
  rw [resolveContainment_eq, resolveContainment_eq, ← funext (remains_of_perm h)]
  exact h.flatMap_right _

theorem deduplicateAfter_of_distinct {seen : List Range} (hseen : ∀ t ∈ tokens, t.range ∉ seen)
    (h : tokens.Pairwise fun t u => t.range ≠ u.range) : deduplicateAfter seen tokens = tokens := by
  induction tokens generalizing seen with
  | nil => rfl
  | cons t rest ih =>
    obtain ⟨hfirst, hrest⟩ := List.pairwise_cons.mp h
    rw [deduplicateAfter, if_neg (hseen t List.mem_cons_self), ih ?_ hrest]
    intro u hu hmem
    rcases List.mem_cons.mp hmem with heq | hmem
    · exact hfirst u hu heq.symm
    · exact hseen u (List.mem_cons_of_mem _ hu) hmem

theorem deduplicate_of_distinct (h : tokens.Pairwise fun t u => t.range ≠ u.range) :
    deduplicate tokens = tokens :=
  deduplicateAfter_of_distinct (by simp) h

/-- Captures of different ranges, which may cross each other or be empty, give the same single-line
tokens in whatever order they are reported, up to the order, or cannot be cut in either. -/
theorem normalize_of_perm (hdistinct : tokens.Pairwise fun t u => t.range ≠ u.range)
    (h : tokens.Perm others) :
    (∃ out out', normalize tokens = .ok out ∧ normalize others = .ok out' ∧ out.Perm out') ∨
      ((∃ e, normalize tokens = .error e) ∧ ∃ e, normalize others = .error e) := by
  have hdistinct' : others.Pairwise fun t u => t.range ≠ u.range :=
    h.pairwise hdistinct fun hne => hne.symm
  have hperm := resolveContainment_perm h
  have hfails : (∃ e, normalize tokens = .error e) ↔ ∃ e, normalize others = .error e := by
    rw [normalize_fails_iff, normalize_fails_iff, deduplicate_of_distinct hdistinct,
      deduplicate_of_distinct hdistinct']
    simp only [hperm.mem_iff]
  cases hout : normalize tokens with
  | error e => exact Or.inr ⟨⟨e, rfl⟩, hfails.mp ⟨e, hout⟩⟩
  | ok out =>
    cases hout' : normalize others with
    | error e =>
      obtain ⟨e', he'⟩ := hfails.mpr ⟨e, hout'⟩
      simp [hout] at he'
    | ok out' =>
      refine Or.inl ⟨out, out', rfl, rfl, ?_⟩
      rw [normalize_eq_ok hout, normalize_eq_ok hout', deduplicate_of_distinct hdistinct,
        deduplicate_of_distinct hdistinct']
      exact hperm.flatMap_right _

/-- Three tokens that start together, one of them empty, within another and crossed by a fourth. -/
theorem normalize_of_perm_sameStart :
    let line (start stop : Nat) (h : start ≤ stop) : Range :=
      ⟨⟨0, start⟩, ⟨0, stop⟩, Or.inr ⟨rfl, Int.ofNat_le.mpr h⟩⟩
    let tokens : List Token :=
      [⟨line 0 10 (by decide), "string", []⟩, ⟨line 2 4 (by decide), "number", []⟩,
        ⟨line 2 6 (by decide), "keyword", []⟩, ⟨line 2 2 (by decide), "operator", []⟩,
        ⟨line 5 8 (by decide), "regexp", []⟩]
    (tokens.Pairwise fun t u => t.range ≠ u.range) ∧ tokens.Perm tokens.reverse ∧
      ((∃ out out', normalize tokens = .ok out ∧ normalize tokens.reverse = .ok out' ∧
        out.Perm out') ∨
      ((∃ e, normalize tokens = .error e) ∧ ∃ e, normalize tokens.reverse = .error e)) := by
  intro line tokens
  have hdistinct : tokens.Pairwise fun t u => t.range ≠ u.range := by decide
  have hperm : tokens.Perm tokens.reverse := (List.reverse_perm tokens).symm
  exact ⟨hdistinct, hperm, normalize_of_perm hdistinct hperm⟩

end Token
end SemanticHighlight
