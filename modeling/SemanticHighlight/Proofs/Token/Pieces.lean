import Mathlib.Tactic.SplitIfs
import SemanticHighlight.Proofs.Position.Order
import SemanticHighlight.Token.Fragments
import SemanticHighlight.Token.Merge

/-!
# Cutting tokens

A token is cut in three ways: around the tokens it contains, at the ends of lines and around
injected regions. Each leaves pieces of it: parts that lie within it, stay what it was and follow one
another. That is enough for the pieces of tokens which lie apart to lie apart.
-/

namespace SemanticHighlight

namespace Token

/-- Parts of a token in ascending order, of its type and with its modifiers. -/
structure Pieces (t : Token) (pieces : List Token) : Prop where
  within : ∀ u ∈ pieces, t.range.covers u.range
  kept : ∀ u ∈ pieces, u = t.withRange u.range
  ascending : pieces.Pairwise fun u v => u.range.stop ≤ v.range.start

variable {t : Token}

theorem Pieces.nil : Pieces t [] := ⟨by simp, by simp, List.Pairwise.nil⟩

theorem Pieces.whole : Pieces t [t] :=
  ⟨by simp [Range.covers_refl], by simp [withRange], List.pairwise_singleton _ _⟩

theorem Pieces.ofRanges {ranges : List Range} (hwithin : ∀ r ∈ ranges, t.range.covers r)
    (hascending : ranges.Pairwise fun r s => r.stop ≤ s.start) : Pieces t (ranges.map t.withRange) := by
  refine ⟨?_, ?_, List.pairwise_map.mpr hascending⟩
  · simpa [withRange] using hwithin
  · simp [withRange]

theorem Pieces.type_eq {pieces : List Token} {u : Token} (h : Pieces t pieces) (hu : u ∈ pieces) :
    u.type = t.type := by
  rw [h.kept u hu, withRange]

theorem Pieces.modifiers_eq {pieces : List Token} {u : Token} (h : Pieces t pieces) (hu : u ∈ pieces) :
    u.modifiers = t.modifiers := by
  rw [h.kept u hu, withRange]

/-- Pieces of pieces are pieces. -/
theorem Pieces.flatMap {pieces : List Token} {cut : Token → List Token} (h : Pieces t pieces)
    (hcut : ∀ u ∈ pieces, Pieces u (cut u)) : Pieces t (pieces.flatMap cut) := by
  constructor
  · intro v hv
    obtain ⟨u, hu, hv⟩ := List.mem_flatMap.mp hv
    exact Range.covers_trans (h.within u hu) ((hcut u hu).within v hv)
  · intro v hv
    obtain ⟨u, hu, hv⟩ := List.mem_flatMap.mp hv
    rw [(hcut u hu).kept v hv, h.kept u hu]
    rfl
  · refine List.pairwise_flatMap.mpr ⟨fun u hu => (hcut u hu).ascending, ?_⟩
    apply h.ascending.imp_of_mem
    intro u w hu hw hle v hv x hx
    have hfirst := Range.covers_iff.mp ((hcut u hu).within v hv)
    have hsecond := Range.covers_iff.mp ((hcut w hw).within x hx)
    exact (hfirst.2.trans hle).trans hsecond.1

def Apart (t u : Token) : Prop := t.range.Apart u.range

theorem Apart.symm {u : Token} (h : Apart t u) : Apart u t := Range.Apart.symm h

theorem Pieces.apart {pieces : List Token} (h : Pieces t pieces) : pieces.Pairwise Apart :=
  h.ascending.imp fun hle => Range.apart_iff.mpr (Or.inr hle)

/-- Cutting each of several tokens that lie apart leaves tokens that lie apart. -/
theorem pairwise_apart_flatMap {tokens : List Token} {cut : Token → List Token}
    (h : tokens.Pairwise Apart) (hcut : ∀ t ∈ tokens, Pieces t (cut t)) :
    (tokens.flatMap cut).Pairwise Apart := by
  refine List.pairwise_flatMap.mpr ⟨fun t ht => (hcut t ht).apart, ?_⟩
  apply h.imp_of_mem
  intro t u ht hu hapart v hv w hw
  exact Range.Apart.of_covers hapart ((hcut _ ht).within v hv) ((hcut _ hu).within w hw)

/-! ## Gaps -/

variable {current stop : Position} {inner : List Range} {g r : Range}

theorem mem_gaps_nil : g ∈ gaps current stop [] ↔ current < stop ∧ g.start = current ∧ g.stop = stop := by
  rw [gaps]
  split_ifs with h
  · simp [h, Range.ext_iff]
  · simp [h]

theorem mem_gaps_cons : g ∈ gaps current stop (r :: inner) ↔
    (current < r.start ∧ g.start = current ∧ g.stop = r.start) ∨
      g ∈ gaps (max current r.stop) stop inner := by
  rw [gaps]
  split_ifs with h
  · simp [h, Range.ext_iff]
  · simp [h]

/-- Gaps begin and end where the ranges around them do. -/
theorem ends_of_mem_gaps {P : Position → Prop} (hcurrent : P current) (hstop : P stop)
    (hinner : ∀ r ∈ inner, P r.start ∧ P r.stop) (hg : g ∈ gaps current stop inner) :
    P g.start ∧ P g.stop := by
  induction inner generalizing current with
  | nil =>
    obtain ⟨-, hgstart, hgstop⟩ := mem_gaps_nil.mp hg
    exact ⟨hgstart ▸ hcurrent, hgstop ▸ hstop⟩
  | cons r rest ih =>
    obtain ⟨hr, hr'⟩ := hinner r List.mem_cons_self
    rcases mem_gaps_cons.mp hg with ⟨-, hgstart, hgstop⟩ | hg
    · exact ⟨hgstart ▸ hcurrent, hgstop ▸ hr⟩
    · refine ih ?_ (fun s hs => hinner s (List.mem_cons_of_mem _ hs)) hg
      rcases le_total current r.stop with h | h
      · rwa [max_eq_right h]
      · rwa [max_eq_left h]

theorem start_le_of_mem_gaps (hg : g ∈ gaps current stop inner) : current ≤ g.start := by
  induction inner generalizing current with
  | nil => exact (mem_gaps_nil.mp hg).2.1.ge
  | cons r rest ih =>
    rcases mem_gaps_cons.mp hg with ⟨-, hstart, -⟩ | hg
    · exact hstart.ge
    · exact (le_max_left _ _).trans (ih hg)

theorem stop_le_of_mem_gaps (hinner : ∀ r ∈ inner, r.stop ≤ stop)
    (hg : g ∈ gaps current stop inner) : g.stop ≤ stop := by
  induction inner generalizing current with
  | nil => exact (mem_gaps_nil.mp hg).2.2.le
  | cons r rest ih =>
    rcases mem_gaps_cons.mp hg with ⟨-, -, hstop⟩ | hg
    · exact hstop.trans_le (r.ordered.trans (hinner r List.mem_cons_self))
    · exact ih (fun s hs => hinner s (List.mem_cons_of_mem _ hs)) hg

theorem gaps_ascending (current stop : Position) (inner : List Range) :
    (gaps current stop inner).Pairwise fun g h => g.stop ≤ h.start := by
  induction inner generalizing current with
  | nil =>
    rw [gaps]
    split_ifs
    · exact List.pairwise_singleton _ _
    · exact List.Pairwise.nil
  | cons r rest ih =>
    rw [gaps]
    split_ifs
    · refine List.pairwise_cons.mpr ⟨fun g hg => ?_, ih _⟩
      exact (r.ordered.trans (le_max_right _ _)).trans (start_le_of_mem_gaps hg)
    · exact ih _

/-- The walk never goes back: what it has passed lies before every gap that is still to come. -/
theorem gaps_apart (hsorted : inner.Pairwise fun r s => r.start ≤ s.start)
    (hg : g ∈ gaps current stop inner) : ∀ r ∈ inner, g.Apart r := by
  induction inner generalizing current with
  | nil => simp
  | cons r rest ih =>
    obtain ⟨hfirst, hrest⟩ := List.pairwise_cons.mp hsorted
    intro s hs
    rw [Range.apart_iff]
    rcases mem_gaps_cons.mp hg with ⟨-, -, hstop⟩ | hg
    · rcases List.mem_cons.mp hs with rfl | hs
      · exact Or.inr hstop.le
      · exact Or.inr (hstop.trans_le (hfirst s hs))
    · rcases List.mem_cons.mp hs with rfl | hs
      · exact Or.inl ((le_max_right _ _).trans (start_le_of_mem_gaps hg))
      · exact Range.apart_iff.mp (ih hrest hg s hs)

/-- Whatever no contained range holds is in some gap. -/
theorem exists_gap_holds (hsorted : inner.Pairwise fun r s => r.start ≤ s.start) {p : Position}
    (hcurrent : current ≤ p) (hstop : p < stop) (hfree : ∀ r ∈ inner, ¬ r.Holds p) :
    ∃ g ∈ gaps current stop inner, g.Holds p := by
  induction inner generalizing current with
  | nil =>
    refine ⟨⟨current, stop, hcurrent.trans hstop.le⟩, ?_, hcurrent, hstop⟩
    exact mem_gaps_nil.mpr ⟨hcurrent.trans_lt hstop, rfl, rfl⟩
  | cons r rest ih =>
    obtain ⟨-, hrest⟩ := List.pairwise_cons.mp hsorted
    rcases lt_or_ge p r.start with hbefore | hafter
    · refine ⟨⟨current, r.start, hcurrent.trans hbefore.le⟩, ?_, hcurrent, hbefore⟩
      exact mem_gaps_cons.mpr (Or.inl ⟨hcurrent.trans_lt hbefore, rfl, rfl⟩)
    · have hpast : r.stop ≤ p :=
        not_lt.mp fun hlt => hfree r List.mem_cons_self ⟨hafter, hlt⟩
      obtain ⟨g, hg, hholds⟩ :=
        ih hrest (max_le hcurrent hpast) fun s hs => hfree s (List.mem_cons_of_mem _ hs)
      exact ⟨g, mem_gaps_cons.mpr (Or.inr hg), hholds⟩

/-! ## What is left around contained ranges -/

theorem pieces_without (hinner : ∀ r ∈ inner, t.range.covers r) : Pieces t (t.without inner) := by
  unfold without
  split_ifs
  · exact Pieces.whole
  · refine Pieces.ofRanges (fun g hg => ?_) (gaps_ascending _ _ _)
    refine Range.covers_iff.mpr ⟨start_le_of_mem_gaps hg, stop_le_of_mem_gaps (fun r hr => ?_) hg⟩
    exact (Range.covers_iff.mp (hinner r hr)).2

theorem ends_of_mem_without {P : Position → Prop} (ht : P t.range.start ∧ P t.range.stop)
    (hinner : ∀ r ∈ inner, P r.start ∧ P r.stop) {u : Token} (hu : u ∈ t.without inner) :
    P u.range.start ∧ P u.range.stop := by
  unfold without at hu
  split_ifs at hu
  · rwa [List.mem_singleton.mp hu]
  · obtain ⟨g, hg, rfl⟩ := List.mem_map.mp hu
    exact ends_of_mem_gaps ht.1 ht.2 hinner hg

theorem apart_of_mem_without (hsorted : inner.Pairwise fun r s => r.start ≤ s.start) {u : Token}
    (hu : u ∈ t.without inner) : ∀ r ∈ inner, u.range.Apart r := by
  unfold without at hu
  split_ifs at hu with hempty
  · simp [hempty]
  · obtain ⟨g, hg, rfl⟩ := List.mem_map.mp hu
    exact gaps_apart hsorted hg

theorem exists_covers_without (hsorted : inner.Pairwise fun r s => r.start ≤ s.start) {p : Position}
    (ht : t.Covers p) (hfree : ∀ r ∈ inner, ¬ r.Holds p) : ∃ u ∈ t.without inner, u.Covers p := by
  unfold without
  split_ifs
  · exact ⟨t, List.mem_singleton_self t, ht⟩
  · obtain ⟨g, hg, hholds⟩ := exists_gap_holds hsorted ht.1 ht.2 hfree
    exact ⟨t.withRange g, List.mem_map_of_mem hg, hholds⟩

/-! ## Lines -/

theorem mem_linesBetween {first last line : Int} (h : line ∈ linesBetween first last) :
    first < line ∧ line < last := by
  obtain ⟨n, hn, rfl⟩ := List.mem_map.mp h
  rw [List.mem_range] at hn
  omega

theorem linesBetween_ascending (first last : Int) : (linesBetween first last).Pairwise (· < ·) := by
  refine List.pairwise_map.mpr (List.pairwise_lt_range.imp fun hlt => ?_)
  omega

theorem wholeLines_ascending (first last : Int) :
    ((linesBetween first last).map wholeLine).Pairwise fun r s => r.stop ≤ s.start :=
  List.pairwise_map.mpr ((linesBetween_ascending first last).imp Or.inl)

/-- A token that stays on one line is one fragment. Otherwise there is one fragment for each line,
and every one but the last may reach past the end of its line. -/
theorem split_eq_ok {fragments : List Token} (h : t.split = .ok fragments) :
    (t.range.start.line = t.range.stop.line ∧ fragments = [t]) ∨
      (t.range.start.line ≠ t.range.stop.line ∧ ∃ head tail : Range,
        head.start = t.range.start ∧ head.stop = ⟨t.range.start.line, lineEnd⟩ ∧
        tail.start = ⟨t.range.stop.line, 0⟩ ∧ tail.stop = t.range.stop ∧
        fragments = (head :: (linesBetween t.range.start.line t.range.stop.line).map wholeLine ++
          [tail]).map t.withRange) := by
  rw [split] at h
  split_ifs at h with hline
  · exact Or.inl ⟨hline, (Except.ok.inj h).symm⟩
  · cases hhead : Range.ofEnds? t.range.start ⟨t.range.start.line, lineEnd⟩ with
    | error e => simp [hhead, bind, Except.bind] at h
    | ok head =>
      cases htail : Range.ofEnds? ⟨t.range.stop.line, 0⟩ t.range.stop with
      | error e => simp [hhead, htail, bind, Except.bind] at h
      | ok tail =>
        simp only [hhead, htail, bind, Except.bind, pure, Except.pure, Except.ok.injEq] at h
        obtain ⟨hstart, hstop⟩ := Range.ofEnds?_eq_ok.mp hhead
        obtain ⟨hstart', hstop'⟩ := Range.ofEnds?_eq_ok.mp htail
        exact Or.inr ⟨hline, head, tail, hstart, hstop, hstart', hstop', h.symm⟩

/-- The artificial end of a fragment stays within the token, because the token goes on in a later
line. -/
theorem pieces_split {fragments : List Token} (h : t.split = .ok fragments) : Pieces t fragments := by
  rcases split_eq_ok h with ⟨-, rfl⟩ | ⟨hline, head, tail, hhead, hhead', htail, htail', rfl⟩
  · exact Pieces.whole
  · have hlt : t.range.start.line < t.range.stop.line := by
      have hle := Position.le_def.mp t.range.ordered
      omega
    refine Pieces.ofRanges ?_ ?_
    · intro r hr
      rw [Range.covers_iff]
      simp only [List.cons_append, List.mem_cons, List.mem_append, List.mem_map, List.mem_nil_iff,
        or_false] at hr
      rcases hr with rfl | ⟨line, hbetween, rfl⟩ | rfl
      · exact ⟨hhead.ge, hhead'.trans_le (Or.inl hlt)⟩
      · obtain ⟨hafter, hbefore⟩ := mem_linesBetween hbetween
        exact ⟨Or.inl hafter, Or.inl hbefore⟩
      · exact ⟨htail ▸ Or.inl hlt, htail'.le⟩
    · refine List.pairwise_append.mpr ⟨?_, List.pairwise_singleton _ _, ?_⟩
      · refine List.pairwise_cons.mpr ⟨?_, wholeLines_ascending _ _⟩
        intro r hr
        obtain ⟨line, hbetween, rfl⟩ := List.mem_map.mp hr
        rw [hhead']
        exact Or.inl (mem_linesBetween hbetween).1
      · intro r hr s hs
        rw [List.mem_singleton.mp hs, htail]
        rcases List.mem_cons.mp hr with rfl | hr
        · rw [hhead']
          exact Or.inl hlt
        · obtain ⟨line, hbetween, rfl⟩ := List.mem_map.mp hr
          exact Or.inl (mem_linesBetween hbetween).2

/-- A token whose last line has no negative columns can be cut unless it goes on to another line
from beyond the artificial end of its first. -/
theorem split_eq_error (hcolumn : 0 ≤ t.range.stop.column) :
    (∃ e, t.split = .error e) ↔
      t.range.start.line < t.range.stop.line ∧ lineEnd < t.range.start.column := by
  have hle := Position.le_def.mp t.range.ordered
  rw [split]
  split_ifs with hline
  · simp [hline]
  · have htail : (⟨t.range.stop.line, 0⟩ : Position) ≤ t.range.stop := Or.inr ⟨rfl, hcolumn⟩
    by_cases hhead : t.range.start ≤ ⟨t.range.start.line, lineEnd⟩
    · have hcol : t.range.start.column ≤ lineEnd := by simpa [Position.le_def] using hhead
      simp only [Range.ofEnds?, hhead, htail, dif_pos, bind, Except.bind, pure, Except.pure,
        reduceCtorEq, exists_false, false_iff]
      omega
    · have hcol : lineEnd < t.range.start.column := by simpa [Position.le_def] using hhead
      simp only [Range.ofEnds?, hhead, dif_neg, not_false_eq_true, bind, Except.bind, Except.error.injEq,
        exists_eq', true_iff]
      omega

/-! ## Regions -/

theorem before_eq_some {r s b : Range} (h : r.before s = some b) :
    r.start < s.start ∧ b.start = r.start ∧ b.stop = min r.stop s.start := by
  unfold Range.before at h
  split_ifs at h with hlt
  cases h
  exact ⟨hlt, rfl, rfl⟩

theorem after_eq_some {r s a : Range} (h : r.after s = some a) :
    s.stop < r.stop ∧ a.start = max r.start s.stop ∧ a.stop = r.stop := by
  unfold Range.after at h
  split_ifs at h with hlt
  cases h
  exact ⟨hlt, rfl, rfl⟩

theorem pieces_clip (t : Token) (region : Range) : Pieces t (t.clip region) := by
  unfold clip
  split_ifs
  · exact Pieces.nil
  · exact Pieces.whole
  · refine Pieces.ofRanges ?_ ?_
    · intro r hr
      rw [Range.covers_iff]
      rcases List.mem_append.mp hr with hr | hr
      · obtain ⟨-, hstart, hstop⟩ := before_eq_some (Option.mem_toList.mp hr)
        exact ⟨hstart.ge, hstop.trans_le (min_le_left _ _)⟩
      · obtain ⟨-, hstart, hstop⟩ := after_eq_some (Option.mem_toList.mp hr)
        exact ⟨hstart ▸ le_max_left _ _, hstop.le⟩
    · have hsingle : ∀ o : Option Range, o.toList.Pairwise fun r s => r.stop ≤ s.start := by
        rintro (_ | r) <;> simp
      refine List.pairwise_append.mpr ⟨hsingle _, hsingle _, fun b hb a ha => ?_⟩
      obtain ⟨-, -, hstop⟩ := before_eq_some (Option.mem_toList.mp hb)
      obtain ⟨-, hstart, -⟩ := after_eq_some (Option.mem_toList.mp ha)
      rw [hstop, hstart]
      exact ((min_le_right _ _).trans region.ordered).trans (le_max_right _ _)

theorem apart_of_mem_clip {region : Range} {u : Token} (hu : u ∈ t.clip region) :
    u.range.Apart region := by
  unfold clip at hu
  split_ifs at hu with hcovers hintersects
  · cases hu
  · rw [List.mem_singleton.mp hu]
    simpa [Range.Apart] using hintersects
  · obtain ⟨r, hr, rfl⟩ := List.mem_map.mp hu
    rw [Range.apart_iff]
    rcases List.mem_append.mp hr with hr | hr
    · obtain ⟨-, -, hstop⟩ := before_eq_some (Option.mem_toList.mp hr)
      exact Or.inr (hstop.trans_le (min_le_right _ _))
    · obtain ⟨-, hstart, -⟩ := after_eq_some (Option.mem_toList.mp hr)
      exact Or.inl (hstart ▸ le_max_right _ _)

end Token
end SemanticHighlight
