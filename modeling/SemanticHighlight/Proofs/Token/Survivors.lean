import SemanticHighlight.Proofs.Token.Apart

/-!
# What regions leave of a token

Regions may overlap, touch, nest, coincide or be empty, and clipping goes over pieces that earlier
regions have left. Still a token keeps exactly the positions outside all regions with tokens, and
nothing of it stays inside any of them (`merge_outside_regions`). The second is more than the first
where ranges are empty and cover no position: a piece is either the whole token, which no region can
have touched, or not empty (`survivors_eq_singleton_or`), and a piece that is not empty cannot lie
both inside a region and apart from it.
-/

namespace SemanticHighlight

namespace Range

variable {r s : Range} {p : Position}

theorem Apart.not_covers (h : r.Apart s) (hs : s.start < s.stop) : ¬ r.covers s := by
  intro hcovers
  have hholds : s.Holds s.start := ⟨le_rfl, hs⟩
  exact h.not_holds (hholds.of_covers hcovers) hholds

theorem exists_before_holds (h : r.Holds p) (hp : p < s.start) :
    ∃ b, r.before s = some b ∧ b.Holds p :=
  ⟨_, dif_pos (h.1.trans_lt hp), h.1, lt_min h.2 hp⟩

theorem exists_after_holds (h : r.Holds p) (hp : s.stop ≤ p) :
    ∃ a, r.after s = some a ∧ a.Holds p :=
  ⟨_, dif_pos (hp.trans_lt h.2), max_le h.1 hp, h.2⟩

end Range

namespace Token

variable {injections : List Injection} {t u : Token} {region : Range} {p : Position}

/-! ## One region -/

/-- Clipping leaves a token as it is, outside the region, or what it leaves is not empty. -/
theorem clip_eq_singleton_or (t : Token) (region : Range) :
    (t.clip region = [t] ∧ ¬ region.covers t.range) ∨
      ∀ u ∈ t.clip region, u.range.start < u.range.stop := by
  unfold clip
  split_ifs with hcovers hmeets
  · exact Or.inr (by simp)
  · exact Or.inl ⟨rfl, hcovers⟩
  · right
    rw [Bool.not_eq_true', Bool.not_eq_false, Range.intersects_iff] at hmeets
    intro u hu
    obtain ⟨r, hr, rfl⟩ := List.mem_map.mp hu
    rcases List.mem_append.mp hr with hr | hr
    · obtain ⟨hlt, hstart, hstop⟩ := before_eq_some (Option.mem_toList.mp hr)
      rw [withRange, hstart, hstop]
      exact lt_min (hlt.trans hmeets.2) hlt
    · obtain ⟨hlt, hstart, hstop⟩ := after_eq_some (Option.mem_toList.mp hr)
      rw [withRange, hstart, hstop]
      exact max_lt (hmeets.1.trans hlt) hlt

theorem not_covers_of_mem_clip (hu : u ∈ t.clip region) : ¬ region.covers u.range := by
  rcases clip_eq_singleton_or t region with ⟨hwhole, houtside⟩ | hproper
  · rw [hwhole, List.mem_singleton] at hu
    rwa [hu]
  · exact (apart_of_mem_clip hu).symm.not_covers (hproper u hu)

/-- Clipping takes away the positions of the region and no others. -/
theorem exists_covers_clip :
    (∃ u ∈ t.clip region, u.Covers p) ↔ t.Covers p ∧ ¬ region.Holds p := by
  constructor
  · rintro ⟨u, hu, hcovers⟩
    exact ⟨hcovers.of_covers ((pieces_clip t region).within u hu),
      (apart_of_mem_clip hu).not_holds hcovers⟩
  · rintro ⟨hcovers, hfree⟩
    unfold clip
    split_ifs with hinside hmeets
    · exact absurd (Range.Holds.of_covers hinside hcovers) hfree
    · exact ⟨t, List.mem_singleton_self t, hcovers⟩
    · rcases lt_or_ge p region.start with hbefore | hstart
      · obtain ⟨b, hb, hholds⟩ := Range.exists_before_holds hcovers hbefore
        exact ⟨t.withRange b, List.mem_map_of_mem (by simp [hb]), hholds⟩
      · have hafter : region.stop ≤ p := not_lt.mp fun hlt => hfree ⟨hstart, hlt⟩
        obtain ⟨a, ha, hholds⟩ := Range.exists_after_holds hcovers hafter
        exact ⟨t.withRange a, List.mem_map_of_mem (by simp [ha]), hholds⟩

/-! ## All regions -/

/-- The regions of the injections that have tokens. -/
def regions (injections : List Injection) : List Range :=
  (injections.filter fun i => i.tokens ≠ []).map Injection.range

theorem forall_mem_regions {P : Range → Prop} :
    (∀ r ∈ regions injections, P r) ↔ ∀ i ∈ injections, i.tokens ≠ [] → P i.range := by
  rw [regions, List.forall_mem_map]
  simp

theorem regions_cons (i : Injection) (rest : List Injection) :
    regions (i :: rest) = if i.tokens = [] then regions rest else i.range :: regions rest := by
  unfold regions
  split_ifs with h
  · rw [List.filter_cons_of_neg (by simpa using h)]
  · rw [List.filter_cons_of_pos (by simpa using h), List.map_cons]

/-- What is left of a token that is cut around one region after the other. -/
def survivors : List Range → Token → List Token
  | [], t => [t]
  | region :: rest, t => (t.clip region).flatMap (survivors rest)

/-- Tokens are cut around the regions independently of one another. -/
theorem clipAll_eq_flatMap (tokens : List Token) (injections : List Injection) :
    clipAll tokens injections = tokens.flatMap (survivors (regions injections)) := by
  induction injections generalizing tokens with
  | nil => exact (List.flatMap_singleton' tokens).symm
  | cons i rest ih =>
    rw [clipAll_cons, clipOne, regions_cons]
    split_ifs with h
    · exact ih tokens
    · rw [ih, List.flatMap_assoc]
      rfl

theorem pieces_survivors (cuts : List Range) (t : Token) : Pieces t (survivors cuts t) := by
  induction cuts generalizing t with
  | nil => exact Pieces.whole
  | cons region rest ih => exact (pieces_clip t region).flatMap fun u _ => ih u

/-- A token is left whole, or nothing that is left of it is empty. -/
theorem survivors_eq_singleton_or (cuts : List Range) (t : Token) :
    survivors cuts t = [t] ∨ ∀ u ∈ survivors cuts t, u.range.start < u.range.stop := by
  induction cuts generalizing t with
  | nil => exact Or.inl rfl
  | cons region rest ih =>
    rw [survivors]
    rcases clip_eq_singleton_or t region with ⟨hwhole, -⟩ | hproper
    · rw [hwhole, List.flatMap_singleton]
      exact ih t
    · right
      intro v hv
      obtain ⟨u, hu, hv⟩ := List.mem_flatMap.mp hv
      rcases ih u with hwhole | hproper'
      · rw [hwhole, List.mem_singleton] at hv
        exact hv ▸ hproper u hu
      · exact hproper' v hv

/-- A token keeps the positions outside the regions and no others. -/
theorem exists_covers_survivors {cuts : List Range} :
    (∃ u ∈ survivors cuts t, u.Covers p) ↔ t.Covers p ∧ ∀ r ∈ cuts, ¬ r.Holds p := by
  induction cuts generalizing t with
  | nil => simp [survivors]
  | cons region rest ih =>
    rw [survivors]
    constructor
    · rintro ⟨u, hu, hcovers⟩
      obtain ⟨v, hv, hu⟩ := List.mem_flatMap.mp hu
      obtain ⟨hvcovers, hrest⟩ := ih.mp ⟨u, hu, hcovers⟩
      obtain ⟨htcovers, hfirst⟩ := exists_covers_clip.mp ⟨v, hv, hvcovers⟩
      exact ⟨htcovers, List.forall_mem_cons.mpr ⟨hfirst, hrest⟩⟩
    · rintro ⟨hcovers, hfree⟩
      obtain ⟨hfirst, hrest⟩ := List.forall_mem_cons.mp hfree
      obtain ⟨v, hv, hvcovers⟩ := exists_covers_clip.mpr ⟨hcovers, hfirst⟩
      obtain ⟨u, hu, hucovers⟩ := ih.mpr ⟨hvcovers, hrest⟩
      exact ⟨u, List.mem_flatMap.mpr ⟨v, hv, hu⟩, hucovers⟩

theorem not_covers_of_mem_survivors_cons {rest : List Range}
    (hu : u ∈ survivors (region :: rest) t) : ¬ region.covers u.range := by
  obtain ⟨v, hv, hu⟩ := List.mem_flatMap.mp hu
  -- Lying apart does not keep an empty piece out of the region, but only a whole token is empty.
  rcases survivors_eq_singleton_or rest v with hwhole | hproper
  · rw [hwhole, List.mem_singleton] at hu
    exact hu ▸ not_covers_of_mem_clip hv
  · have hwithin := (pieces_survivors rest v).within u hu
    have hapart := (apart_of_mem_clip hv).of_covers hwithin (Range.covers_refl region)
    exact hapart.symm.not_covers (hproper u hu)

/-- Nothing is left inside a region, not even what covers no position. -/
theorem not_covers_of_mem_survivors {cuts : List Range} (hu : u ∈ survivors cuts t) :
    ∀ r ∈ cuts, ¬ r.covers u.range := by
  induction cuts generalizing t with
  | nil => simp
  | cons region rest ih =>
    refine List.forall_mem_cons.mpr ⟨not_covers_of_mem_survivors_cons hu, ?_⟩
    obtain ⟨v, -, hu⟩ := List.mem_flatMap.mp hu
    exact ih hu

/-- What is left of a token comes in ascending order and shares no stretch. -/
theorem survivors_ascending (cuts : List Range) (t : Token) :
    (survivors cuts t).Pairwise fun u v =>
      u.range.start < v.range.start ∧ ¬ u.range.intersects v.range := by
  rcases survivors_eq_singleton_or cuts t with hwhole | hproper
  · rw [hwhole]
    exact List.pairwise_singleton _ _
  · refine (pieces_survivors cuts t).ascending.imp_of_mem fun hu _ hle => ?_
    exact ⟨(hproper _ hu).trans_le hle, Range.apart_iff.mpr (Or.inr hle)⟩

/-- Merging puts what is left of each token, in the order of the tokens, before the tokens of the
injections, in the order of discovery. What is left of a token covers what the token covers outside
the regions of the injections that have tokens, and nothing of it lies within such a region. -/
theorem merge_outside_regions (tokens : List Token) (injections : List Injection) :
    merge tokens injections = tokens.flatMap (survivors (regions injections)) ++
        injections.flatMap Injection.tokens ∧
      ∀ t : Token,
        (∀ p, (∃ u ∈ survivors (regions injections) t, u.Covers p) ↔
          t.Covers p ∧ ∀ i ∈ injections, i.tokens ≠ [] → ¬ i.range.Holds p) ∧
        ((survivors (regions injections) t).Pairwise fun u v =>
          u.range.start < v.range.start ∧ ¬ u.range.intersects v.range) ∧
        (∀ u ∈ survivors (regions injections) t, t.range.covers u.range ∧
          u.type = t.type ∧ u.modifiers = t.modifiers) ∧
        ∀ u ∈ survivors (regions injections) t, ∀ i ∈ injections, i.tokens ≠ [] →
          ¬ i.range.covers u.range := by
  refine ⟨?_, fun t => ⟨fun p => ?_, survivors_ascending (regions injections) t, ?_, ?_⟩⟩
  · rw [merge, clipAll_eq_flatMap]
  · rw [exists_covers_survivors, forall_mem_regions]
  · intro u hu
    have hpieces := pieces_survivors (regions injections) t
    exact ⟨hpieces.within u hu, hpieces.type_eq hu, hpieces.modifiers_eq hu⟩
  · intro u hu
    exact forall_mem_regions.mp (not_covers_of_mem_survivors hu)

end Token
end SemanticHighlight
