import SemanticHighlight.Proofs.Checked
import SemanticHighlight.Proofs.Token.Containment

/-!
# Tokens that lie apart

The two passes that put tokens together keep them apart: normalizing the tokens of one language
(`normalize_settled`) and merging those of injected regions (`merge_settled`). Neither puts anything
outside what it was given.
-/

namespace SemanticHighlight

namespace Token

variable {tokens out : List Token} {injections : List Injection} {r : Range}

/-- Tokens that lie apart, all of them within `r`. -/
structure Settled (r : Range) (tokens : List Token) : Prop where
  apart : tokens.Pairwise Apart
  within : ∀ t ∈ tokens, r.covers t.range

theorem Settled.nil (r : Range) : Settled r [] := ⟨List.Pairwise.nil, by simp⟩

theorem Settled.translate (h : Settled r tokens) (o : Position) :
    Settled (r.translate o) (tokens.map fun t => t.translate o) := by
  constructor
  · exact List.pairwise_map.mpr (h.apart.imp fun hapart => Range.Apart.translate o hapart)
  · intro t ht
    obtain ⟨u, hu, rfl⟩ := List.mem_map.mp ht
    exact Range.covers_translate o (h.within u hu)

/-! ## One language -/

/-- The single-line fragments of a token, none if it cannot be cut. -/
def fragments (t : Token) : List Token := t.split.toOption.getD []

theorem pieces_fragments (t : Token) : Pieces t (fragments t) := by
  unfold fragments
  cases h : t.split with
  | error e => exact Pieces.nil
  | ok cut => exact pieces_split h

theorem normalize_eq_ok (h : normalize tokens = .ok out) :
    out = (resolveContainment (deduplicate tokens)).flatMap fragments := by
  obtain ⟨cuts, hcuts, hout⟩ := bind_eq_ok.mp h
  have hmap : (resolveContainment (deduplicate tokens)).map fragments = cuts := by
    have hcut := congrArg (List.map fun cut => cut.toOption.getD []) (mapM_eq_ok.mp hcuts)
    rw [List.map_map, List.map_map] at hcut
    exact hcut.trans (List.map_id cuts)
  rw [List.flatMap, hmap]
  exact (Except.ok.inj hout).symm

/-- Normalizing fails exactly if some token cannot be cut once containment is resolved. -/
theorem normalize_fails_iff : (∃ e, normalize tokens = .error e) ↔
    ∃ t ∈ resolveContainment (deduplicate tokens), ∃ e, t.split = .error e := by
  rw [← mapM_fails_iff]
  constructor
  · rintro ⟨e, h⟩
    rcases bind_eq_error.mp h with h | ⟨cuts, -, h⟩
    · exact ⟨e, h⟩
    · cases h
  · rintro ⟨e, h⟩
    exact ⟨e, bind_eq_error.mpr (Or.inl h)⟩

/-- The single-line tokens of one language lie apart, and within whatever its captures lie in. -/
theorem normalize_settled (h : Laminar tokens) (hwithin : ∀ t ∈ tokens, r.covers t.range)
    (hout : normalize tokens = .ok out) : Settled r out := by
  rw [normalize_eq_ok hout]
  constructor
  · refine pairwise_apart_flatMap ?_ fun t _ => pieces_fragments t
    exact resolveContainment_apart (h.subset (deduplicate_subset tokens))
      (deduplicate_distinct tokens)
  · intro v hv
    obtain ⟨u, hu, hv⟩ := List.mem_flatMap.mp hv
    obtain ⟨t, ht, hu⟩ := List.mem_flatMap.mp hu
    have hinner := (pieces_remains _ t).within u hu
    have houter := hwithin t (deduplicate_subset tokens ht)
    exact Range.covers_trans (Range.covers_trans houter hinner) ((pieces_fragments u).within v hv)

/-! ## Injected regions -/

/-- The tokens outside the region of one injection. -/
def clipOne (tokens : List Token) (i : Injection) : List Token :=
  if i.tokens = [] then tokens else tokens.flatMap fun t => t.clip i.range

theorem clipAll_cons (tokens : List Token) (i : Injection) (rest : List Injection) :
    clipAll tokens (i :: rest) = clipAll (clipOne tokens i) rest := rfl

theorem clipOne_apart (h : tokens.Pairwise Apart) (i : Injection) :
    (clipOne tokens i).Pairwise Apart := by
  unfold clipOne
  split_ifs
  · exact h
  · exact pairwise_apart_flatMap h fun t _ => pieces_clip t i.range

theorem clipOne_within {i : Injection} : ∀ v ∈ clipOne tokens i, ∃ t ∈ tokens, t.range.covers v.range := by
  unfold clipOne
  split_ifs
  · exact fun v hv => ⟨v, hv, Range.covers_refl _⟩
  · intro v hv
    obtain ⟨t, ht, hv⟩ := List.mem_flatMap.mp hv
    exact ⟨t, ht, (pieces_clip t i.range).within v hv⟩

theorem clipOne_apart_region {i : Injection} (hi : i.tokens ≠ []) :
    ∀ v ∈ clipOne tokens i, v.range.Apart i.range := by
  unfold clipOne
  rw [if_neg hi]
  intro v hv
  obtain ⟨t, -, hv⟩ := List.mem_flatMap.mp hv
  exact apart_of_mem_clip hv

theorem clipAll_apart (h : tokens.Pairwise Apart) (injections : List Injection) :
    (clipAll tokens injections).Pairwise Apart := by
  induction injections generalizing tokens with
  | nil => exact h
  | cons i rest ih => exact ih (clipOne_apart h i)

theorem clipAll_within : ∀ v ∈ clipAll tokens injections, ∃ t ∈ tokens, t.range.covers v.range := by
  induction injections generalizing tokens with
  | nil => exact fun v hv => ⟨v, hv, Range.covers_refl _⟩
  | cons i rest ih =>
    intro v hv
    obtain ⟨u, hu, huv⟩ := ih v hv
    obtain ⟨t, ht, htu⟩ := clipOne_within u hu
    exact ⟨t, ht, Range.covers_trans htu huv⟩

theorem clipAll_apart_region : ∀ v ∈ clipAll tokens injections, ∀ i ∈ injections, i.tokens ≠ [] →
    v.range.Apart i.range := by
  induction injections generalizing tokens with
  | nil => simp
  | cons i rest ih =>
    intro v hv j hj hactive
    rcases List.mem_cons.mp hj with rfl | hj
    · rw [clipAll_cons] at hv
      obtain ⟨u, hu, huv⟩ := clipAll_within v hv
      exact (clipOne_apart_region hactive u hu).of_covers huv (Range.covers_refl _)
    · exact ih v hv j hj hactive

/-- What is left of the document lies apart from what was found in the regions, so tokens can only
meet where two regions have found something. -/
theorem merge_apart (h : tokens.Pairwise Apart)
    (hsettled : ∀ i ∈ injections, Settled i.range i.tokens)
    (hsiblings : injections.Pairwise fun i j => ∀ v ∈ i.tokens, ∀ w ∈ j.tokens, Apart v w) :
    (merge tokens injections).Pairwise Apart := by
  refine List.pairwise_append.mpr ⟨clipAll_apart h injections, ?_, ?_⟩
  · exact List.pairwise_flatMap.mpr ⟨fun i hi => (hsettled i hi).apart, hsiblings⟩
  · intro v hv w hw
    obtain ⟨i, hi, hw⟩ := List.mem_flatMap.mp hw
    have hapart := clipAll_apart_region v hv i hi (List.ne_nil_of_mem hw)
    exact hapart.of_covers (Range.covers_refl _) ((hsettled i hi).within w hw)

/-- Regions that lie apart, each with tokens of its own, and the rest of the document around them. -/
theorem merge_settled (h : Settled r tokens)
    (hsettled : ∀ i ∈ injections, Settled i.range i.tokens)
    (hwithin : ∀ i ∈ injections, r.covers i.range)
    (hregions : injections.Pairwise fun i j => i.tokens ≠ [] → j.tokens ≠ [] → i.range.Apart j.range) :
    Settled r (merge tokens injections) := by
  constructor
  · refine merge_apart h.apart hsettled (hregions.imp_of_mem fun {i j} hi hj hapart v hv w hw => ?_)
    exact (hapart (List.ne_nil_of_mem hv) (List.ne_nil_of_mem hw)).of_covers
      ((hsettled i hi).within v hv) ((hsettled j hj).within w hw)
  · intro v hv
    rcases List.mem_append.mp hv with hv | hv
    · obtain ⟨t, ht, hcovers⟩ := clipAll_within v hv
      exact Range.covers_trans (h.within t ht) hcovers
    · obtain ⟨i, hi, hv⟩ := List.mem_flatMap.mp hv
      exact Range.covers_trans (hwithin i hi) ((hsettled i hi).within v hv)

end Token
end SemanticHighlight
