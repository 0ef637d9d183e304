import Mathlib.Algebra.Group.Nat.Defs
import SemanticHighlight.Capture.Name
import SemanticHighlight.Proofs.Token.Apart
import SemanticHighlight.Proofs.Token.Decoding

/-!
# Words of a legend

A token is known to a legend if its type and all its modifiers are words of it. Whatever is done to a
token later, cutting, moving and clipping, leaves its words alone. The numbers that are sent for known
tokens speak of nothing beyond the legend: places of types it has, and bits for modifiers it has.
-/

namespace SemanticHighlight

namespace Legend

variable {legend : Legend} {t : Token} {type : Text} {modifiers : List Text} {i : Nat}

/-- The legend has the type and every modifier of the token. -/
structure Knows (legend : Legend) (t : Token) : Prop where
  type : legend.hasType t.type = true
  modifiers : ∀ m ∈ t.modifiers, legend.hasModifier m = true

theorem Knows.withRange (h : legend.Knows t) (r : Range) : legend.Knows (t.withRange r) :=
  ⟨h.type, h.modifiers⟩

theorem Knows.pieces {pieces : List Token} (h : legend.Knows t) (hpieces : t.Pieces pieces) :
    ∀ u ∈ pieces, legend.Knows u := by
  intro u hu
  rw [hpieces.kept u hu]
  exact h.withRange u.range

theorem knows_restrict {candidate kept : Candidate} (h : candidate.restrict legend = some kept)
    (r : Range) : legend.Knows ⟨r, kept.type, kept.modifiers⟩ := by
  unfold Candidate.restrict at h
  split_ifs at h with htype
  cases h
  exact ⟨htype, fun m hm => (List.mem_filter.mp hm).2⟩

theorem typeIndex?_lt (h : legend.typeIndex? type = some i) : i < legend.types.length :=
  (List.idxOf?_eq_some_iff.mp h).1

/-- Words that the legend does not have set no bit. -/
theorem modifierMask_lt (legend : Legend) (modifiers : List Text) :
    legend.modifierMask modifiers < 2 ^ legend.modifiers.length := by
  apply Nat.lt_pow_two_of_testBit
  intro i hi
  rw [Bool.eq_false_iff]
  intro hbit
  obtain ⟨m, -, hword⟩ := testBit_modifierMask.mp hbit
  rw [List.getElem?_eq_none hi] at hword
  cases hword

/-- Numbers in groups of five, the fourth the place of a type and the last the bits of modifiers. -/
inductive Spells (legend : Legend) : List Int → Prop where
  | nil : Spells legend []
  | token {deltaLine deltaStart length : Int} {typeIndex mask : Nat} {rest : List Int}
      (htype : typeIndex < legend.types.length) (hmask : mask < 2 ^ legend.modifiers.length)
      (hrest : Spells legend rest) :
      Spells legend (deltaLine :: deltaStart :: length :: (typeIndex : Int) :: (mask : Int) :: rest)

end Legend

namespace Token

open Legend

variable {legend : Legend} {t : Token} {tokens out : List Token} {injections : List Injection}
  {index : Option LineIndex} {previous : Position}

theorem knows_normalize (h : ∀ t ∈ tokens, legend.Knows t) (hout : normalize tokens = .ok out) :
    ∀ u ∈ out, legend.Knows u := by
  rw [normalize_eq_ok hout, resolveContainment_eq]
  intro u hu
  obtain ⟨piece, hpiece, hu⟩ := List.mem_flatMap.mp hu
  obtain ⟨t, ht, hpiece⟩ := List.mem_flatMap.mp hpiece
  have hknown := h t (deduplicate_subset tokens ht)
  exact (hknown.pieces (pieces_remains _ t) piece hpiece).pieces (pieces_fragments piece) u hu

theorem knows_clipAll (h : ∀ t ∈ tokens, legend.Knows t) (injections : List Injection) :
    ∀ u ∈ clipAll tokens injections, legend.Knows u := by
  induction injections generalizing tokens with
  | nil => exact h
  | cons i rest ih =>
    rw [clipAll_cons]
    apply ih
    unfold clipOne
    split_ifs
    · exact h
    · intro u hu
      obtain ⟨t, ht, hu⟩ := List.mem_flatMap.mp hu
      exact (h t ht).pieces (pieces_clip t i.range) u hu

theorem knows_merge (h : ∀ t ∈ tokens, legend.Knows t)
    (hinjections : ∀ i ∈ injections, ∀ t ∈ i.tokens, legend.Knows t) :
    ∀ u ∈ merge tokens injections, legend.Knows u := by
  intro u hu
  rcases List.mem_append.mp hu with hu | hu
  · exact knows_clipAll h injections u hu
  · obtain ⟨i, hi, hu⟩ := List.mem_flatMap.mp hu
    exact hinjections i hi u hu

/-- Tokens with known types have a stream, and it speaks of nothing beyond the legend. -/
theorem spells_encodeAfter (index : Option LineIndex) (previous : Position)
    (h : ∀ t ∈ tokens, legend.Knows t) :
    ∃ data, encodeAfter legend index previous tokens = .ok data ∧ legend.Spells data := by
  induction tokens generalizing previous with
  | nil => exact ⟨[], rfl, .nil⟩
  | cons t rest ih =>
    have hrest : ∀ u ∈ rest, legend.Knows u := fun u hu => h u (List.mem_cons_of_mem _ hu)
    by_cases hvisible : 0 < visibleLength index t
    · obtain ⟨i, htype⟩ := exists_typeIndex?_eq_some (h t List.mem_cons_self).type
      obtain ⟨data, hencode, hspells⟩ := ih t.range.start hrest
      refine ⟨numbers legend index previous t i ++ data, ?_, ?_⟩
      · rw [encodeAfter_of_visible hvisible htype, hencode]
        rfl
      · exact .token (typeIndex?_lt htype) (modifierMask_lt legend t.modifiers) hspells
    · obtain ⟨data, hencode, hspells⟩ := ih previous hrest
      exact ⟨data, by rw [encodeAfter_of_hidden (not_lt.mp hvisible), hencode], hspells⟩

end Token

end SemanticHighlight
