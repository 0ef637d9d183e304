import SemanticHighlight.Files.Path
import SemanticHighlight.Proofs.Checked
import SemanticHighlight.Proofs.Text.Splitting

/-!
# Normal paths

A path that was read from a text has only parts that a name can be, and so have the paths that are
made of it. Such a path is read back from the way it is written (`ofText_toText`), so that it may stand
for itself where only its text is kept.
-/

namespace SemanticHighlight.Path

/-- Every part is a name: neither empty nor `.`, and with no slash in it. -/
def Normal (p : Path) : Prop := ∀ part ∈ p.parts, part ≠ [] ∧ part ≠ "." ∧ slash ∉ part

instance (p : Path) : Decidable p.Normal :=
  inferInstanceAs (Decidable (∀ part ∈ p.parts, part ≠ [] ∧ part ≠ "." ∧ slash ∉ part))

variable {p q : Path}

theorem normal_ofText (t : Text) : (ofText t).Normal := by
  intro part hpart
  obtain ⟨hmem, hname⟩ := List.mem_filter.mp hpart
  obtain ⟨hne, hdot⟩ := of_decide_eq_true hname
  exact ⟨hne, hdot, Text.separator_not_mem_of_mem_splitOn slash t part hmem⟩

def partsText (p : Path) : Text := Text.join [slash] p.parts

theorem filter_parts (h : p.Normal) :
    p.parts.filter (fun part => part ≠ [] ∧ part ≠ ".") = p.parts := by
  apply List.filter_eq_self.mpr
  intro part hpart
  obtain ⟨hne, hdot, -⟩ := h part hpart
  exact decide_eq_true ⟨hne, hdot⟩

theorem filter_splitOn_partsText (h : p.Normal) :
    (Text.splitOn slash p.partsText).filter (fun part => part ≠ [] ∧ part ≠ ".") = p.parts := by
  unfold partsText
  by_cases hparts : p.parts = []
  · rw [hparts]
    rfl
  · rw [Text.splitOn_join hparts fun part hpart => (h part hpart).2.2]
    exact filter_parts h

theorem takeWhile_partsText (h : p.Normal) : p.partsText.takeWhile (· == slash) = [] := by
  unfold partsText
  cases hparts : p.parts with
  | nil => rfl
  | cons first rest =>
    have hmem : first ∈ p.parts := hparts ▸ List.mem_cons_self
    obtain ⟨hne, -, hslash⟩ := h first hmem
    obtain ⟨c, others, rfl⟩ := List.exists_cons_of_ne_nil hne
    have hc : (c == slash) = false := by
      rw [beq_eq_false_iff_ne]
      rintro rfl
      exact hslash List.mem_cons_self
    cases rest with
    | nil => simp [Text.join, List.intercalate, hc]
    | cons second rest => simp [Text.join_cons_cons, hc]

/-- A path is read back from how it is written. -/
theorem ofText_toText (h : p.Normal) : ofText p.toText = p := by
  have hstart := takeWhile_partsText h
  have hfilter := filter_splitOn_partsText h
  obtain ⟨anchor, parts⟩ := p
  unfold ofText toText
  cases anchor with
  | here =>
    by_cases hparts : parts = []
    · subst hparts
      rfl
    · have hwritten : (if Anchor.here = Anchor.here ∧ parts = [] then ("." : Text)
          else anchorText Anchor.here ++ Text.join "/" parts) = partsText ⟨.here, parts⟩ :=
        if_neg fun hnone => hparts hnone.2
      dsimp only
      rw [hwritten, hfilter, anchorOf, hstart]
      rfl
  | root =>
    have hwritten : (if Anchor.root = Anchor.here ∧ parts = [] then ("." : Text)
        else anchorText Anchor.root ++ Text.join "/" parts) = slash :: partsText ⟨.root, parts⟩ :=
      if_neg fun hnone => Anchor.noConfusion hnone.1
    dsimp only
    rw [hwritten, Text.splitOn, if_pos rfl, List.filter_cons_of_neg (by simp), hfilter, anchorOf,
      List.takeWhile_cons_of_pos (by simp), hstart]
    rfl
  | doubleRoot =>
    have hwritten : (if Anchor.doubleRoot = Anchor.here ∧ parts = [] then ("." : Text)
        else anchorText Anchor.doubleRoot ++ Text.join "/" parts) =
          slash :: slash :: partsText ⟨.doubleRoot, parts⟩ :=
      if_neg fun hnone => Anchor.noConfusion hnone.1
    dsimp only
    rw [hwritten, Text.splitOn, if_pos rfl, Text.splitOn, if_pos rfl,
      List.filter_cons_of_neg (by simp), List.filter_cons_of_neg (by simp), hfilter, anchorOf,
      List.takeWhile_cons_of_pos (by simp), List.takeWhile_cons_of_pos (by simp), hstart]
    rfl

theorem toText_inj (hp : p.Normal) (hq : q.Normal) (h : p.toText = q.toText) : p = q := by
  rw [← ofText_toText hp, h, ofText_toText hq]

/-! ## Paths made of others -/

theorem Normal.under (hp : p.Normal) (hq : q.Normal) : (p.under q).Normal := by
  unfold Path.under
  split
  · exact hp
  · intro part hpart
    exact (List.mem_append.mp hpart).elim (hq part) (hp part)

/-- A path that is not absolute leads to different places from different directories. -/
theorem under_inj {base base' : Path} (hp : p.isAbsolute = false)
    (h : p.under base = p.under base') : base = base' := by
  obtain ⟨anchor, parts⟩ := base
  obtain ⟨anchor', parts'⟩ := base'
  simpa [Path.under, hp] using h

theorem Normal.parent (hp : p.Normal) : p.parent.Normal :=
  fun part hpart => hp part (List.dropLast_subset _ hpart)

theorem mem_of_mem_collapse {parts : List Text} {part : Text} (h : part ∈ collapse parts) :
    part ∈ parts := by
  suffices hfold : ∀ done : List Text, part ∈ parts.foldl (fun (done : List Text) (part : Text) =>
      if part = ".." then done.dropLast else done ++ [part]) done → part ∈ done ∨ part ∈ parts from
    (hfold [] h).resolve_left List.not_mem_nil
  clear h
  induction parts with
  | nil => exact fun done h => Or.inl h
  | cons next rest ih =>
    intro done h
    rw [List.foldl_cons] at h
    rcases ih _ h with hdone | hrest
    · split at hdone
      · exact Or.inl (List.dropLast_subset done hdone)
      · rcases List.mem_append.mp hdone with hdone | hnext
        · exact Or.inl hdone
        · exact Or.inr (List.mem_singleton.mp hnext ▸ List.mem_cons_self)
    · exact Or.inr (List.mem_cons_of_mem next hrest)

theorem Normal.resolve (hp : p.Normal) (hq : q.Normal) : (p.resolve q).Normal :=
  fun part hpart => hp.under hq part (mem_of_mem_collapse hpart)

theorem Normal.expandHome {homes : Homes} (hp : p.Normal) (h : p.expandHome homes = .ok q) :
    q.Normal := by
  unfold Path.expandHome at h
  split at h
  · next first rest _ hparts =>
    split at h
    · cases h
      exact hp
    · obtain ⟨home, -, hq⟩ := bind_eq_ok.mp h
      cases hq
      intro part hpart
      rcases List.mem_append.mp hpart with hpart | hpart
      · exact normal_ofText home part hpart
      · exact hp part (hparts ▸ List.mem_cons_of_mem first hpart)
  · cases h
    exact hp

end SemanticHighlight.Path
