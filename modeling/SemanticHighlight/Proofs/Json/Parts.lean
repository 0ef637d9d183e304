import SemanticHighlight.Json.Reader

/-!
# What holds of every part of a JSON value

A condition may be asked of a value and of all that stands in it. Two such conditions come with
documents: an editor may send halves of surrogate pairs, but no object that is read has two members of
one name (`hasDistinctNames_of_read?`).
-/

namespace SemanticHighlight

namespace Json

mutual

def everywhere (p : Json → Bool) : Json → Bool
  | list xs => p (list xs) && everyItem p xs
  | object ms => p (object ms) && everyMember p ms
  | j => p j

def everyItem (p : Json → Bool) : List Json → Bool
  | [] => true
  | x :: xs => everywhere p x && everyItem p xs

def everyMember (p : Json → Bool) : List (Text × Json) → Bool
  | [] => true
  | (_, x) :: ms => everywhere p x && everyMember p ms

end

/-- No object of the document has two members of one name. -/
def hasDistinctNames : Json → Bool :=
  everywhere fun
    | object ms => decide (ms.map Prod.fst).Nodup
    | _ => true

variable {p : Json → Bool} {j x : Json} {xs : List Json} {ms : List (Text × Json)} {name : Text}

theorem everyItem_eq (p : Json → Bool) (xs : List Json) : everyItem p xs = xs.all (everywhere p) := by
  induction xs with
  | nil => rfl
  | cons x xs ih => rw [everyItem, ih, List.all_cons]

theorem everyMember_eq (p : Json → Bool) (ms : List (Text × Json)) :
    everyMember p ms = ms.all fun m => m.2.everywhere p := by
  induction ms with
  | nil => rfl
  | cons m ms ih =>
    obtain ⟨name, x⟩ := m
    rw [everyMember, ih, List.all_cons]

theorem hasDistinctNames_object :
    (object ms).hasDistinctNames = true ↔
      (ms.map Prod.fst).Nodup ∧ ∀ m ∈ ms, m.2.hasDistinctNames = true := by
  unfold hasDistinctNames
  rw [everywhere, everyMember_eq, Bool.and_eq_true_iff, List.all_eq_true, decide_eq_true_iff]

theorem hasDistinctNames_list :
    (list xs).hasDistinctNames = true ↔ ∀ x ∈ xs, x.hasDistinctNames = true := by
  unfold hasDistinctNames
  rw [everywhere, everyItem_eq, Bool.true_and, List.all_eq_true]

/-! ## Setting members -/

section Insert

variable {α : Type} {known : List (Text × α)} {value : α}

theorem insert_of_not_mem (h : name ∉ known.map Prod.fst) :
    insert known name value = known ++ [(name, value)] := by
  refine if_neg fun hany => h ?_
  obtain ⟨m, hm, hname⟩ := List.any_eq_true.mp hany
  exact List.mem_map.mpr ⟨m, hm, of_decide_eq_true hname⟩

theorem insert_of_mem (h : name ∈ known.map Prod.fst) :
    insert known name value = known.map fun m => if m.1 = name then (name, value) else m := by
  obtain ⟨m, hm, hname⟩ := List.mem_map.mp h
  exact if_pos (List.any_eq_true.mpr ⟨m, hm, decide_eq_true hname⟩)

theorem nodup_insert (h : (known.map Prod.fst).Nodup) :
    ((insert known name value).map Prod.fst).Nodup := by
  by_cases hname : name ∈ known.map Prod.fst
  · have hsame : ∀ m : Text × α, (if m.1 = name then (name, value) else m).1 = m.1 := by
      intro m
      split
      · next hm => exact hm.symm
      · rfl
    rw [insert_of_mem hname, List.map_map]
    simpa only [Function.comp_def, hsame] using h
  · rw [insert_of_not_mem hname, List.map_append, List.nodup_append]
    refine ⟨h, by simp, fun a ha b hb => ?_⟩
    rw [List.mem_singleton.mp hb]
    exact ne_of_mem_of_not_mem ha hname

theorem mem_insert {m : Text × α} (h : m ∈ insert known name value) : m.2 = value ∨ m ∈ known := by
  unfold insert at h
  split at h
  · obtain ⟨m', hm', rfl⟩ := List.mem_map.mp h
    split
    · exact Or.inl rfl
    · exact Or.inr hm'
  · rcases List.mem_append.mp h with h | h
    · exact Or.inr h
    · exact Or.inl (congrArg Prod.snd (List.mem_singleton.mp h))

end Insert

theorem hasDistinctNames_insert (name : Text) (hms : (object ms).hasDistinctNames = true)
    (hx : x.hasDistinctNames = true) : (object (insert ms name x)).hasDistinctNames = true := by
  obtain ⟨hnames, hms⟩ := hasDistinctNames_object.mp hms
  refine hasDistinctNames_object.mpr ⟨nodup_insert hnames, fun m hm => ?_⟩
  rcases mem_insert hm with h | h
  · exact h ▸ hx
  · exact hms m h

/-! ## What the reader gives -/

theorem hasDistinctNames_of_word? {t rest : Text} (h : word? t = some (j, rest)) :
    j.hasDistinctNames = true := by
  obtain ⟨⟨word, value⟩, hmem, h⟩ := List.exists_of_findSome?_eq_some h
  obtain ⟨rest', -, h⟩ := Option.map_eq_some_iff.mp h
  cases h
  simp only [List.mem_cons, Prod.mk.injEq, List.not_mem_nil, or_false] at hmem
  rcases hmem with h | h | h | h | h | h
  all_goals
    rw [h.2]
    rfl

theorem hasDistinctNames_of_number? {negative : Bool} {t rest : Text}
    (h : number? negative t = some (j, rest)) : j.hasDistinctNames = true := by
  unfold number? at h
  dsimp only at h
  repeat' split at h
  all_goals cases h
  all_goals rfl

/-- The recursion of the reader is on its fuel, for values, items and members at once. -/
theorem hasDistinctNames_of_read (fuel : Nat) :
    (∀ t j rest, value? fuel t = some (j, rest) → j.hasDistinctNames = true) ∧
      (∀ t xs rest, items? fuel t = some (xs, rest) → ∀ x ∈ xs, x.hasDistinctNames = true) ∧
      ∀ t ms ms' rest, members? fuel ms t = some (ms', rest) →
        (object ms).hasDistinctNames = true → (object ms').hasDistinctNames = true := by
  induction fuel with
  | zero =>
    refine ⟨fun t j rest h => ?_, fun t xs rest h => ?_, fun t ms ms' rest h => ?_⟩
    all_goals cases h
  | succ fuel ih =>
    obtain ⟨hvalue, hitems, hmembers⟩ := ih
    refine ⟨fun t j rest h => ?_, fun t xs rest h => ?_, fun t ms ms' rest h hms => ?_⟩
    · cases t with
      | nil => cases h
      | cons c t =>
        rw [value?] at h
        split at h
        · obtain ⟨⟨u, rest'⟩, -, h⟩ := Option.bind_eq_some_iff.mp h
          cases h
          rfl
        · split at h
          · split at h
            · cases h
            · split at h
              · cases h
                rfl
              · obtain ⟨⟨xs, rest'⟩, hxs, h⟩ := Option.bind_eq_some_iff.mp h
                cases h
                exact hasDistinctNames_list.mpr (hitems _ _ _ hxs)
          · split at h
            · split at h
              · cases h
              · split at h
                · cases h
                  rfl
                · obtain ⟨⟨ms, rest'⟩, hms, h⟩ := Option.bind_eq_some_iff.mp h
                  cases h
                  exact hmembers _ _ _ _ hms rfl
            · split at h
              · next hword =>
                cases h
                exact hasDistinctNames_of_word? hword
              · split at h
                · exact hasDistinctNames_of_number? h
                · exact hasDistinctNames_of_number? h
    · rw [items?] at h
      obtain ⟨⟨x, after⟩, hx, h⟩ := Option.bind_eq_some_iff.mp h
      have hfirst := hvalue _ _ _ hx
      dsimp only at h
      split at h
      · cases h
      · split at h
        · cases h
          exact List.forall_mem_singleton.mpr hfirst
        · split at h
          · obtain ⟨⟨ys, rest'⟩, hys, h⟩ := Option.bind_eq_some_iff.mp h
            cases h
            exact List.forall_mem_cons.mpr ⟨hfirst, hitems _ _ _ hys⟩
          · cases h
    · rw [members?] at h
      split at h
      · cases h
      · split at h
        · cases h
        · obtain ⟨⟨name, after⟩, -, h⟩ := Option.bind_eq_some_iff.mp h
          dsimp only at h
          split at h
          · cases h
          · split at h
            · cases h
            · obtain ⟨⟨x, after'⟩, hx, h⟩ := Option.bind_eq_some_iff.mp h
              have hknown := hasDistinctNames_insert name hms (hvalue _ _ _ hx)
              dsimp only at h
              split at h
              · cases h
              · split at h
                · cases h
                  exact hknown
                · split at h
                  · exact hmembers _ _ _ _ h hknown
                  · cases h

/-- A document that is read has no object with two members of one name. -/
theorem hasDistinctNames_of_read? {t : Text} (h : read? t = some j) : j.hasDistinctNames = true := by
  obtain ⟨⟨j', rest⟩, hvalue, h⟩ := Option.bind_eq_some_iff.mp h
  dsimp only at h
  split at h
  · cases h
    exact (hasDistinctNames_of_read _).1 _ _ _ hvalue
  · cases h

end Json

end SemanticHighlight
