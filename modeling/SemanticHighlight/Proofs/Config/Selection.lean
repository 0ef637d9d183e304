import SemanticHighlight.Config.Reading
import SemanticHighlight.Proofs.Config.Conformance

/-!
# The finding that is reported

Of several findings one can be picked if their places are made of indexes and texts and if none of them
is unclear (`select?_total`). In a document in which every name is a text and nothing contains itself
that is always so (`telling_of_mem_findings`), and JSON documents are such documents.
-/

namespace SemanticHighlight

/-- A step that has an order among others. -/
def Step.IsTelling : Step → Prop
  | .name n => ∃ t, n = .text t
  | .index _ => True

theorem Step.isTelling_index (i : Nat) : (Step.index i).IsTelling := trivial

theorem Step.isTelling_text (t : Text) : (Step.name (.text t)).IsTelling := ⟨t, rfl⟩

namespace Value

mutual

/-- Whether all names in a value are texts. -/
def hasTextNames : Value → Bool
  | list items => haveTextNames items
  | table entries => areNamedByTexts entries
  | _ => true

def haveTextNames : List Value → Bool
  | [] => true
  | v :: rest => hasTextNames v && haveTextNames rest

def areNamedByTexts : List (Value × Value) → Bool
  | [] => true
  | (name, v) :: rest => name.text?.isSome && hasTextNames v && areNamedByTexts rest

end

variable {v name : Value}

theorem hasTextNames_of_mem_items {items : List Value} (h : haveTextNames items = true)
    (hv : v ∈ items) : v.hasTextNames = true := by
  induction items with
  | nil => exact absurd hv List.not_mem_nil
  | cons x rest ih =>
    obtain ⟨hx, hrest⟩ := Bool.and_eq_true_iff.mp h
    rcases List.mem_cons.mp hv with rfl | hv
    · exact hx
    · exact ih hrest hv

theorem hasTextNames_of_mem_entries {entries : List (Value × Value)}
    (h : areNamedByTexts entries = true) (hv : (name, v) ∈ entries) :
    (∃ t, name = .text t) ∧ v.hasTextNames = true := by
  induction entries with
  | nil => exact absurd hv List.not_mem_nil
  | cons entry rest ih =>
    obtain ⟨n, x⟩ := entry
    obtain ⟨hentry, hrest⟩ := Bool.and_eq_true_iff.mp h
    rcases List.mem_cons.mp hv with hv | hv
    · cases hv
      obtain ⟨htext, hx⟩ := Bool.and_eq_true_iff.mp hentry
      cases name with
      | text t => exact ⟨⟨t, rfl⟩, hx⟩
      | _ => cases htext
    · exact ih hrest hv

theorem mem_of_valueAt? {α : Type} {entries : List (Value × α)} {x : α}
    (h : valueAt? entries name = some x) : ∃ n, (n, x) ∈ entries := by
  obtain ⟨⟨n, y⟩, hfind, rfl⟩ := Option.map_eq_some_iff.mp h
  exact ⟨n, List.mem_of_find?_eq_some hfind⟩

mutual

theorem hasTextNames_ofJson : ∀ j : Json, (ofJson j).hasTextNames = true
  | .list xs => haveTextNames_ofJsonItems xs
  | .object ms => areNamedByTexts_ofJsonMembers ms
  | .null | .bool _ | .int _ | .real _ | .text _ => rfl

theorem haveTextNames_ofJsonItems : ∀ xs : List Json, haveTextNames (ofJsonItems xs) = true
  | [] => rfl
  | x :: xs =>
    Bool.and_eq_true_iff.mpr ⟨hasTextNames_ofJson x, haveTextNames_ofJsonItems xs⟩

theorem areNamedByTexts_ofJsonMembers :
    ∀ ms : List (Text × Json), areNamedByTexts (ofJsonMembers ms) = true
  | [] => rfl
  | (_, x) :: ms =>
    Bool.and_eq_true_iff.mpr ⟨hasTextNames_ofJson x, areNamedByTexts_ofJsonMembers ms⟩

end

end Value

namespace Finding

/-- A finding that can be picked or passed over. -/
structure Telling (f : Finding) : Prop where
  place : ∀ step ∈ f.place, step.IsTelling
  clear : f.violation ≠ .unclear

variable {f g : Finding}

theorem isAfter_total {a b : Step} (ha : a.IsTelling) (hb : b.IsTelling) : ∃ r, a.isAfter b = .ok r := by
  cases a with
  | index i => cases b <;> exact ⟨_, rfl⟩
  | name m =>
    cases b with
    | index j => exact ⟨_, rfl⟩
    | name n =>
      obtain ⟨s, rfl⟩ := ha
      obtain ⟨t, rfl⟩ := hb
      exact ⟨_, rfl⟩

theorem isAfterPlace_total {as bs : List Step} (has : ∀ step ∈ as, step.IsTelling)
    (hbs : ∀ step ∈ bs, step.IsTelling) : ∃ r, isAfterPlace as bs = .ok r := by
  induction as generalizing bs with
  | nil => exact ⟨false, by cases bs <;> rfl⟩
  | cons a as ih =>
    cases bs with
    | nil => exact ⟨false, rfl⟩
    | cons b bs =>
      obtain ⟨ha, has⟩ := List.forall_mem_cons.mp has
      obtain ⟨hb, hbs⟩ := List.forall_mem_cons.mp hbs
      rw [isAfterPlace]
      split
      · exact ih has hbs
      · exact isAfter_total ha hb

theorem precedes_total (hf : f.Telling) (hg : g.Telling) : ∃ r, f.precedes g = .ok r := by
  unfold precedes
  split
  · exact isAfterPlace_total hf.place hg.place
  · exact ⟨_, rfl⟩

theorem better_total (best : Option Finding) (hbest : ∀ g ∈ best, g.Telling) (hf : f.Telling) :
    ∃ g, better best f = .ok (some g) ∧ g.Telling := by
  have hclear : f.isClear = true := by
    unfold isClear
    split
    · next h => exact absurd h hf.clear
    · rfl
  cases best with
  | none => exact ⟨f, by simp [better, hclear, pure, Except.pure], hf⟩
  | some g =>
    have hg : g.Telling := hbest g rfl
    obtain ⟨r, hr⟩ := precedes_total hf hg
    refine ⟨if r then f else g, ?_, ?_⟩
    · simp [better, hclear, hr, bind, Except.bind, pure, Except.pure]
    · cases r with
      | true => exact hf
      | false => exact hg

/-- A finding that was picked may give way to another one, but not to none. -/
theorem foldlM_better_total {findings : List Finding} (hg : g.Telling)
    (h : ∀ f ∈ findings, f.Telling) : ∃ picked, findings.foldlM better (some g) = .ok (some picked) := by
  induction findings generalizing g with
  | nil => exact ⟨g, rfl⟩
  | cons f findings ih =>
    obtain ⟨hf, h⟩ := List.forall_mem_cons.mp h
    obtain ⟨g', hbetter, hg'⟩ := better_total (some g) (by rintro _ ⟨⟩; exact hg) hf
    rw [List.foldlM_cons, hbetter]
    exact ih hg' h

theorem select?_total {findings : List Finding} (h : ∀ f ∈ findings, f.Telling) :
    ∃ picked, select? findings = .ok picked ∧ (picked = none ↔ findings = []) := by
  cases findings with
  | nil => exact ⟨none, rfl, by simp⟩
  | cons f findings =>
    obtain ⟨hf, h⟩ := List.forall_mem_cons.mp h
    obtain ⟨g, hbetter, hg⟩ := better_total none (by simp) hf
    obtain ⟨picked, hpicked⟩ := foldlM_better_total hg h
    refine ⟨some picked, ?_, by simp⟩
    rw [select?, List.foldlM_cons, hbetter]
    exact hpicked

end Finding

namespace Schema

variable {c : Content} {f : Finding}

theorem telling_here {violations : List Violation} (h : .unclear ∉ violations)
    (hf : f ∈ here violations) : f.Telling := by
  obtain ⟨v, hv, rfl⟩ := List.mem_map.mp hf
  exact ⟨by simp, ne_of_mem_of_not_mem hv h⟩

theorem telling_inside {step : Step} {findings : List Finding} (hstep : step.IsTelling)
    (h : ∀ f ∈ findings, f.Telling) (hf : f ∈ inside step findings) : f.Telling := by
  obtain ⟨g, hg, rfl⟩ := List.mem_map.mp hf
  obtain ⟨hplace, hclear⟩ := h g hg
  exact ⟨List.forall_mem_cons.mpr ⟨hstep, hplace⟩, hclear⟩

theorem telling_mistyped {v : Value} {expected : Text} (hf : f ∈ mistyped c v expected) : f.Telling :=
  telling_here (by simp) hf

theorem unclear_not_mem_repeatViolations (hc : c.knots = []) (v : Value) (items : List Value) :
    .unclear ∉ repeatViolations c v items := by
  obtain ⟨r, hr⟩ := Content.hasRepeats_total hc items
  rw [repeatViolations, hr]
  cases r with
  | true => simp
  | false => simp

theorem unclear_not_mem_recordViolations (fields : List (Text × Schema)) (required : List Text)
    (entries : List (Value × Value)) : .unclear ∉ recordViolations fields required entries := by
  unfold recordViolations
  dsimp only
  split
  · simp
  · simp

mutual

/-- All that is found can be told, if all names are texts. The recursion is that of the schema. -/
theorem telling_of_mem_findings (hc : c.knots = []) : ∀ (schema : Schema) (v : Value),
    v.hasTextNames = true → ∀ f ∈ findings c schema v, f.Telling
  | .boolean, v, _, f, hf => by
    rw [findings] at hf
    split at hf
    · exact absurd hf List.not_mem_nil
    · exact telling_mistyped hf
  | .text nonEmpty, v, _, f, hf => by
    rw [findings] at hf
    split at hf
    · exact telling_mistyped hf
    · refine telling_here ?_ hf
      split
      · simp
      · simp
  | .integer minimum, v, _, f, hf => by
    rw [findings] at hf
    rcases List.mem_append.mp hf with hf | hf
    · split at hf
      · exact absurd hf List.not_mem_nil
      · exact telling_mistyped hf
    · refine telling_here ?_ hf
      split
      · simp
      · simp
  | .list items unique, v, hv, f, hf => by
    rw [findings, Content.view_of_knots hc] at hf
    cases v with
    | list xs =>
      rcases List.mem_append.mp hf with hf | hf
      · refine telling_here ?_ hf
        split
        · exact unclear_not_mem_repeatViolations hc _ _
        · simp
      · obtain ⟨⟨x, i⟩, hx, hf⟩ := List.mem_flatMap.mp hf
        have hnames := Value.hasTextNames_of_mem_items hv (List.fst_mem_of_mem_zipIdx hx)
        exact telling_inside (Step.isTelling_index i) (telling_of_mem_findings hc items x hnames) hf
    | _ => exact telling_mistyped hf
  | .record fields required, v, hv, f, hf => by
    rw [findings, Content.view_of_knots hc] at hf
    cases v with
    | table entries =>
      rcases List.mem_append.mp hf with hf | hf
      · exact telling_here (unclear_not_mem_recordViolations _ _ _) hf
      · exact telling_of_mem_fieldFindings hc fields entries hv f hf
    | _ => exact telling_mistyped hf
  | .table entrySchema, v, hv, f, hf => by
    rw [findings, Content.view_of_knots hc] at hf
    cases v with
    | table entries =>
      obtain ⟨⟨name, x⟩, hx, hf⟩ := List.mem_flatMap.mp hf
      obtain ⟨hname, hnames⟩ := Value.hasTextNames_of_mem_entries hv hx
      have hstep : (Step.name name).IsTelling := hname
      exact telling_inside hstep (telling_of_mem_findings hc entrySchema x hnames) hf
    | _ => exact telling_mistyped hf

theorem telling_of_mem_fieldFindings (hc : c.knots = []) :
    ∀ (fields : List (Text × Schema)) (entries : List (Value × Value)),
      Value.areNamedByTexts entries = true → ∀ f ∈ fieldFindings c fields entries, f.Telling
  | [], entries, _, f, hf => absurd hf List.not_mem_nil
  | (name, schema) :: rest, entries, hentries, f, hf => by
    rw [fieldFindings] at hf
    rcases List.mem_append.mp hf with hf | hf
    · split at hf
      · exact absurd hf List.not_mem_nil
      · next x hx =>
        obtain ⟨n, hmem⟩ := Value.mem_of_valueAt? hx
        have hnames := (Value.hasTextNames_of_mem_entries hentries hmem).2
        exact telling_inside (Step.isTelling_text name)
          (telling_of_mem_findings hc schema x hnames) hf
    · exact telling_of_mem_fieldFindings hc rest entries hentries f hf

end

end Schema

namespace Config

variable {c : Content}

/-- One of the findings in a document is picked, if there are any. -/
theorem select?_schema_total (hc : c.knots = []) (hnames : c.root.hasTextNames = true) :
    ∃ picked, Finding.select? (schema.findings c c.root) = .ok picked ∧
      (picked = none ↔ schema.findings c c.root = []) :=
  Finding.select?_total (Schema.telling_of_mem_findings hc schema c.root hnames)

end Config

end SemanticHighlight
