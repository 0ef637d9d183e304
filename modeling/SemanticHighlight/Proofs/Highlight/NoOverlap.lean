import Mathlib
import SemanticHighlight.Proofs.Highlight.Visit
import SemanticHighlight.Proofs.Position.Embedding
import SemanticHighlight.Proofs.Token.Apart

/-!
# Highlighting never overlaps

If the captures of every text are stretches of it, if those of its highlight query are nested or
apart and if the regions in which something was found lie apart, then the tokens of a document do not
overlap (`highlight_apart`). The invariant is that the tokens of a visit lie apart and within the
reach of its text. Moving a text to where it came from carries its reach to the range of its region,
so what the invariant says of a region is what merging asks of an injection.
-/

namespace SemanticHighlight

open LineIndex (ofText ofOffset_eq)

/-- Everything from the beginning to the end of a text. -/
def Text.reach (t : Text) : Range := ⟨Position.origin, Text.extent t, Text.origin_le_extent t⟩

namespace Capture

/-- The capture is a stretch of characters of the text, with its range and its characters. -/
def IsStretchOf (c : Capture) (t : Text) : Prop :=
  ∃ i j : Nat, i ≤ j ∧ j ≤ t.length ∧ (ofText t).rangeOf i j = .ok c.range ∧ c.text = t.slice i j

variable {c : Capture} {t : Text}

theorem IsStretchOf.extents (h : c.IsStretchOf t) : ∃ i j : Nat, i ≤ j ∧ j ≤ t.length ∧
    c.range.start = Text.extent (t.take i) ∧ c.range.stop = Text.extent (t.take j) ∧
      c.text = t.slice i j := by
  obtain ⟨i, j, hij, hj, hrange, htext⟩ := h
  rw [LineIndex.rangeOf_eq hij hj, Except.ok.injEq] at hrange
  exact ⟨i, j, hij, hj, hrange ▸ rfl, hrange ▸ rfl, htext⟩

theorem IsStretchOf.within (h : c.IsStretchOf t) : t.reach.covers c.range := by
  obtain ⟨i, j, -, hj, hstart, hstop, -⟩ := h.extents
  rw [Range.covers_iff]
  refine ⟨hstart ▸ Text.origin_le_extent _, hstop ▸ ?_⟩
  have hle := Text.extent_take_le t hj
  rwa [List.take_length] at hle

/-- Moved to where it was taken from, the text of a capture reaches over the range of the capture. -/
theorem IsStretchOf.reach_translate (h : c.IsStretchOf t) :
    c.text.reach.translate c.range.start = c.range := by
  obtain ⟨i, j, hij, -, hstart, hstop, htext⟩ := h.extents
  apply Range.ext (Position.origin_translate _)
  rw [hstop, ← Text.take_append_slice t hij, Text.extent_append, ← hstart, ← htext]
  rfl

/-- The capture of so many characters from one on, which is given by its number. -/
def ofStretch (name t : Text) (start width : Nat) : Capture where
  name
  range := ⟨Text.extent (t.take start), Text.extent (t.take (start + width)),
    Text.extent_take_le t (Nat.le_add_right start width)⟩
  text := t.slice start (start + width)

section Stretches

variable {name other : Text} {i j k l : Nat}

theorem isStretchOf_ofStretch (h : i + k ≤ t.length) : (ofStretch name t i k).IsStretchOf t :=
  ⟨i, i + k, Nat.le_add_right i k, h, LineIndex.rangeOf_eq (Nat.le_add_right i k) h, rfl⟩

theorem ofStretch_covers (hstart : i ≤ j) (hstop : j + l ≤ i + k) :
    (ofStretch name t i k).range.covers (ofStretch other t j l).range := by
  rw [Range.covers_iff]
  exact ⟨Text.extent_take_le t hstart, Text.extent_take_le t hstop⟩

theorem ofStretch_apart (h : i + k ≤ j) :
    (ofStretch name t i k).range.Apart (ofStretch other t j l).range := by
  rw [Range.apart_iff]
  exact Or.inr (Text.extent_take_le t h)

end Stretches

end Capture

namespace Provider

variable {World Grammar Query : Type} {provider : Provider World Grammar Query}
  {v : Visit World Grammar Query} {lang t : Text} {s s' : Session World Grammar Query}
  {tokens : List Token}

/-- What an engine promises about the captures of one text. -/
structure TreeContract (provider : Provider World Grammar Query) (v : Visit World Grammar Query) :
    Prop where
  highlights : ∀ found, provider.Highlights v found → ∀ m ∈ found, ∀ c ∈ m.captures,
    c.IsStretchOf v.text
  nested : ∀ found, provider.Highlights v found → ∀ m ∈ found, ∀ c ∈ m.captures, ∀ n ∈ found,
    ∀ d ∈ n.captures, c.range.NestedOrApart d.range
  marks : ∀ found s, provider.Marks v found s → ∀ m ∈ found, ∀ c ∈ m.captures, c.IsStretchOf v.text
  regions : ∀ injections, provider.Injects v injections → injections.Pairwise fun i j =>
    i.tokens ≠ [] → j.tokens ≠ [] → ¬ i.range.intersects j.range

theorem TreeContract.own_settled (h : provider.TreeContract v) {found : List Match} {own : List Token}
    (hfound : provider.Highlights v found)
    (hown : Token.normalize (classify provider.legend v.binding found).1 = .ok own) :
    Token.Settled v.text.reach own := by
  refine Token.normalize_settled (fun u hu w hw => ?_) (fun u hu => ?_) hown
  · obtain ⟨m, hm, c, hc, hrange⟩ := mem_classify hu
    obtain ⟨n, hn, d, hd, hrange'⟩ := mem_classify hw
    rw [hrange, hrange']
    exact h.nested found hfound m hm c hc n hn d hd
  · obtain ⟨m, hm, c, hc, hrange⟩ := mem_classify hu
    rw [hrange]
    exact (h.highlights found hfound m hm c hc).within

/-- One text: what holds of the regions in it carries over to all of it. -/
theorem TreeContract.settled (h : provider.TreeContract v)
    (hregions : ∀ w, provider.Nests v w → ∀ {tokens s'}, provider.outcomeOf w = (.ok tokens, s') →
      Token.Settled w.text.reach tokens)
    (htokens : provider.outcomeOf v = (.ok tokens, s')) : Token.Settled v.text.reach tokens := by
  rcases outcomeOf_ok htokens with rfl | ⟨found, own, hfound, hown, hcase⟩
  · exact Token.Settled.nil _
  · have hsettled := h.own_settled hfound hown
    rcases hcase with rfl | ⟨injections, hinjects, rfl⟩
    · exact hsettled
    · refine Token.merge_settled hsettled (fun i hi => ?_) (fun i hi => ?_)
        (h.regions injections hinjects)
      · obtain ⟨marked, s₁, m, w, region, inner, s₂, hmarks, hm, hc, hnests, htext, hinner, rfl⟩ :=
          hinjects.mem hi
        have hstretch := h.marks marked s₁ hmarks m hm _ hc
        have hmoved := (hregions w hnests hinner).translate region.content.range.start
        rwa [htext, hstretch.reach_translate] at hmoved
      · obtain ⟨marked, s₁, m, w, region, inner, s₂, hmarks, hm, hc, -, -, -, rfl⟩ := hinjects.mem hi
        exact (h.marks marked s₁ hmarks m hm _ hc).within

theorem outcomeOf_settled
    (hcontract : ∀ w, Relation.ReflTransGen provider.Nests v w → provider.TreeContract w)
    (htokens : provider.outcomeOf v = (.ok tokens, s')) : Token.Settled v.text.reach tokens := by
  induction v using visit_induction generalizing tokens s' with
  | step v ih =>
    refine (hcontract v .refl).settled (fun w hw _ _ hinner => ?_) htokens
    exact ih w hw (fun u hu => hcontract u (.head hw hu)) hinner

/-- Whatever is highlighted, however deep regions nest and however many lines captures span: no two
tokens of a document overlap. -/
theorem highlight_apart (hcontract : ∀ v, provider.Visits lang t s v → provider.TreeContract v)
    (h : (provider.highlight lang t).outcome s = (.ok tokens, s')) :
    tokens.Pairwise fun a b => ¬ a.range.intersects b.range := by
  obtain ⟨first, found, s₁, hstarts, hfound, rfl⟩ := highlight_ok h
  have hsettled := outcomeOf_settled (fun w hw => hcontract w ⟨first, hstarts, hw⟩) hfound
  exact (Token.sort_perm found).symm.pairwise hsettled.apart fun hapart => Token.Apart.symm hapart

/-- Injections lie apart if what different matches capture does. -/
theorem Injects.apart {injections : List Injection} (h : provider.Injects v injections)
    (hmarks : ∀ found s, provider.Marks v found s → found.Pairwise fun m n =>
      ∀ c ∈ m.captures, ∀ d ∈ n.captures, c.range.Apart d.range) :
    injections.Pairwise fun i j => i.range.Apart j.range := by
  obtain ⟨found, s₁, results, s₂, hfound, hresults, rfl⟩ := h
  rw [List.pairwise_filterMap]
  apply Attempt.mapM_ok_pairwise hresults (hmarks found s₁ hfound)
  rintro m n _ _ hapart ⟨_, _, hm⟩ ⟨_, _, hn⟩ i rfl j rfl
  obtain ⟨_, left, _, _, -, hleft, -, rfl⟩ := injectionOf_eq_some hm
  obtain ⟨_, right, _, _, -, hright, -, rfl⟩ := injectionOf_eq_some hn
  exact hapart _ (content_mem hleft) _ (content_mem hright)

/-! ## A document in halves

An engine that finds all of a text, its first half and nothing at its middle. What follows the first
character it marks as two regions in the same language. -/

def halvesTokens (t : Text) : Match :=
  ⟨0, [.ofStretch "string" t 0 t.length, .ofStretch "keyword" t 0 (t.length / 2),
    .ofStretch "comment" t (t.length / 2) 0], []⟩

def halvesRegion (t : Text) (start width : Nat) : Match :=
  ⟨0, [.ofStretch Match.contentName t start width], [(Match.languageKey, some "halves")]⟩

def halvesFound (t : Text) : Bool → List Match
  | false => [halvesTokens t]
  | true =>
    let half := t.length / 2
    if half = 0 then []
    else [halvesRegion t 1 (half - 1), halvesRegion t half (t.length - half)]

def halvesProvider : Provider Unit Unit Bool where
  engine :=
    { parses _ _ := true
      search regions t := .ok (halvesFound t regions) }
  load config := pure (.ok ⟨config.lang, (), false, some true, none⟩, [])
  legend := .standard
  maxDepth := 10

theorem isStretchOf_of_halvesFound {regions : Bool} {m : Match} {c : Capture}
    (hm : m ∈ halvesFound t regions) (hc : c ∈ m.captures) : c.IsStretchOf t := by
  cases regions with
  | false =>
    obtain rfl := List.mem_singleton.mp hm
    simp only [halvesTokens, List.mem_cons, List.not_mem_nil, or_false] at hc
    rcases hc with rfl | rfl | rfl
    all_goals exact Capture.isStretchOf_ofStretch (by omega)
  | true =>
    simp only [halvesFound] at hm
    split_ifs at hm with hhalf
    · cases hm
    · simp only [List.mem_cons, List.not_mem_nil, or_false] at hm
      rcases hm with rfl | rfl
      all_goals
        obtain rfl := List.mem_singleton.mp hc
        exact Capture.isStretchOf_ofStretch (by omega)

theorem nestedOrApart_of_halvesFound {regions : Bool} :
    ((halvesFound t regions).flatMap Match.captures).Pairwise fun c d =>
      c.range.NestedOrApart d.range := by
  cases regions with
  | false =>
    have hhalf := Nat.div_le_self t.length 2
    simp only [halvesFound, halvesTokens, List.flatMap_singleton, List.pairwise_cons,
      List.forall_mem_cons]
    refine ⟨⟨?_, ?_, by simp⟩, ⟨?_, by simp⟩, by simp⟩
    all_goals exact Or.inl (Capture.ofStretch_covers (by omega) (by omega))
  | true =>
    simp only [halvesFound]
    split_ifs with hhalf
    · exact List.Pairwise.nil
    · simp only [halvesRegion, List.flatMap_cons, List.flatMap_nil, List.cons_append, List.nil_append,
        List.append_nil, List.pairwise_cons, List.forall_mem_singleton]
      refine ⟨?_, by simp⟩
      exact Or.inr (Or.inr (Capture.ofStretch_apart (by omega)))

theorem apart_of_halvesFound {regions : Bool} : (halvesFound t regions).Pairwise fun m n =>
    ∀ c ∈ m.captures, ∀ d ∈ n.captures, c.range.Apart d.range := by
  cases regions with
  | false => exact List.pairwise_singleton _ _
  | true =>
    simp only [halvesFound]
    split_ifs with hhalf
    · exact List.Pairwise.nil
    · simp only [halvesRegion, List.pairwise_cons, List.forall_mem_singleton]
      exact ⟨Capture.ofStretch_apart (by omega), by simp⟩

theorem halvesProvider_contract (v : Visit Unit Unit Bool) : halvesProvider.TreeContract v where
  highlights found hfound := by
    cases hfound.2
    exact fun m hm c hc => isStretchOf_of_halvesFound hm hc
  nested found hfound := by
    cases hfound.2
    intro m hm c hc n hn d hd
    have : Std.Symm fun c d : Capture => c.range.NestedOrApart d.range := ⟨fun _ _ h => h.symm⟩
    have hmem : c ∈ (halvesFound v.text v.binding.highlights).flatMap Match.captures :=
      List.mem_flatMap.mpr ⟨m, hm, hc⟩
    have hmem' : d ∈ (halvesFound v.text v.binding.highlights).flatMap Match.captures :=
      List.mem_flatMap.mpr ⟨n, hn, hd⟩
    exact nestedOrApart_of_halvesFound.forall_of_forall (fun c _ => .refl c.range) hmem hmem'
  marks found s hmarks := by
    obtain ⟨regions, -, hsearch⟩ := hmarks
    cases hsearch
    exact fun m hm c hc => isStretchOf_of_halvesFound hm hc
  regions injections hinjects := by
    refine (hinjects.apart fun found s hmarks => ?_).imp fun hapart _ _ => hapart
    obtain ⟨regions, -, hsearch⟩ := hmarks
    cases hsearch
    exact apart_of_halvesFound

/-- Two lines with a pair of surrogates, and texts four deep. Each has captures within one another, one
of them empty, and, of more than one character, two regions side by side. -/
theorem highlight_apart_halves :
    let t : Text := [97, 98, 10, 0x1F600, 99]
    let s : Session Unit Unit Bool :=
      .ofConfigs () [⟨"halves", "halves.so", "halves.scm", none, false, none, none⟩]
    (∀ v, halvesProvider.Visits "halves" t s v → halvesProvider.TreeContract v) ∧
      ∃ tokens s', (halvesProvider.highlight "halves" t).outcome s = (.ok tokens, s') ∧
        tokens.length = 9 ∧ tokens.Pairwise fun a b => ¬ a.range.intersects b.range := by
  intro t s
  have hcontract : ∀ v, halvesProvider.Visits "halves" t s v → halvesProvider.TreeContract v :=
    fun v _ => halvesProvider_contract v
  have hlength : ((halvesProvider.highlight "halves" t).outcome s).1.toOption.map List.length =
      some 9 := by
    cbv
  cases hrun : (halvesProvider.highlight "halves" t).outcome s with
  | mk result s' =>
    rw [hrun] at hlength
    cases result with
    | error e => cases hlength
    | ok tokens =>
      exact ⟨hcontract, tokens, s', rfl, Option.some.inj hlength, highlight_apart hcontract hrun⟩

end Provider
end SemanticHighlight
