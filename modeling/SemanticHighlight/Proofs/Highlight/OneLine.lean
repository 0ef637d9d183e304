import SemanticHighlight.Proofs.Highlight.Visit
import SemanticHighlight.Proofs.Token.OneLine

/-!
# Documents line by line

Nothing is asked of the engine here: captures may cross each other and regions may overlap. Still
every token of a document stays on one line, the tokens come in ascending order, and those with one
start in the order in which merging left them (`highlight_singleLine_sorted`). That they stay on one
line is an invariant of visits: the text of a region hands on single-line tokens, moving them to the
region keeps that, and so does clipping and merging around it.
-/

namespace SemanticHighlight.Provider

variable {World Grammar Query : Type} {provider : Provider World Grammar Query}
  {v : Visit World Grammar Query} {lang t : Text} {s s' : Session World Grammar Query}
  {tokens own : List Token} {injections : List Injection}

open Token (SingleLine)

theorem Parts.own_singleLine (h : provider.Parts v own injections) : SingleLine own := by
  cases h with
  | unread hparses => exact fun u hu => absurd hu List.not_mem_nil
  | plain hfound hown hquery => exact Token.normalize_singleLine hown
  | injected hfound hown hinjects => exact Token.normalize_singleLine hown

theorem Parts.injections_singleLine (h : provider.Parts v own injections)
    (hregions : ∀ w, provider.Nests v w → ∀ {tokens s'}, provider.outcomeOf w = (.ok tokens, s') →
      SingleLine tokens) : ∀ i ∈ injections, SingleLine i.tokens := by
  cases h with
  | unread hparses => exact fun i hi => absurd hi List.not_mem_nil
  | plain hfound hown hquery => exact fun i hi => absurd hi List.not_mem_nil
  | injected hfound hown hinjects =>
    intro i hi
    obtain ⟨marked, s₁, m, w, region, inner, s₂, -, -, -, hnests, -, hinner, rfl⟩ :=
      hinjects.mem hi
    have hsingle : SingleLine inner := hregions w hnests hinner
    exact hsingle.translate region.content.range.start

theorem outcomeOf_singleLine (h : provider.outcomeOf v = (.ok tokens, s')) : SingleLine tokens := by
  induction v using visit_induction generalizing tokens s' with
  | step v ih =>
    obtain ⟨own, injections, hparts, rfl⟩ := outcomeOf_parts h
    have hinjections := hparts.injections_singleLine fun w hw _ _ hinner => ih w hw hinner
    exact Token.merge_singleLine hparts.own_singleLine hinjections

/-- Whatever engine, nesting and text: the tokens of a document stay on one line each and ascend, and
tokens with one start stand as in the merged tokens of the document's text. -/
theorem highlight_singleLine_sorted
    (h : (provider.highlight lang t).outcome s = (.ok tokens, s')) :
    (∀ u ∈ tokens, u.range.isSingleLine = true) ∧
      (tokens.Pairwise fun u w => u.range.start ≤ w.range.start) ∧
      ∃ first own injections, provider.Starts lang t s first ∧
        provider.Parts first own injections ∧
        ∀ p, (tokens.filter fun u => decide (u.range.start = p)) =
          (Token.merge own injections).filter fun u => decide (u.range.start = p) := by
  obtain ⟨first, found, s₁, hstarts, hfound, rfl⟩ := highlight_ok h
  obtain ⟨own, injections, hparts, rfl⟩ := outcomeOf_parts hfound
  refine ⟨?_, Token.sort_ascending _, first, own, injections, hstarts, hparts, ?_⟩
  · intro u hu
    have hmem := (Token.sort_perm (Token.merge own injections)).mem_iff.mp hu
    exact outcomeOf_singleLine hfound u hmem
  · intro p
    exact Token.sort_filter_start _ p

/-! ## Regions that cross

An engine that keeps no order: it finds a token over three lines, and two regions that share a
stretch and are not where their texts come from. -/

def crossingRegion (range : Range) : Match :=
  ⟨0, [⟨Match.contentName, range, "a"⟩], [(Match.languageKey, some "crossing")]⟩

/-- Reports the same token for every text, and regions for texts of more than one character. -/
def crossingEngine : Engine Unit Bool where
  parses _ _ := true
  search regions t :=
    if regions = true then
      .ok (if t.length ≤ 1 then [] else
        [crossingRegion ⟨⟨0, 1⟩, ⟨1, 1⟩, by decide⟩, crossingRegion ⟨⟨1, 0⟩, ⟨1, 2⟩, by decide⟩])
    else .ok [⟨0, [⟨"string", ⟨⟨0, 0⟩, ⟨2, 1⟩, by decide⟩, t⟩], []⟩]

def crossingProvider : Provider Unit Unit Bool where
  engine := crossingEngine
  load config := pure (.ok ⟨config.lang, (), false, some true, none⟩, [])
  legend := .standard
  maxDepth := 2

/-- Every text adds fragments on three lines, wherever its region is. -/
theorem highlight_singleLine_sorted_crossing :
    let t : Text := [97, 98, 10, 97, 98, 99, 10, 97]
    let s : Session Unit Unit Bool :=
      .ofConfigs () [⟨"crossing", "crossing.so", "crossing.scm", none, false, none, none⟩]
    ∃ tokens s', (crossingProvider.highlight "crossing" t).outcome s = (.ok tokens, s') ∧
      (∀ u ∈ tokens, u.range.isSingleLine = true) ∧
      tokens.Pairwise fun u w => u.range.start ≤ w.range.start := by
  intro t s
  have hok : ((crossingProvider.highlight "crossing" t).outcome s).1.toOption.isSome = true := by
    decide +kernel
  cases hrun : (crossingProvider.highlight "crossing" t).outcome s with
  | mk result s' =>
    cases result with
    | error e => simp [hrun, Except.toOption] at hok
    | ok tokens =>
      obtain ⟨hsingle, hascending, -⟩ := highlight_singleLine_sorted hrun
      exact ⟨tokens, s', rfl, hsingle, hascending⟩

end SemanticHighlight.Provider
