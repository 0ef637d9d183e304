import SemanticHighlight.Proofs.Engine.Nodes
import SemanticHighlight.Proofs.Highlight.Caching
import SemanticHighlight.Proofs.Position.Offset
import SemanticHighlight.Proofs.Token.Apart

/-!
# When highlighting ends in an inverted range

A text breaks the work on it if the engine reports an inverted range for it or if one of its tokens
cannot be cut into lines; nothing else turns a range around. Whatever the order in which regions are
worked on, a request that ends in an inverted range has come to a text that breaks, and it does not come
to tokens if it can come to one (`ends_errand_inverted`). With nodes that are in order only the cutting is
left, and it fails for exactly one reason: a token that begins beyond the artificial end of lines and goes
on to another line (`inverted_of_uncuttable`).
-/

namespace SemanticHighlight

open Relation

variable {World Grammar Query : Type}

namespace Provider

open Session

variable {provider : Provider World Grammar Query} {configs : List LanguageConfig}
  {generation n : Nat} {tells : Load → Except LoadError (Binding Grammar Query) → Prop}
  {marks : Match → Region Grammar Query → Prop} {binding : Binding Grammar Query} {lang t : Text}
  {answer : LanguageConfig → Except LoadError (Binding Grammar Query)} {r : Reading Grammar Query}
  {start next : Nat × Reading Grammar Query} {e : InvertedRange} {error : HighlightError} {m : Match}

/-! ## Texts within each other -/

/-- From a text to that of a region in it, with how deep regions may nest there. -/
inductive Enters (provider : Provider World Grammar Query)
    (marks : Match → Region Grammar Query → Prop) :
    Nat × Reading Grammar Query → Nat × Reading Grammar Query → Prop
  | region {n : Nat} {r : Reading Grammar Query} {m : Match} {region : Region Grammar Query}
      (hfinds : provider.Finds r m) (hmarks : marks m region) :
      Enters provider marks (n + 1, r) (n, region.reading)

/-- The second text is one that the work on the first comes to. -/
abbrev Reaches (provider : Provider World Grammar Query) (marks : Match → Region Grammar Query → Prop) :
    Nat × Reading Grammar Query → Nat × Reading Grammar Query → Prop :=
  ReflTransGen (Enters provider marks)

/-- The regions that matches come to, as loads told. -/
abbrev Told (configs : List LanguageConfig) (generation : Nat)
    (tells : Load → Except LoadError (Binding Grammar Query) → Prop) (m : Match)
    (region : Region Grammar Query) : Prop :=
  Yields configs generation tells true m (some region)

/-- There is an inverted range in what the engine reports for the text, or a token of it cannot be cut
into lines. -/
inductive Breaks (provider : Provider World Grammar Query) (r : Reading Grammar Query) :
    InvertedRange → Prop
  | highlights {e : InvertedRange} (hparses : provider.engine.parses r.binding.grammar r.text = true)
      (hsearch : provider.engine.search r.binding.highlights r.text = .error e) : Breaks provider r e
  | lines {found : List Match} {e : InvertedRange}
      (hparses : provider.engine.parses r.binding.grammar r.text = true)
      (hsearch : provider.engine.search r.binding.highlights r.text = .ok found)
      (hcut : Token.normalize (classify provider.legend r.binding found).1 = .error e) :
      Breaks provider r e
  | injections {query : Query} {e : InvertedRange}
      (hparses : provider.engine.parses r.binding.grammar r.text = true)
      (hquery : r.binding.injections = some query)
      (hsearch : provider.engine.search query r.text = .error e) : Breaks provider r e

/-- No text that the work comes to breaks it, given what languages load to. -/
def Clean (provider : Provider World Grammar Query) (configs : List LanguageConfig)
    (answer : LanguageConfig → Except LoadError (Binding Grammar Query))
    (start : Nat × Reading Grammar Query) : Prop :=
  ∀ last, Reaches provider (fun m region => m.region? configs answer = some region) start last →
    ∀ e, ¬ Breaks provider last.2 e

/-- The work fails in an inverted range of a text that it comes to, or a match of such a text stops
it. -/
inductive FailsIn (provider : Provider World Grammar Query) (configs : List LanguageConfig)
    (generation : Nat) (tells : Load → Except LoadError (Binding Grammar Query) → Prop)
    (start : Nat × Reading Grammar Query) : HighlightError → Prop
  | inverted {last : Nat × Reading Grammar Query} {e : InvertedRange}
      (hreaches : Reaches provider (Told configs generation tells) start last)
      (hbreaks : Breaks provider last.2 e) :
      FailsIn provider configs generation tells start (.inverted e)
  | stopped {last : Nat × Reading Grammar Query} {m : Match} {error : HighlightError}
      (hreaches : Reaches provider (Told configs generation tells) start last)
      (hfinds : provider.Finds last.2 m)
      (hstops : Stops provider configs generation tells (decide (0 < last.1)) m error) :
      FailsIn provider configs generation tells start error

theorem clean_of_enters (hbreaks : ∀ e, ¬ Breaks provider start.2 e)
    (hnext : ∀ next, Enters provider (fun m region => m.region? configs answer = some region) start next →
      Clean provider configs answer next) : Clean provider configs answer start := by
  intro last hreaches
  rcases ReflTransGen.cases_head hreaches with rfl | ⟨next, henters, hrest⟩
  · exact hbreaks
  · exact hnext next henters last hrest

theorem clean_of_finds (hbreaks : ∀ e, ¬ Breaks provider r e) (hfinds : ∀ m, ¬ provider.Finds r m) :
    Clean provider configs answer (n, r) := by
  apply clean_of_enters hbreaks
  intro next henters
  cases henters with
  | region hfound _ => exact absurd hfound (hfinds _)

theorem FailsIn.of_enters (henters : Enters provider (Told configs generation tells) start next)
    (h : FailsIn provider configs generation tells next error) :
    FailsIn provider configs generation tells start error := by
  cases h with
  | inverted hreaches hbreaks => exact .inverted (.head henters hreaches) hbreaks
  | stopped hreaches hfinds hstops => exact .stopped (.head henters hreaches) hfinds hstops

/-! ## Errands -/

def deeperErrand (provider : Provider World Grammar Query) :
    Nat → Option (Binding Grammar Query → Text → Errand World Grammar Query (List Token))
  | 0 => none
  | budget + 1 => some (provider.tokensErrand budget)

theorem tokensErrand_eq (budget : Nat) :
    provider.tokensErrand budget = provider.tokensErrandWith (provider.deeperErrand budget) := by
  cases budget with
  | zero => rfl
  | succ budget => rfl

def Settles (provider : Provider World Grammar Query) (configs : List LanguageConfig)
    (generation : Nat) (tells : Load → Except LoadError (Binding Grammar Query) → Prop)
    (start : Nat × Reading Grammar Query) : Prop :=
  (provider.tokensErrand start.1 start.2.binding start.2.text).Ends
    (Answering configs generation tells) tells
    (fun _ => ∀ answer, Tells answer generation tells → Clean provider configs answer start)
    (FailsIn provider configs generation tells start)

theorem outcome_ownTokens (binding : Binding Grammar Query) (t : Text)
    (s : Session World Grammar Query) :
    ((provider.ownTokens binding t).outcome s).1 =
      ((provider.engine.search binding.highlights t).bind fun found =>
        Token.normalize (classify provider.legend binding found).1).mapError .inverted := by
  unfold ownTokens
  cases provider.engine.search binding.highlights t with
  | error e => rfl
  | ok found => rfl

theorem ends_ownTokens_breaks (hparses : provider.engine.parses r.binding.grammar r.text = true) :
    (Strand.sync (provider.ownTokens r.binding r.text)).Ends (Answering configs generation tells) tells
      (fun _ => ∃ found own, provider.engine.search r.binding.highlights r.text = .ok found ∧
        Token.normalize (classify provider.legend r.binding found).1 = .ok own)
      (FailsIn provider configs generation tells (n, r)) := by
  apply Strand.ends_sync
  intro s _
  have houtcome : ((provider.ownTokens r.binding r.text).run.run s).1 = _ :=
    outcome_ownTokens r.binding r.text s
  rw [houtcome]
  cases hsearch : provider.engine.search r.binding.highlights r.text with
  | error e => exact .inverted .refl (.highlights hparses hsearch)
  | ok found =>
    rw [Except.bind]
    cases hcut : Token.normalize (classify provider.legend r.binding found).1 with
    | error e => exact .inverted .refl (.lines hparses hsearch hcut)
    | ok own => exact ⟨found, own, rfl, hcut⟩

/-- One match: a region that it comes to is clean, as far as regions may nest. -/
theorem ends_injectionErrand_inverted (hfinds : provider.Finds r m)
    (ih : ∀ k, n = k + 1 → ∀ r, Settles provider configs generation tells (k, r)) :
    (provider.injectionErrand (provider.deeperErrand n) m).Ends (Answering configs generation tells) tells
      (fun _ => ∀ answer, Tells answer generation tells → ∀ k region, n = k + 1 →
        m.region? configs answer = some region → Clean provider configs answer (k, region.reading))
      (FailsIn provider configs generation tells (n, r)) := by
  have hnest : (provider.deeperErrand n).isSome = decide (0 < n) := by
    cases n with
    | zero => rfl
    | succ k => simp [deeperErrand]
  refine Strand.ends_bind ((ends_regionErrand _ m).imp (fun _ h => h) fun error hstops => ?_) ?_
  · rw [hnest] at hstops
    exact .stopped .refl hfinds hstops
  · intro found hyields
    cases found with
    | none =>
      refine Strand.ends_pure fun answer htells k region _ hregion => ?_
      rw [← hyields.eq_region? htells] at hregion
      cases hregion
    | some region =>
      cases n with
      | zero => exact nomatch hyields
      | succ k =>
        refine Strand.ends_bind ((ih k rfl region.reading).imp (fun _ h => h) fun error hfails => ?_) ?_
        · exact hfails.of_enters (.region hfinds hyields)
        · intro tokens hclean
          refine Strand.ends_pure fun answer htells l other hl hregion => ?_
          obtain rfl := Nat.succ.inj hl
          rw [← hyields.eq_region? htells] at hregion
          obtain rfl := Option.some.inj hregion
          exact hclean answer htells

theorem ends_injectionsErrand_inverted {query : Query}
    (hparses : provider.engine.parses r.binding.grammar r.text = true)
    (hquery : r.binding.injections = some query)
    (ih : ∀ k, n = k + 1 → ∀ r, Settles provider configs generation tells (k, r)) :
    (provider.injectionsErrand (provider.deeperErrand n) query r.text).Ends
      (Answering configs generation tells) tells
      (fun _ => (∃ found, provider.engine.search query r.text = .ok found) ∧
        ∀ answer, Tells answer generation tells → ∀ next,
          Enters provider (fun m region => m.region? configs answer = some region) (n, r) next →
            Clean provider configs answer next)
      (FailsIn provider configs generation tells (n, r)) := by
  unfold injectionsErrand
  have hsearch : (Strand.sync (Attempt.checked (provider.engine.search query r.text)) :
      Errand World Grammar Query _).Ends
      (Answering configs generation tells) tells
      (fun found => provider.engine.search query r.text = .ok found)
      (FailsIn provider configs generation tells (n, r)) := by
    apply ends_sync_of
    exact Attempt.ends_checked (fun found h => h) fun e h =>
      .inverted .refl (.injections hparses hquery h)
  refine Strand.ends_bind hsearch fun found hfound => ?_
  have hall := Strand.ends_forAll fun m (hm : m ∈ found) =>
    ends_injectionErrand_inverted ⟨hparses, query, found, hquery, hfound, hm⟩ ih
  refine Strand.ends_bind hall fun results hresults => Strand.ends_pure ⟨⟨found, hfound⟩, ?_⟩
  intro answer htells next henters
  have heach := ((List.forall₂_and_left found results).mp (hresults.imp fun m result h => ⟨h, trivial⟩)).1
  generalize hstart : (n, r) = start at henters
  cases henters with
  | region hfinds hregion =>
    obtain ⟨rfl, rfl⟩ := Prod.mk.inj hstart
    obtain ⟨-, query', found', hquery', hfound', hm⟩ := hfinds
    obtain rfl := Option.some.inj (hquery.symm.trans hquery')
    obtain rfl := Except.ok.inj (hfound.symm.trans hfound')
    exact heach _ hm answer htells _ _ rfl hregion

/-- One text, once the texts of its regions are known to end as stated. -/
theorem settles_step (ih : ∀ k, n = k + 1 → ∀ r, Settles provider configs generation tells (k, r))
    (r : Reading Grammar Query) : Settles provider configs generation tells (n, r) := by
  unfold Settles
  rw [tokensErrand_eq]
  unfold tokensErrandWith
  by_cases hparses : provider.engine.parses r.binding.grammar r.text = true
  · rw [if_neg (by simp [hparses])]
    apply Strand.ends_bind (ends_ownTokens_breaks hparses)
    rintro tokens ⟨found, own, hsearch, hcut⟩
    have hown : ∀ e, Breaks provider r e → ∃ query, r.binding.injections = some query ∧
        provider.engine.search query r.text = .error e := by
      intro e hbreaks
      cases hbreaks with
      | highlights _ h => cases hsearch.symm.trans h
      | lines _ h hfails =>
        cases hsearch.symm.trans h
        cases hcut.symm.trans hfails
      | injections _ hquery h => exact ⟨_, hquery, h⟩
    cases hquery : r.binding.injections with
    | none =>
      refine Strand.ends_pure fun answer _ => clean_of_finds ?_ ?_
      · intro e hbreaks
        obtain ⟨query, hsome, -⟩ := hown e hbreaks
        cases hquery.symm.trans hsome
      · rintro m ⟨-, query, found, hsome, -⟩
        cases hquery.symm.trans hsome
    | some query =>
      apply Strand.ends_bind (ends_injectionsErrand_inverted hparses hquery ih)
      rintro injections ⟨⟨found', hfound⟩, hnext⟩
      refine Strand.ends_pure fun answer htells => clean_of_enters ?_ (hnext answer htells)
      intro e hbreaks
      obtain ⟨query', hsome, hfails⟩ := hown e hbreaks
      obtain rfl := Option.some.inj (hquery.symm.trans hsome)
      cases hfound.symm.trans hfails
  · rw [if_pos (by simpa using hparses)]
    refine Strand.ends_pure fun answer _ => clean_of_finds ?_ fun m hfinds => hparses hfinds.1
    intro e hbreaks
    cases hbreaks <;> contradiction

/-- By induction on how deep regions may nest. -/
theorem settles (n : Nat) (r : Reading Grammar Query) :
    Settles provider configs generation tells (n, r) := by
  induction n generalizing r with
  | zero => exact settles_step (fun k hk => absurd hk (Nat.succ_ne_zero k).symm) r
  | succ n ih =>
    apply settles_step ?_ r
    rintro k ⟨⟩
    exact ih

/-- A document that comes to tokens has no text that breaks. One that fails was not opened, or fails in
such a text, or is stopped at a match. -/
theorem ends_errand_inverted (lang t : Text) :
    (provider.errand lang t).Ends (Answering configs generation tells) tells
      (fun _ => ∀ answer, Tells answer generation tells → ∀ binding,
        answerTo configs answer lang = .ok binding →
          Clean provider configs answer (provider.maxDepth, ⟨binding, t⟩))
      fun error => (∃ e, Opens configs generation tells lang (.error e) ∧ error = .ofResolve e) ∨
        ∃ binding, Opens configs generation tells lang (.ok binding) ∧
          FailsIn provider configs generation tells (provider.maxDepth, ⟨binding, t⟩) error := by
  refine Strand.ends_bind ((ends_sync_of (ends_askDocument lang)).imp (fun _ h => h) ?_) ?_
  · rintro _ ⟨rfl, hconfig⟩
    exact Or.inl ⟨_, .unconfigured hconfig, rfl⟩
  · intro asked hleads
    refine Strand.ends_bind (ends_settle hleads) fun resolved hopens => ?_
    cases resolved with
    | error e => exact Or.inl ⟨e, hopens, rfl⟩
    | ok binding =>
      have htext : Settles provider configs generation tells (provider.maxDepth, ⟨binding, t⟩) :=
        settles provider.maxDepth ⟨binding, t⟩
      apply Strand.ends_bind (htext.imp (fun _ h => h) fun error h => Or.inr ⟨binding, hopens, h⟩)
      intro tokens hclean
      refine Strand.ends_bind (ends_sync_of (ends_report_of _)) fun _ _ => ?_
      refine Strand.ends_pure fun answer htells other hother => ?_
      obtain rfl := Except.ok.inj ((hopens.eq_answerTo htells).trans hother)
      exact hclean answer htells

/-! ## Nodes in order -/

/-- Some token of the text, what it contains left out, begins beyond the artificial end of lines and
goes on to another line. -/
def Uncuttable (provider : Provider World Grammar Query) (r : Reading Grammar Query) : Prop :=
  provider.engine.parses r.binding.grammar r.text = true ∧
    ∃ found, provider.engine.search r.binding.highlights r.text = .ok found ∧
      ∃ u ∈ Token.resolveContainment (Token.deduplicate (classify provider.legend r.binding found).1),
        u.range.start.line < u.range.stop.line ∧ Token.lineEnd < u.range.start.column

variable {source : NodeSource Grammar Query}

/-- Tokens begin and end where the captures of the text do, containment or not. -/
theorem resolved_withinLine (hengine : provider.engine = .ofNodes source) (hsource : source.Ordered)
    {found : List Match} (hfound : provider.engine.search r.binding.highlights r.text = .ok found) :
    ∀ u ∈ Token.resolveContainment (Token.deduplicate (classify provider.legend r.binding found).1),
      u.range.start.WithinLine r.text ∧ u.range.stop.WithinLine r.text := by
  apply Token.resolveContainment_ends
  intro u hu
  obtain ⟨m, hm, c, hc, hrange⟩ := mem_classify (Token.deduplicate_subset _ hu)
  rw [hrange]
  exact Engine.search_withinLine hsource (hengine ▸ hfound) m hm c hc

theorem exists_breaks_iff (hengine : provider.engine = .ofNodes source) (hsource : source.Ordered) :
    (∃ e, Breaks provider r e) ↔ provider.Uncuttable r := by
  have hsearch : ∀ query e, provider.engine.search query r.text ≠ .error e := by
    intro query e h
    obtain ⟨found, hfound⟩ := Engine.search_total hsource query r.text
    rw [hengine, hfound] at h
    cases h
  constructor
  · rintro ⟨e, h⟩
    cases h with
    | highlights _ h => exact absurd h (hsearch _ e)
    | injections _ _ h => exact absurd h (hsearch _ e)
    | lines hparses hfound hcut =>
      obtain ⟨u, hu, hsplit⟩ := Token.normalize_fails_iff.mp ⟨e, hcut⟩
      have hcolumn := (resolved_withinLine hengine hsource hfound u hu).2.1
      exact ⟨hparses, _, hfound, u, hu, (Token.split_eq_error hcolumn).mp hsplit⟩
  · rintro ⟨hparses, found, hfound, u, hu, hlong⟩
    have hcolumn := (resolved_withinLine hengine hsource hfound u hu).2.1
    obtain ⟨e, hcut⟩ :=
      Token.normalize_fails_iff.mpr ⟨u, hu, (Token.split_eq_error hcolumn).mpr hlong⟩
    exact ⟨e, .lines hparses hfound hcut⟩

theorem exists_line_of_column_gt {p : Position} (h : p.WithinLine t) {column : Int}
    (hcolumn : 0 ≤ column) (hlt : column < p.column) :
    ∃ line ∈ t.lines, column < line.utf16Length := by
  have hlong : column < (((LineIndex.ofText t).line p.line).utf16Length : Int) := hlt.trans_le h.2
  unfold LineIndex.line at hlong
  split_ifs at hlong
  · simp only [Text.utf16Length_nil] at hlong
    omega
  · cases hline : (LineIndex.ofText t).lines[p.line.toNat]? with
    | none =>
      simp only [hline, Option.getD_none, Text.utf16Length_nil] at hlong
      omega
    | some line =>
      rw [hline, Option.getD_some] at hlong
      exact ⟨line, by simpa [LineIndex.ofText] using Array.mem_of_getElem? hline, hlong⟩

/-- Requests come in from a blank scene on, and meanwhile the surroundings may change. Each is
answered if the scene goes on by itself. It ends in an inverted range only if it has come to a text
that cannot be cut; such a text has a line that is longer than the artificial end of lines. And if
loads of one entry have told the same, a request that can come to such a text fails, in an inverted
range or at a match that stops it. -/
theorem inverted_of_uncuttable (hengine : provider.engine = .ofNodes source) (hsource : source.Ordered)
    {edits : World → World → Prop} {before scene : Scene World Grammar Query} (hblank : before.Blank)
    (hrun : ReflTransGen (Scene.Step provider edits) before scene) :
    let configs := before.session.registry.configs
    let generation := before.session.registry.generation
    Inevitable (Scene.Move provider) Scene.Answered scene ∧
    (∀ r, provider.Uncuttable r → ∃ line ∈ r.text.lines, Token.lineEnd < line.utf16Length) ∧
    ∀ i request, before.requests.length ≤ i → scene.requests[i]? = some request →
      ∀ result, request.answer? = some result →
        (∀ e, result = .error (.inverted e) → ∃ binding last,
          Opens configs generation scene.Known request.lang (.ok binding) ∧
          Reaches provider (Told configs generation scene.Known)
            (provider.maxDepth, ⟨binding, request.text⟩) last ∧
          provider.Uncuttable last.2) ∧
        ∀ answer, Tells answer generation scene.Known → ∀ binding last,
          answerTo configs answer request.lang = .ok binding →
          Reaches provider (fun m region => m.region? configs answer = some region)
            (provider.maxDepth, ⟨binding, request.text⟩) last →
          provider.Uncuttable last.2 →
          ∃ error, result = .error error ∧
            FailsIn provider configs generation scene.Known
              (provider.maxDepth, ⟨binding, request.text⟩) error := by
  intro configs generation
  refine ⟨?_, ?_, ?_⟩
  · exact (Scene.orderly_of_run hblank.orderly (Scene.turns_of_steps hrun)).inevitable
  · rintro r ⟨-, found, hfound, u, hu, -, hlong⟩
    have hwithin := (resolved_withinLine hengine hsource hfound u hu).1
    exact exists_line_of_column_gt hwithin (by decide) hlong
  · intro i request hi hrequest result hanswer
    have hmeets := ((hblank.follows scene.Known _ _).run hrun ends_errand_inverted
      fun _ _ hknown => hknown).meets hi hrequest hanswer
    constructor
    · rintro e rfl
      rcases hmeets with ⟨_ | _, -, herror⟩ | ⟨binding, hopens, hfails⟩
      · cases herror
      · cases herror
      · cases hfails with
        | inverted hreaches hbreaks =>
          exact ⟨binding, _, hopens, hreaches, (exists_breaks_iff hengine hsource).mp ⟨e, hbreaks⟩⟩
        | stopped _ _ hstops => cases hstops
    · intro answer htells binding last hbinding hreaches huncuttable
      obtain ⟨e, hbreaks⟩ := (exists_breaks_iff hengine hsource).mpr huncuttable
      cases result with
      | ok tokens => exact absurd hbreaks (hmeets answer htells binding hbinding last hreaches e)
      | error error =>
        refine ⟨error, rfl, ?_⟩
        rcases hmeets with ⟨e, hopens, -⟩ | ⟨other, hopens, hfails⟩
        · cases (hopens.eq_answerTo htells).trans hbinding
        · obtain rfl := Except.ok.inj ((hopens.eq_answerTo htells).trans hbinding)
          exact hfails

/-! ## A long first line

A source whose only node begins before the line feed of the last but one character. -/

/-- Finds the last two characters of a text, a line feed and one more. -/
def lastTwoSource : NodeSource Unit Unit where
  parses _ _ := true
  search _ t _ :=
    [⟨0, [("string", ⟨⟨0, (t.length - 2 : Nat)⟩, ⟨1, 1⟩, t.length - 2, t.length⟩)], []⟩]

theorem lastTwoSource_ordered : lastTwoSource.Ordered := by
  intro query t found hfound named hnamed
  rw [List.mem_singleton.mp hfound] at hnamed
  rw [List.mem_singleton.mp hnamed]
  have hnonneg : (0 : Int) ≤ 1 := by decide
  exact ⟨le_rfl, Int.natCast_nonneg _, hnonneg, hnonneg, Or.inl Int.one_pos⟩

def lastTwoProvider : Provider Unit Unit Unit where
  engine := .ofNodes lastTwoSource
  load config := pure (.ok ⟨config.lang, (), (), none, none⟩, [])
  legend := .standard
  maxDepth := 1

theorem lastTwo_found {line : Text} (hline : CodePoint.newline ∉ line) (hascii : line.isAscii = true) :
    ∃ (r : Range) (text : Text), r.start = ⟨0, line.length⟩ ∧ r.stop = ⟨1, 1⟩ ∧
      lastTwoProvider.engine.search () (line ++ [CodePoint.newline, 98]) =
        .ok [⟨0, [⟨"string", r, text⟩], []⟩] := by
  let t : Text := line ++ [CodePoint.newline, 98]
  let index := LineIndex.ofText t
  let node : Node := ⟨⟨0, line.length⟩, ⟨1, 1⟩, line.length, t.length⟩
  have hlines : t.lines = [line, [98]] := Text.lines_append_newline hline [98]
  have hstart : index.ofPoint node.start = ⟨0, line.length⟩ := by
    have hfirst : index.line 0 = line := by simp [index, LineIndex.line, LineIndex.ofText, hlines]
    simp [LineIndex.ofPoint, node, hfirst, LineIndex.columnOf, hascii]
  have hstop : index.ofPoint node.stop = ⟨1, 1⟩ := by
    have hlast : index.line 1 = [98] := by simp [index, LineIndex.line, LineIndex.ofText, hlines]
    rw [LineIndex.ofPoint, hlast]
    rfl
  have hle : index.ofPoint node.start ≤ index.ofPoint node.stop := by
    rw [hstart, hstop]
    exact Or.inl Int.one_pos
  have hreported : lastTwoSource.search () t t.encodeUtf8 = [⟨0, [("string", node)], []⟩] := by
    simp [lastTwoSource, node, t]
  have hcapture : NodeMatch.capture index t.encodeUtf8 ⟨0, [("string", node)], []⟩ =
      .ok ⟨0, [⟨"string", ⟨_, _, hle⟩, Text.decodeLenient (node.bytes t.encodeUtf8)⟩], []⟩ := by
    simp only [NodeMatch.capture, Node.capture, List.mapM_cons, List.mapM_nil, Range.ofEnds?,
      dif_pos hle]
    rfl
  refine ⟨⟨_, _, hle⟩, Text.decodeLenient (node.bytes t.encodeUtf8), hstart, hstop, ?_⟩
  apply mapM_eq_ok.mpr
  rw [show _ = [_] from hreported, List.map_singleton, hcapture]
  rfl

def lastTwoBinding : Binding Unit Unit := ⟨"long", (), (), none, none⟩

theorem lastTwo_uncuttable {line : Text} (hline : CodePoint.newline ∉ line)
    (hascii : line.isAscii = true) (hlong : Token.lineEnd < line.length) :
    lastTwoProvider.Uncuttable ⟨lastTwoBinding, line ++ [CodePoint.newline, 98]⟩ := by
  obtain ⟨r, text, hstart, hstop, hsearch⟩ := lastTwo_found hline hascii
  refine ⟨rfl, _, hsearch, ⟨r, "string", []⟩, ?_, ?_⟩
  · have hclassify : (classify .standard lastTwoBinding [⟨0, [⟨"string", r, text⟩], []⟩]).1 =
        [⟨r, "string", []⟩] := rfl
    show _ ∈ Token.resolveContainment (Token.deduplicate (classify .standard lastTwoBinding _).1)
    rw [hclassify, show Token.deduplicate [⟨r, "string", []⟩] = [⟨r, "string", []⟩] from rfl,
      Token.resolveContainment_singleton]
    exact List.mem_singleton_self _
  · rw [hstart, hstop]
    exact ⟨Int.one_pos, hlong⟩

/-- Without an injection query the work stays with the text, and nothing stops it. -/
theorem lastTwo_inverted {tells : Load → Except LoadError (Binding Unit Unit) → Prop}
    (h : FailsIn lastTwoProvider configs generation tells (1, ⟨lastTwoBinding, t⟩) error) :
    ∃ e, error = .inverted e := by
  have hfinds : ∀ m, ¬ lastTwoProvider.Finds ⟨lastTwoBinding, t⟩ m := fun m hfinds => by
    obtain ⟨-, query, found, hquery, -⟩ := hfinds
    cases hquery
  cases h with
  | inverted _ _ => exact ⟨_, rfl⟩
  | stopped hreaches hfound _ =>
    rcases ReflTransGen.cases_head hreaches with rfl | ⟨next, henters, -⟩
    · exact absurd hfound (hfinds _)
    · cases henters with
      | region hregion _ => exact absurd hregion (hfinds _)

/-- One character more than the artificial end of lines has columns, a line feed and a character. -/
theorem inverted_of_uncuttable_longLine :
    let t : Text := List.replicate 100001 97 ++ [CodePoint.newline, 98]
    let configs : List LanguageConfig := [⟨"long", "long.so", "long.scm", none, false, none, none⟩]
    lastTwoProvider.engine = .ofNodes lastTwoSource ∧ lastTwoSource.Ordered ∧
      ∃ scene, ReflTransGen (Scene.Step lastTwoProvider Eq) (.ofConfigs () configs) scene ∧
        ∃ request e, scene.requests = [request] ∧ request.text = t ∧
          request.answer? = some (.error (.inverted e)) := by
  intro t configs
  have hline : CodePoint.newline ∉ List.replicate 100001 (97 : CodePoint) := by
    simp only [List.mem_replicate]
    decide
  have hascii : Text.isAscii (List.replicate 100001 97) = true := by
    rw [Text.isAscii, List.all_replicate]
    decide
  have hlong : Token.lineEnd < (List.replicate 100001 (97 : CodePoint)).length := by
    rw [List.length_replicate]
    decide
  have huncuttable := lastTwo_uncuttable hline hascii hlong
  let start : Scene Unit Unit Unit := .ofConfigs () configs
  have hblank : start.Blank := Scene.blank_ofConfigs () configs
  have hasked : ReflTransGen (Scene.Step lastTwoProvider Eq) start
      (start.asking lastTwoProvider "long" t) := .single (.ask "long" t)
  obtain ⟨scene, hmoves, hanswered⟩ :=
    (inverted_of_uncuttable rfl lastTwoSource_ordered hblank hasked).1.exists_run
  have hrun := hasked.trans (Scene.steps_of_moves hmoves)
  obtain ⟨request, hrequests, hlangtext⟩ := List.map_eq_singleton_iff.mp (Scene.asks_of_moves hmoves)
  obtain ⟨hlang, htext⟩ := Prod.mk.inj hlangtext
  obtain ⟨result, hresult⟩ := Option.isSome_iff_exists.mp
    (hanswered request (hrequests ▸ List.mem_singleton_self request))
  have hload : lastTwoProvider.LoadsApart := fun _ _ => rfl
  have htold := ((hblank.truthful lastTwoProvider).run hload hrun).ended
  obtain ⟨-, -, hrequest⟩ := inverted_of_uncuttable rfl lastTwoSource_ordered hblank hrun
  have hroot : lastTwoProvider.Uncuttable ⟨lastTwoBinding, request.text⟩ := htext ▸ huncuttable
  have hbinding : answerTo configs (lastTwoProvider.loaded ()) request.lang = .ok lastTwoBinding := by
    rw [hlang]
    decide
  obtain ⟨error, rfl, hfails⟩ := (hrequest 0 request (Nat.zero_le 0) (by rw [hrequests]; rfl) result
    hresult).2 _ htold lastTwoBinding _ hbinding .refl hroot
  obtain ⟨e, rfl⟩ := lastTwo_inverted hfails
  exact ⟨rfl, lastTwoSource_ordered, scene, hrun, request, e, hrequests, htext, hresult⟩

end Provider

end SemanticHighlight
