import SemanticHighlight.Proofs.Highlight.Vocabulary
import SemanticHighlight.Proofs.Server.Serving
import SemanticHighlight.Server.Events

/-!
# What events leave as it is

A property of states lasts if it depends on the root, the accepted settings and the surroundings
alone, and survives highlighting. Most events keep it; a new root, new settings and changes of the
surroundings are left to whoever cares (`Lasting.handle`). On the way it is seen that no event fails for
want of a token type: what is encoded is known to the legend.
-/

namespace SemanticHighlight

variable {World Grammar Query : Type}

/-- The error is not that a token type is missing in the legend. -/
def ServerError.IsForeignWord : ServerError → Prop
  | .unknownType _ => True
  | _ => False

namespace Introduction

/-- The root that a server without one takes over, if nothing is wrong with it. -/
def named? (i : Introduction) : Option Path :=
  match i.check with
  | .error _ => none
  | .ok _ => i.root?.toOption.join

end Introduction

namespace ServerEvent

def rootAfter (root : Option Path) : ServerEvent World → Option Path
  | introduced i => root.or i.named?
  | _ => root

/-- Settings that the event brings and changes of the surroundings keep the property. -/
def Admits (I : ServerState World Grammar Query → Prop) : ServerEvent World → Prop
  | introduced i => ∀ s, I s → I { s with settings := some (ClientSettings.ofOptions i.options) }
  | optionsChanged options =>
    ∀ s, I s → I { s with settings := some (ClientSettings.ofOptions options) }
  | worldChanged change =>
    ∀ s, I s → I { s with session := { s.session with world := change s.session.world } }
  | _ => True

end ServerEvent

/-- The reply holds no other legend, and no words that the legend does not have. -/
def ServerReply.Speaks (legend : Legend) : ServerReply → Prop
  | .announcement a => a.legend = legend
  | .stream (some data) => legend.Spells data
  | _ => True

namespace Server

open Serving

/-- What came of an event is a reply in the words of the legend, or a failure for another reason. -/
def Faithful (legend : Legend) : Except ServerError ServerReply → Prop
  | .ok reply => reply.Speaks legend
  | .error e => ¬ e.IsForeignWord

def rootAfter (root : Option Path) (events : List (ServerEvent World)) : Option Path :=
  events.foldl ServerEvent.rootAfter root

variable {server : Server World Grammar Query} {I : ServerState World Grammar Query → Prop}

/-- The property depends on root, settings and surroundings only, and highlighting keeps it. -/
structure Lasting (server : Server World Grammar Query)
    (I : ServerState World Grammar Query → Prop) : Prop where
  congr : ∀ {s s' : ServerState World Grammar Query}, I s → s'.root = s.root →
    s'.settings = s.settings → s'.session.world = s.session.world → I s'
  highlight : ∀ {s : ServerState World Grammar Query} (lang t : Text), I s →
    I { s with session := ((server.provider.highlight lang t).outcome s.session).2 }

/-- The root together with a property that any root may have. -/
def Rooted (I : ServerState World Grammar Query → Prop) (root : Option Path)
    (s : ServerState World Grammar Query) : Prop := s.root = root ∧ I s

/-- The work keeps the property, and never fails for want of a token type. -/
def Keeps {α : Type} (I : ServerState World Grammar Query → Prop)
    (x : Serving World Grammar Query α) : Prop :=
  Leads I x (fun _ => I) fun e s => ¬ e.IsForeignWord ∧ I s

namespace Lasting

variable {fails : ServerError → ServerState World Grammar Query → Prop}

/-- A change of nothing that the property depends on. -/
theorem change (h : Lasting server I)
    {f : ServerState World Grammar Query → ServerState World Grammar Query}
    (hroot : ∀ s, (f s).root = s.root) (hsettings : ∀ s, (f s).settings = s.settings)
    (hworld : ∀ s, (f s).session.world = s.session.world) :
    Leads I (modify f) (fun _ => I) fails :=
  leads_modify fun s hs => h.congr hs (hroot s) (hsettings s) (hworld s)

theorem report (h : Lasting server I) (severity : Severity) (source : LogSource) (message : Text) :
    Leads I (Serving.report severity source message) (fun _ => I) fails :=
  h.change (fun _ => rfl) (fun _ => rfl) fun _ => rfl

theorem relay (h : Lasting server I) (entries : Log) :
    Leads I (Serving.relay entries) (fun _ => I) fails :=
  h.change (fun _ => rfl) (fun _ => rfl) fun _ => rfl

theorem ofAddress {α : Type} (e : Except UriError α) : Keeps I (Serving.ofAddress e) :=
  leads_ofAddress (fun _ _ hs _ => hs) fun _ _ hs => ⟨id, hs⟩

theorem discard (h : Lasting server I) (given : Option (List LanguageConfig)) :
    Keeps I (Serving.onSession (Session.reload given)) :=
  leads_onSession fun _ hs => h.congr hs rfl rfl rfl

/-! ## Documents -/

theorem documents : Keeps I (Server.documents : Serving World Grammar Query _) := by
  apply leads_get_bind
  intro s hs
  cases s.documents with
  | some documents => exact leads_pure fun _ hs' => hs' ▸ hs
  | none => exact leads_throw fun _ hs' => ⟨id, hs' ▸ hs⟩

theorem openDocument (h : Lasting server I) (uri : Text) (document : Document) :
    Keeps I (Server.openDocument uri document : Serving World Grammar Query _) := by
  apply leads_bind documents
  intro known
  apply leads_bind (ofAddress _)
  intro address
  exact h.change (fun _ => rfl) (fun _ => rfl) fun _ => rfl

theorem highlighted (h : Lasting server I) (document : Document) :
    Leads I (Serving.onSession (server.provider.highlight document.lang document.text).run)
      (fun result s => I s ∧
        ∀ tokens, result = .ok tokens → ∀ u ∈ tokens, server.provider.legend.Knows u)
      fun e s => ¬ e.IsForeignWord ∧ I s := by
  apply leads_onSession
  intro s hs
  refine ⟨h.highlight document.lang document.text hs, ?_⟩
  intro tokens htokens
  exact Provider.highlight_knows (Prod.ext htokens rfl)

theorem streamOf (h : Lasting server I) (document : Document) :
    Leads I (server.streamOf document)
      (fun stream s => I s ∧ ∀ data, stream = .ok data → server.provider.legend.Spells data)
      fun e s => ¬ e.IsForeignWord ∧ I s := by
  apply leads_bind (h.highlighted document)
  intro result
  apply leads_assuming
  intro hknown
  cases result with
  | error e =>
    dsimp only
    split_ifs
    · exact leads_throw fun _ hs => ⟨id, hs⟩
    · exact leads_pure fun _ hs => ⟨hs, fun data hdata => nomatch hdata⟩
  | ok tokens =>
    obtain ⟨data, hencode, hspells⟩ := Token.spells_encodeAfter
      (some (LineIndex.ofText document.text)) ⟨0, 0⟩ (hknown tokens rfl)
    dsimp only
    rw [Token.encode, hencode]
    exact leads_pure fun _ hs => ⟨hs, fun sent hsent => Except.ok.inj hsent ▸ hspells⟩

theorem answer (h : Lasting server I) (uri : Text) (document : Option Document) :
    Leads I (server.answer uri document)
      (fun data s => I s ∧ ∀ sent, data = some sent → server.provider.legend.Spells sent)
      fun e s => ¬ e.IsForeignWord ∧ I s := by
  unfold Server.answer
  apply leads_read_bind
  intro s _
  cases served? s document with
  | none =>
    apply leads_bind (h.report _ _ _)
    exact fun _ => leads_pure fun _ hs => ⟨hs, fun sent hsent => nomatch hsent⟩
  | some document =>
    apply leads_bind (h.streamOf document)
    intro stream
    apply leads_assuming
    intro hspells
    cases stream with
    | error e =>
      apply leads_bind (h.report _ _ _)
      exact fun _ => leads_pure fun _ hs => ⟨hs, fun sent hsent => nomatch hsent⟩
    | ok data =>
      apply leads_bind (h.report _ _ _)
      exact fun _ => leads_pure fun _ hs =>
        ⟨hs, fun sent hsent => Option.some.inj hsent ▸ hspells data rfl⟩

theorem tokens (h : Lasting server I) (uri : Text) (attached : Bool) :
    Leads I (server.tokens uri attached)
      (fun data s => I s ∧ ∀ sent, data = some sent → server.provider.legend.Spells sent)
      fun e s => ¬ e.IsForeignWord ∧ I s := by
  unfold Server.tokens
  apply leads_bind (h.report _ _ _)
  intro _
  dsimp only
  split_ifs
  · apply leads_bind (h.report _ _ _)
    exact fun _ => leads_pure fun _ hs => ⟨hs, fun sent hsent => nomatch hsent⟩
  · apply leads_bind documents
    intro known
    split_ifs
    · exact leads_bind (ofAddress _) fun _ => h.answer uri _
    · exact h.answer uri _

/-! ## Languages -/

theorem reject (h : Lasting server I) (e : ConfigError) :
    Keeps I (Server.reject e : Serving World Grammar Query Unit) :=
  leads_bind (h.change (fun _ => rfl) (fun _ => rfl) fun _ => rfl) fun _ => h.report _ _ _

theorem accept (h : Lasting server I) (settings : ClientSettings) (config : Config)
    (hsettings : ∀ s, I s → I { s with settings := some settings }) :
    Keeps I (Server.accept settings config : Serving World Grammar Query Unit) := by
  have hset : Keeps I (modify fun s =>
      { s with settings := some settings, verbose := s.verbose || config.debug } :
        Serving World Grammar Query Unit) :=
    leads_modify fun s hs => h.congr (hsettings s hs) rfl rfl rfl
  have happlied : Keeps I (modify fun s => { s with applied := true } :
      Serving World Grammar Query Unit) := h.change (fun _ => rfl) (fun _ => rfl) fun _ => rfl
  have hrest := leads_bind happlied fun _ =>
    h.report .info .server "LSP: Applied client settings"
  unfold Server.accept
  apply leads_bind hset
  intro _
  dsimp only
  split_ifs
  · exact leads_bind (h.discard _) fun _ => hrest
  · exact hrest

theorem cleanUp (h : Lasting server I) :
    Keeps I (Server.cleanUp : Serving World Grammar Query Unit) := by
  apply leads_bind (h.report _ _ _)
  intro _
  apply leads_bind (h.discard none)
  intro _
  exact h.report _ _ _

theorem rooted (h : Lasting server I) (root : Option Path) : Lasting server (Rooted I root) where
  congr hs hroot hsettings hworld := ⟨hroot.trans hs.1, h.congr hs.2 hroot hsettings hworld⟩
  highlight lang t hs := ⟨hs.1, h.highlight lang t hs.2⟩

variable [Config.Services]

theorem applyOptions (h : Lasting server I) (options : Json)
    (hsettings : ∀ s, I s → I { s with settings := some (ClientSettings.ofOptions options) }) :
    Keeps I (server.applyOptions options) := by
  unfold Server.applyOptions
  dsimp only
  split_ifs
  · exact leads_pure fun _ hs => hs
  · apply leads_read_bind
    intro s _
    cases server.readSettings s.root (ClientSettings.ofOptions options) with
    | ok config => exact leads_bind (h.accept _ config hsettings) fun _ => leads_pure fun _ hs => hs
    | error e =>
      cases e with
      | config e => exact leads_bind (h.reject e) fun _ => leads_pure fun _ hs => hs
      | dilemma e => exact leads_throw fun _ hs => ⟨id, hs⟩
      | unknownHome e => exact leads_throw fun _ hs => ⟨id, hs⟩

theorem reloadConfig (h : Lasting server I) : Keeps I server.reloadConfig := by
  unfold Server.reloadConfig
  apply leads_read_bind
  intro s _
  dsimp only
  cases server.configPath with
  | none => exact leads_pure fun _ hs => hs
  | some path =>
    dsimp only
    apply leads_bind (h.relay _)
    intro _
    cases (Config.load server.homes (server.files s.session.world) path s.root).1 with
    | ok config =>
      refine leads_bind (h.change ?_ ?_ ?_) fun _ => leads_pure fun _ hs => hs
      all_goals exact fun _ => rfl
    | error e =>
      dsimp only
      cases e.config? with
      | none => exact leads_throw fun _ hs => ⟨id, hs⟩
      | some e => exact leads_bind (h.report _ _ _) fun _ => leads_pure fun _ hs => hs

theorem overrideLanguages (h : Lasting server I) (configs : List LanguageConfig) :
    Keeps I (server.overrideLanguages configs) := by
  unfold Server.overrideLanguages
  apply leads_read_bind
  intro s _
  cases s.settings.filter (·.languages.isSome) with
  | none => exact leads_pure fun _ hs => hs
  | some settings =>
    dsimp only
    cases server.readSettings s.root settings with
    | ok config => exact leads_pure fun _ hs => hs
    | error e =>
      cases e with
      | config e => exact leads_bind (h.report _ _ _) fun _ => leads_pure fun _ hs => hs
      | dilemma e => exact leads_throw fun _ hs => ⟨id, hs⟩
      | unknownHome e => exact leads_throw fun _ hs => ⟨id, hs⟩

theorem reload (h : Lasting server I) : Keeps I server.reload := by
  unfold Server.reload
  apply leads_bind (h.report _ _ _)
  intro _
  apply leads_bind h.reloadConfig
  intro configs
  apply leads_bind (h.overrideLanguages configs)
  intro configs
  exact h.discard (some configs)

/-! ## Introductions -/

theorem useOptions (h : Lasting server I) (i : Introduction) (root : Option Path)
    (hsettings : ∀ s, I s → I { s with settings := some (ClientSettings.ofOptions i.options) }) :
    Keeps (Rooted I root) (do if isObject i.options then let _ ← server.applyOptions i.options) := by
  split_ifs
  · apply leads_bind ((h.rooted root).applyOptions i.options fun s hs => ⟨hs.1, hsettings s hs.2⟩)
    exact fun _ => leads_pure fun _ hs => hs
  · exact leads_pure fun _ hs => hs

theorem adopt (h : Lasting server I) (i : Introduction) (root : Option Path)
    (hroot : ∀ s root, I s → I { s with root })
    (hsettings : ∀ s, I s → I { s with settings := some (ClientSettings.ofOptions i.options) }) :
    Leads (Rooted I root) (server.adopt i) (fun _ => Rooted I (root.or i.root?.toOption.join))
      fun e s => ¬ e.IsForeignWord ∧ Rooted I (root.or i.root?.toOption.join) s := by
  unfold Server.adopt
  apply leads_read_bind
  intro s hs
  obtain ⟨rfl, -⟩ := hs
  cases hold : s.root with
  | some root => exact h.useOptions i (some root) hsettings
  | none =>
    cases hnamed : i.root? with
    | error e => exact fun s₁ hs₁ => ⟨id, hs₁⟩
    | ok named =>
      have hrest := h.useOptions i named hsettings
      exact fun s₁ hs₁ => hrest { s₁ with root := named } ⟨rfl, hroot s₁ named hs₁.2⟩

/-- Whatever goes wrong with the options, a root that was named stays adopted. -/
theorem introduce (h : Lasting server I) (i : Introduction) (root : Option Path)
    (hroot : ∀ s root, I s → I { s with root })
    (hsettings : ∀ s, I s → I { s with settings := some (ClientSettings.ofOptions i.options) }) :
    Leads (Rooted I root) (server.introduce i) (fun _ => Rooted I (root.or i.named?))
      fun e s => ¬ e.IsForeignWord ∧ Rooted I (root.or i.named?) s := by
  unfold Server.introduce Introduction.named?
  cases hcheck : i.check with
  | error e =>
    intro s hs
    rw [Option.or_none]
    exact ⟨id, hs⟩
  | ok valid =>
    have hadopt := leads_tryCatch (h.adopt i root hroot hsettings) fun e =>
      (leads_pure fun _ hs => hs.2 : Leads _ (pure ()) (fun _ => Rooted I (root.or i.root?.toOption.join))
        fun e s => ¬ e.IsForeignWord ∧ Rooted I (root.or i.root?.toOption.join) s)
    exact fun s hs => hadopt { s with documents := some [] } ⟨hs.1, h.congr hs.2 rfl rfl rfl⟩

/-! ## Events -/

theorem handle (h : Lasting server I) (hroot : ∀ s root, I s → I { s with root })
    (event : ServerEvent World) (hadmits : event.Admits I) (root : Option Path) :
    Leads (Rooted I root) (server.handle event)
      (fun reply s => Rooted I (event.rootAfter root) s ∧ reply.Speaks server.provider.legend)
      fun e s => ¬ e.IsForeignWord ∧ Rooted I (event.rootAfter root) s := by
  have hrooted := h.rooted root
  cases event with
  | introduced i =>
    apply leads_bind (h.introduce i root hroot hadmits)
    exact fun _ => leads_pure fun _ hs => ⟨hs, rfl⟩
  | ready =>
    apply leads_bind (hrooted.report _ _ _)
    exact fun _ => leads_pure fun _ hs => ⟨hs, trivial⟩
  | shutDown =>
    apply leads_bind (hrooted.report _ _ _)
    intro _
    apply leads_bind hrooted.cleanUp
    exact fun _ => leads_pure fun _ hs => ⟨hs, trivial⟩
  | exited =>
    apply leads_bind (hrooted.report _ _ _)
    exact fun _ => leads_pure fun _ hs => ⟨hs, trivial⟩
  | opened uri document =>
    apply leads_bind (hrooted.openDocument uri document)
    exact fun _ => leads_pure fun _ hs => ⟨hs, trivial⟩
  | tokensRequested uri attached =>
    apply leads_bind (hrooted.tokens uri attached)
    intro data
    apply leads_assuming
    intro hspells
    cases data with
    | none => exact leads_pure fun _ hs => ⟨hs, trivial⟩
    | some sent => exact leads_pure fun _ hs => ⟨hs, hspells sent rfl⟩
  | optionsChanged options =>
    apply leads_bind (hrooted.applyOptions options fun s hs => ⟨hs.1, hadmits s hs.2⟩)
    exact fun _ => leads_pure fun _ hs => ⟨hs, trivial⟩
  | reloadRequested =>
    apply leads_bind hrooted.reload
    exact fun _ => leads_pure fun _ hs => ⟨hs, trivial⟩
  | worldChanged change =>
    exact fun s hs => ⟨⟨hs.1, hadmits s hs.2⟩, trivial⟩

/-- Every reply speaks of nothing beyond the legend, and the property is kept. -/
theorem step (h : Lasting server I) (hroot : ∀ s root, I s → I { s with root })
    {event : ServerEvent World} (hadmits : event.Admits I) {root : Option Path}
    {s : ServerState World Grammar Query} (hs : Rooted I root s) :
    Rooted I (event.rootAfter root) (server.step s event).2 ∧
      Faithful server.provider.legend (server.step s event).1 := by
  have hended := h.handle hroot event hadmits root s hs
  unfold Server.step
  rcases hrun : (server.handle event).run.run s with ⟨e | reply, s₁⟩
  · rw [hrun] at hended
    exact ⟨hended.2, hended.1⟩
  · rw [hrun] at hended
    exact hended

theorem after (h : Lasting server I) (hroot : ∀ s root, I s → I { s with root })
    {events : List (ServerEvent World)} (hadmits : ∀ event ∈ events, event.Admits I)
    {root : Option Path} {s : ServerState World Grammar Query} (hs : Rooted I root s) :
    Rooted I (rootAfter root events) (server.after s events) := by
  induction events generalizing root s with
  | nil => exact hs
  | cons event rest ih =>
    have hstep := h.step hroot (hadmits event List.mem_cons_self) hs
    exact ih (fun e he => hadmits e (List.mem_cons_of_mem _ he)) hstep.1

end Lasting
end Server
end SemanticHighlight
