import SemanticHighlight.Highlight.Setup
import SemanticHighlight.Proofs.Server.Lasting

/-!
# The announced legend

A server announces the legend of its provider and keeps it for good, whatever becomes of the settings
and of the configuration file, its vocabulary included. In every state that it can come to, documents
are highlighted in words of that legend only, and no event fails because a token type is missing in it
(`speaks_announced`).
-/

namespace SemanticHighlight.Server

variable {World Grammar Query : Type}

/-- After any run: the tokens of every document, at any depth and by any mapping table, are known to
the announced legend, and so is all that the next event can bring: a type of a stream is the place of
an announced type, a mask below 2 to the number of announced modifiers. -/
theorem speaks_announced [Config.Services] (server : Server World Grammar Query) (world : World)
    (config : Config) (root : Option Path) (events : List (ServerEvent World)) :
    let s := server.after (.ofConfig server world config root) events
    (∀ lang t tokens session,
        (server.provider.highlight lang t).outcome s.session = (.ok tokens, session) →
        ∀ u ∈ tokens, server.announcement.legend.Knows u) ∧
      ∀ event, Faithful server.announcement.legend (server.step s event).1 := by
  intro s
  have hlasting : Lasting server fun _ => True := ⟨fun _ _ _ _ => trivial, fun _ _ _ => trivial⟩
  refine ⟨fun lang t tokens session h => Provider.highlight_knows h, ?_⟩
  intro event
  have hadmits : event.Admits fun _ : ServerState World Grammar Query => True := by
    cases event <;> simp [ServerEvent.Admits]
  exact (hlasting.step (fun _ _ _ => trivial) hadmits ⟨rfl, trivial⟩).2

def sent? : Except ServerError ServerReply → Option (List Int)
  | .ok (.stream data) => data
  | _ => none

theorem spells_of_sent? [Config.Services] {server : Server World Grammar Query}
    {s : ServerState World Grammar Query} {legend : Legend}
    (h : ∀ event, Faithful legend (server.step s event).1) (event : ServerEvent World)
    {data : List Int} (hsent : sent? (server.step s event).1 = some data) : legend.Spells data := by
  have hfaithful := h event
  unfold sent? at hsent
  split at hsent
  · next heq =>
    rw [heq, hsent] at hfaithful
    exact hfaithful
  · cases hsent

/-! ## Other words than those announced -/

/-- A configuration file with one language, whose query is beside it. -/
def fileWith (vocabulary table : Text) : Text :=
  "\x7b" ++ vocabulary ++ "languageConfigs: [\x7blang: x, parser: \"module:g\", highlights: q, " ++
    "semanticTokenTypeMappings: \x7btag: " ++ table ++ "\x7d\x7d]\x7d"

def terseFile : Text :=
  fileWith "tokenTypes: [keyword], tokenModifiers: [static], "
    "\x7btargetTokenType: keyword\x7d"

/-- Has another vocabulary, and a mapping table with words of either. -/
def wordyFile : Text :=
  fileWith "tokenTypes: [comment], tokenModifiers: [bold], "
    "\x7btargetTokenType: keyword, targetTokenModifiers: [bold, static]\x7d"

def terseTree : FileTree :=
  ((FileTree.empty ["w"]).insert ["w", "q"]
    (Text.ofString "[\x7b\"run\":\"b\",\"captures\":[[0,\"tag.open\"]]\x7d]").encodeUtf8).insert
      ["w", "c.yml"] terseFile.encodeUtf8

def rewordFile (host : Host) : Host :=
  { host with files := host.files.insert ["w", "c.yml"] wordyFile.encodeUtf8 }

/-- By the time of the request the server has read the other vocabulary. -/
theorem speaks_announced_mapped :
    let homes : Homes := ⟨"/h", []⟩
    let path := Path.ofText "c.yml"
    let host := Host.ofFiles terseTree [("g", [("language", .object [])])]
    let events : List (ServerEvent Host) := [.introduced ⟨.null, [], none, none⟩,
      .opened "file:///a" ⟨"x", "abb"⟩, .worldChanged rewordFile, .reloadRequested]
    let serverOf (provider : HostProvider) : Server Host _ _ :=
      ⟨provider, Host.files, homes, some path, usualPort⟩
    let last (config : Config) (provider : HostProvider) :=
      (serverOf provider).after (.ofConfig (serverOf provider) host config none) events
    ∃ config provider, (Config.load homes terseTree path none).1 = .ok config ∧
      config.provider = .ok provider ∧
      (last config provider).config.tokenTypes = some [Text.ofString "comment"] ∧
      sent? ((serverOf provider).step (last config provider) (.tokensRequested "file:///a" true)).1 =
        some [0, 1, 2, 0, 1] ∧
      (serverOf provider).announcement.legend.Spells [0, 1, 2, 0, 1] := by
  intro homes path host events serverOf last
  have hruns : ((Config.load homes terseTree path none).1.toOption.bind fun config =>
      config.provider.toOption.map fun provider => ((last config provider).config.tokenTypes,
        sent? ((serverOf provider).step (last config provider) (.tokensRequested "file:///a" true)).1)) =
      some (some [Text.ofString "comment"], some [0, 1, 2, 0, 1]) := by decide +kernel
  obtain ⟨config, hconfig, hruns⟩ := Option.bind_eq_some_iff.mp hruns
  obtain ⟨provider, hprovider, hrun⟩ := Option.map_eq_some_iff.mp hruns
  obtain ⟨htypes, hsent⟩ := Prod.mk.inj hrun
  have hspells := spells_of_sent? (speaks_announced (serverOf provider) host config none events).2 _ hsent
  exact ⟨config, provider, toOption_eq_some.mp hconfig, toOption_eq_some.mp hprovider, htypes, hsent,
    hspells⟩

end SemanticHighlight.Server
