import SemanticHighlight.Capture.Discovery
import SemanticHighlight.Capture.Name
import SemanticHighlight.Highlight.Session
import SemanticHighlight.Token.Fragments
import SemanticHighlight.Token.Merge

/-!
# Highlighting a document

The captures of the highlight query become tokens, one line each. The injection query marks regions
in other languages; each is highlighted in the same way, moved into the coordinates of the document
and merged with what is around it. How deep this goes is bounded by a budget that every injection
lowers by one.
-/

namespace SemanticHighlight

inductive HighlightError where
  | unconfigured (lang : Text)
  | load (e : LoadError)
  | inverted (e : InvertedRange)
  | tooDeep (lang : Text) (maxDepth : Nat)
  deriving DecidableEq, Repr

namespace HighlightError

def ofResolve : ResolveError → HighlightError
  | .unconfigured lang => unconfigured lang
  | .failed e => load e

def tooDeepWording (lang : Text) (maxDepth : Int) : Text :=
  "Injection of '" ++ lang ++ "' exceeds the maximum nesting depth of " ++ Text.ofInt maxDepth

def message : HighlightError → Text
  | unconfigured lang => ResolveError.unconfiguredMessage lang
  | load e => e.message
  | inverted e => e.message
  | tooDeep lang maxDepth => tooDeepWording lang maxDepth

/-- Whether highlighting was never meant to fail this way. -/
def isForeign : HighlightError → Bool
  | load e => e.failure?.isNone
  | _ => false

end HighlightError

/-- Work that may fail; what it changed before stays changed. -/
abbrev Attempt (World Grammar Query : Type) :=
  ExceptT HighlightError (Work World Grammar Query)

/-- A region of a text, the language it is in and what that language is read with. -/
structure Region (Grammar Query : Type) where
  lang : Text
  content : Capture
  binding : Binding Grammar Query
  deriving DecidableEq, Repr

variable {World Grammar Query : Type}

/-- The region as an injection, once its own tokens are known. -/
def Region.injection (region : Region Grammar Query) (tokens : List Token) : Injection :=
  ⟨region.lang, region.content.range,
    tokens.map fun t => t.translate region.content.range.start⟩

namespace Attempt

def report (entries : Log) : Attempt World Grammar Query Unit :=
  ExceptT.lift (Session.report entries)

def skip {α : Type} (entry : LogEntry) : Attempt World Grammar Query (Option α) := do
  report [entry]
  return none

/-- Goes on with what was checked for inverted ranges. -/
def checked {α : Type} (e : Except InvertedRange α) : Attempt World Grammar Query α :=
  ExceptT.mk (pure (e.mapError .inverted))

end Attempt

namespace Provider

/-- The token of a capture, if the legend knows its type. A name without a base type is reported and
gives no token. -/
def tokenOf (legend : Legend) (binding : Binding Grammar Query) (capture : Capture) :
    Option Token × Log :=
  match Candidate.ofCapture capture.name (binding.mappings.getD []) with
  | .error e =>
    (none, [⟨.warning, .provider, "Dropping capture in " ++ binding.lang ++ ": " ++ e.message⟩])
  | .ok (candidate, log) =>
    ((candidate.restrict legend).map fun c => ⟨capture.range, c.type, c.modifiers⟩, log)

def classify (legend : Legend) (binding : Binding Grammar Query) (found : List Match) :
    List Token × Log :=
  let each := (found.flatMap Match.captures).map (tokenOf legend binding)
  (each.filterMap Prod.fst, each.flatMap Prod.snd)

/-- A region whose language was asked for. If the language does not load, the region is passed
over. -/
def regionIn (lang : Text) (content : Capture) :
    Except ResolveError (Binding Grammar Query) →
      Attempt World Grammar Query (Option (Region Grammar Query))
  | .ok binding => return some ⟨lang, content, binding⟩
  | .error (.failed (.failure e)) =>
    Attempt.skip ⟨.warning, .injections, "Skipping injection at " ++ content.range.message ++ ": " ++
      e.message⟩
  | .error e => throw (.ofResolve e)

def unconfiguredEntry (lang : Text) (content : Capture) : LogEntry :=
  ⟨.debug, .injections, "Skipping injection of unconfigured language '" ++ lang ++ "' at " ++
    content.range.message⟩

/-- The region that a match of an injection query marks. Without a language that is configured there
is none. Where nothing may nest any more, a region ends the work. -/
def regionOf (provider : Provider World Grammar Query) (mayNest : Bool) (found : Match) :
    Attempt World Grammar Query (Option (Region Grammar Query)) := do
  let isConfigured := (← get).registry.isConfigured
  match found.injection? isConfigured with
  | none => return none
  | some (lang, content) =>
    if !isConfigured lang then Attempt.skip (unconfiguredEntry lang content)
    else if !mayNest then throw (.tooDeep lang provider.maxDepth)
    else regionIn lang content (← Session.resolve provider lang)

/-- Highlights a region of another language. `deeper` highlights the text of the region; without it
the nesting has come to its end. -/
def injectionOf (provider : Provider World Grammar Query)
    (deeper : Option (Binding Grammar Query → Text → Attempt World Grammar Query (List Token)))
    (found : Match) : Attempt World Grammar Query (Option Injection) := do
  match ← provider.regionOf deeper.isSome found, deeper with
  | some region, some deeper => return some (region.injection (← deeper region.binding region.content.text))
  | _, _ => return none

def injectionsOf (provider : Provider World Grammar Query)
    (deeper : Option (Binding Grammar Query → Text → Attempt World Grammar Query (List Token)))
    (query : Query) (t : Text) : Attempt World Grammar Query (List Injection) := do
  let found ← Attempt.checked (provider.engine.search query t)
  return (← found.mapM (provider.injectionOf deeper)).filterMap id

def ownTokens (provider : Provider World Grammar Query) (binding : Binding Grammar Query)
    (t : Text) : Attempt World Grammar Query (List Token) := do
  let found ← Attempt.checked (provider.engine.search binding.highlights t)
  let classified := classify provider.legend binding found
  Attempt.report classified.2
  Attempt.checked (Token.normalize classified.1)

/-- The tokens of a text, those of injected regions included, in no particular order. -/
def tokensWith (provider : Provider World Grammar Query)
    (deeper : Option (Binding Grammar Query → Text → Attempt World Grammar Query (List Token)))
    (binding : Binding Grammar Query) (t : Text) : Attempt World Grammar Query (List Token) := do
  if !provider.engine.parses binding.grammar t then return []
  let tokens ← provider.ownTokens binding t
  match binding.injections with
  | none => return tokens
  | some query => return Token.merge tokens (← provider.injectionsOf deeper query t)

def tokens (provider : Provider World Grammar Query) :
    (budget : Nat) → Binding Grammar Query → Text → Attempt World Grammar Query (List Token)
  | 0 => provider.tokensWith none
  | budget + 1 => provider.tokensWith (some (provider.tokens budget))

def highlightedEntry (lang : Text) (tokens : List Token) : LogEntry :=
  ⟨.debug, .provider,
    "Highlighted " ++ lang ++ " document with " ++ Text.ofNat tokens.length ++ " tokens"⟩

/-- Highlights a whole document: tokens on one line each, in ascending order. -/
def highlight (provider : Provider World Grammar Query) (lang t : Text) :
    Attempt World Grammar Query (List Token) := do
  if !(← get).registry.isConfigured lang then throw (.unconfigured lang)
  match ← Session.resolve provider lang with
  | .error e => throw (.ofResolve e)
  | .ok binding =>
    let tokens := Token.sort (← provider.tokens provider.maxDepth binding t)
    Attempt.report [highlightedEntry lang tokens]
    return tokens

end Provider

end SemanticHighlight
