import SemanticHighlight.Config.Loading
import SemanticHighlight.Highlight.Document
import SemanticHighlight.Token.Stream

/-!
# Failures as they are reported

A reader is told what went wrong, of which kind it is and what it concerns: a language, a path, a
capture name. Where there is something to be done about it, a hint says so. A failure that is
neither the highlighter's own nor the user's is marked as internal.
-/

namespace SemanticHighlight

inductive Failure where
  | config (message : Text)
  | noRoot (path : Text)
  | load (lang reason : Text)
  | unconfigured (lang : Text)
  | tooDeep (lang : Text) (maxDepth : Int)
  | invalidRange (message : Text)
  | invalidCapture (name : Text)
  /-- A failure of the highlighter about which nothing more is known. -/
  | general (message : Text)
  /-- The command was called the wrong way. -/
  | usage (kind message : Text)
  | internal (kind message : Text)
  deriving DecidableEq, Repr

namespace Failure

def message : Failure → Text
  | config message => message
  | noRoot path => ConfigError.noRootWording path
  | load lang reason => LoadFailure.wording lang reason
  | unconfigured lang => ResolveError.unconfiguredMessage lang
  | tooDeep lang maxDepth => HighlightError.tooDeepWording lang maxDepth
  | invalidRange message => message
  | invalidCapture name => (⟨name⟩ : InvalidCapture).message
  | general message => message
  | usage _ message => message
  | internal _ message => message

/-- The name of the kind, for programs that read a report. -/
def kind : Failure → Text
  | config _ => "ConfigError"
  | noRoot _ => "PathResolutionError"
  | load .. => "LanguageLoadError"
  | unconfigured _ => "UnconfiguredLanguageError"
  | tooDeep .. => "InjectionDepthExceededError"
  | invalidRange _ => "InvalidRangeError"
  | invalidCapture _ => "InvalidCaptureError"
  | general _ => "TreelightError"
  | usage kind _ => kind
  | internal kind _ => kind

def concerns : Failure → List (Text × Json)
  | noRoot path => [("path", .text path)]
  | load lang reason => [("lang", .text lang), ("reason", .text reason)]
  | unconfigured lang => [("lang", .text lang)]
  | tooDeep lang maxDepth => [("lang", .text lang), ("max_depth", .int maxDepth)]
  | invalidCapture name => [("capture_name", .text name)]
  | _ => []

def isInternal : Failure → Bool
  | internal .. => true
  | _ => false

def members (e : Failure) : List (Text × Json) :=
  let mark : List (Text × Json) := if e.isInternal then [("internal", .bool true)] else []
  ("error", .text e.message) :: ("type", .text e.kind) :: (e.concerns ++ mark)

def hint : Failure → Option Text
  | noRoot _ => some "Pass --workspace to resolve relative grammar and query paths"
  | config _ => some "Run 'treelight validate' after fixing the configuration file"
  | load .. => some "Run 'treelight validate' to check every configured language"
  | _ => none

/-! ## What the parts of the highlighter fail with -/

def nameKind : NameProblem → Text
  | .zero => "ValueError"
  | .unencodable _ => "UnicodeEncodeError"

def ofUnknownHome (e : UnknownHome) : Failure :=
  match e with
  | .noAccount _ => internal "RuntimeError" e.message
  | .noName problem => internal (nameKind problem) e.message

def ofDilemma : Dilemma → Failure
  | .endless => internal "RecursionError" Dilemma.endless.message
  | .escaped kind text => internal kind text
  | e => internal "TypeError" e.message

def ofConfig : ConfigError → Failure
  | .noRoot path => noRoot path
  | e => config e.message

def ofReading : ReadingError → Failure
  | .config e => ofConfig e
  | .dilemma e => ofDilemma e
  | .unknownHome e => ofUnknownHome e

def ofAsset (e : AssetError) : Failure := ofReading (.ofAsset e)

def ofRead (e : ReadError) : Failure :=
  let kind : Text :=
    match e with
    | .missing _ => "FileNotFoundError"
    | .directory _ => "IsADirectoryError"
    | .throughFile _ => "NotADirectoryError"
    | .nameTooLong _ => "OSError"
    | .forbidden _ => "PermissionError"
    | .badName problem => nameKind problem
    | .undecodable _ => "UnicodeDecodeError"
  internal kind e.message

/-- A missing key is its own message, in quotes. -/
def missingKey (key : Text) : Failure := internal "KeyError" key.quoted

/-- The kind of a fault that is not the reader's to mend. -/
def faultKind : Yaml.Fault → Text
  | .undecodable _ => "UnicodeDecodeError"
  | .noCodePoint n => if n < 0x80000000 then "ValueError" else "OverflowError"
  | .noDigits => "IndexError"
  | .tooGreat => "OverflowError"
  | .notATruthValue _ => "KeyError"
  | .notATimestamp => "AttributeError"
  | .notAText => "TypeError"
  | .endless => "RecursionError"
  | _ => "ValueError"

def ofFault : Yaml.Fault → Failure
  | .notATruthValue t => missingKey t
  | fault => internal (faultKind fault) (fault.message [])

def ofLoading : LoadingError → Failure
  | .reading e => ofReading e
  | .unreadable e => ofRead e
  | .fault fault => ofFault fault

def ofVocabulary (e : RepeatedWord) : Failure := internal "ValueError" e.message

def ofInverted (e : InvertedRange) : Failure := invalidRange e.message

def ofLoad : LoadError → Failure
  | .failure e => load e.lang e.problem.message
  | .escaped kind text => internal kind text
  | .unreadable e => ofRead e

def ofHighlight : HighlightError → Failure
  | .unconfigured lang => unconfigured lang
  | .load e => ofLoad e
  | .inverted e => ofInverted e
  | .tooDeep lang maxDepth => tooDeep lang maxDepth

def ofUnknownType (e : Token.UnknownType) : Failure := missingKey e.type

end Failure

end SemanticHighlight
