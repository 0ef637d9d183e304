import SemanticHighlight.Highlight.Document
import SemanticHighlight.Json.Basic

/-!
# Verdicts on languages

Validation loads every configured language in turn and passes a verdict on each. The verdicts are
reported as text, failed languages first, or as a record in the order of the configuration.
-/

namespace SemanticHighlight

structure Verdict where
  lang : Text
  /-- Why the language cannot be loaded, unless it can. -/
  problem : Option Text
  deriving DecidableEq, Repr

namespace Verdict

def isValid (v : Verdict) : Bool := v.problem.isNone

def validLines (verdicts : List Verdict) : List Text :=
  match verdicts.filter isValid with
  | [] => []
  | valid => ("Valid languages:" : Text) :: valid.map fun v => "  ✓ " ++ v.lang

def failedLines (verdicts : List Verdict) : List Text :=
  let lines := verdicts.flatMap fun v =>
    match v.problem with
    | none => ([] : List Text)
    | some problem => [("  ✗ " : Text) ++ v.lang, ("    Error: " : Text) ++ problem]
  if lines.isEmpty then [] else ("Failed languages:" : Text) :: lines ++ [[]]

def report (verdicts : List Verdict) : Text :=
  if verdicts.isEmpty then "No languages configured"
  else
    let valid := verdicts.countP isValid
    let heading : Text := "Found " ++ Text.ofNat verdicts.length ++ " languages (" ++
      Text.ofNat valid ++ " valid, " ++ Text.ofNat (verdicts.length - valid) ++ " failed):"
    Text.join "\n" ([heading, []] ++ failedLines verdicts ++ validLines verdicts)

def statusText (ok : Bool) : Text := if ok then "ok" else "error"

def json (v : Verdict) : Json :=
  let message (problem : Text) : Text × Json := ("message", .text problem)
  .object (("lang", .text v.lang) :: ("status", .text (statusText v.isValid)) ::
    (v.problem.map message).toList)

def allValid (verdicts : List Verdict) : Bool := verdicts.all isValid

def summary (verdicts : List Verdict) : Json :=
  .object [("status", .text (statusText (allValid verdicts))),
    ("validated", .list (verdicts.map json))]

end Verdict

namespace Session

variable {World Grammar Query : Type}

def judge (provider : Provider World Grammar Query) (lang : Text) :
    Attempt World Grammar Query Verdict := do
  match ← resolve provider lang with
  | .ok _ => return ⟨lang, none⟩
  | .error (.failed (.failure e)) => return ⟨lang, some e.problem.message⟩
  | .error e => throw (.ofResolve e)

def validate (provider : Provider World Grammar Query) :
    Attempt World Grammar Query (List Verdict) := do
  (← get).registry.languages.mapM (judge provider)

end Session

end SemanticHighlight
