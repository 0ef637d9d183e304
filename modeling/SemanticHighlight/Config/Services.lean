import SemanticHighlight.Config.Basic
import SemanticHighlight.Yaml.Reading

/-!
# What reading a configuration leaves to others

Three things are done by libraries that know nothing of configurations: one makes a document of the
bytes of a file, one puts a document into words for the log, and one holds a document against the
schema. How much of the stack is left to them is up to whoever calls, so that each of them may fail
on a document that is nested deeply enough.
-/

namespace SemanticHighlight.Config

class Services where
  readYaml : Octets → Except Yaml.Fault Content
  tell : Content → Except Yaml.Fault Text
  /-- The finding that is reported of a document, if there is any. -/
  check : Content → Except Dilemma (Option Finding)

def isTooLong (i : Int) : Bool := Nat.pow 10 Numeral.maxDigits ≤ i.natAbs

/-- Libraries that fail for want of stack only where a file opens more collections than `limit`. -/
abbrev Services.ofLimit (limit : Nat) : Services where
  readYaml bytes := Yaml.read limit (.ofBytes bytes)
  tell document :=
    if document.written.holdsInt isTooLong then .error (.tooManyDigits none)
    else .ok document.written.plain
  check document := Finding.select? (schema.findings document document.root)

/-- As much as is left where loading the configuration comes first. -/
instance Services.usual : Services := .ofLimit 490

end SemanticHighlight.Config
