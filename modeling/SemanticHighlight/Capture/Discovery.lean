import SemanticHighlight.Capture.Basic
import SemanticHighlight.Text.Blank

/-!
# Which language a region is in

Three rules name the language of an injected region, the first that applies decides: a setting of
the pattern; the text of a capture called `injection.language`; a capture called like a configured
language. Under the first two the region is the capture `injection.content`, and the first may do
with the first capture instead; under the third it is the capture itself. No later rule steps in
when the deciding one lacks its region.
-/

namespace SemanticHighlight.Match

def languageKey : Text := "injection.language"

def contentName : Text := "injection.content"

def directive? (m : Match) : Option Text := (m.setting? languageKey).filter (· ≠ [])

/-- The language a capture spells out, blanks around it removed. -/
def spelled? (m : Match) : Option Text :=
  ((m.find? languageKey).map fun c => c.text.trim).filter (· ≠ [])

def named? (m : Match) (isConfigured : Text → Bool) : Option Capture :=
  m.captures.find? fun c => isConfigured c.name

/-- The language and the region of a match of an injection query. -/
def injection? (m : Match) (isConfigured : Text → Bool) : Option (Text × Capture) :=
  match m.directive?, m.spelled?, m.named? isConfigured with
  | some lang, _, _ =>
    ((m.find? contentName).or m.captures.head?).map fun content => (lang, content)
  | none, some lang, _ => (m.find? contentName).map fun content => (lang, content)
  | none, none, some content => some (content.name, content)
  | none, none, none => none

end SemanticHighlight.Match
