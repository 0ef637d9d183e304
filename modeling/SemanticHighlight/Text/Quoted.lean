import SemanticHighlight.Text.Printable

/-!
# Quoted texts

A quoted text shows on one line exactly which characters it has. It stands between apostrophes, or
between double quotes if it holds an apostrophe and no double quote; the quote in use, the
backslash and all that is not printable are escaped.
-/

namespace SemanticHighlight.Text

def apostrophe : CodePoint := ⟨0x27, by decide⟩

def doubleQuote : CodePoint := ⟨0x22, by decide⟩

/-- The double quote if it needs no escape and the apostrophe does, else the apostrophe. -/
def quoteFor (t : Text) : CodePoint :=
  if t.contains apostrophe && !t.contains doubleQuote then doubleQuote else apostrophe

def escape (quote c : CodePoint) : Text :=
  if c = quote ∨ c.val = 0x5C then "\\" ++ [c]
  else if c.val = 10 then "\\n"
  else if c.val = 13 then "\\r"
  else if c.val = 9 then "\\t"
  else if c.isPrintable then [c]
  else numbered c

def quoted (t : Text) : Text :=
  let quote := quoteFor t
  quote :: t.flatMap (escape quote) ++ [quote]

end SemanticHighlight.Text
