import SemanticHighlight.Text.Basic

/-!
# White space

The characters that are trimmed from the name of a language: those whose bidirectional class is a
separator or white space, or whose category is a space separator.
-/

namespace SemanticHighlight

namespace CodePoint

def isBlank (c : CodePoint) : Bool :=
  let n := c.val
  (0x9 ≤ n && n ≤ 0xD) || (0x1C ≤ n && n ≤ 0x20) || n == 0x85 || n == 0xA0 || n == 0x1680 ||
    (0x2000 ≤ n && n ≤ 0x200A) || n == 0x2028 || n == 0x2029 || n == 0x202F || n == 0x205F ||
    n == 0x3000

end CodePoint

namespace Text

def trimLeft (t : Text) : Text := t.dropWhile CodePoint.isBlank

def trim (t : Text) : Text := (trimLeft (trimLeft t).reverse).reverse

end Text

end SemanticHighlight
