import SemanticHighlight.Yaml.Literal

/-!
# Tags

A tag says what a node stands for. A plain scalar without a tag gets one by its spelling: truth
values, whole and floating point numbers, dates, the null value and two special names; every other
spelling is a text.
-/

namespace SemanticHighlight.Yaml

inductive Tag where
  | null
  | bool
  | int
  | real
  | bytes
  | timestamp
  | orderedMap
  | pairs
  | set
  | text
  | list
  | table
  | merge
  | default
  | unknown (name : Text)
  deriving DecidableEq, Repr

namespace Tag

def standardSpace : Text := "tag:yaml.org,2002:"

def names : List (Text × Tag) :=
  [("null", null), ("bool", bool), ("int", int), ("float", real), ("binary", bytes),
    ("timestamp", timestamp), ("omap", orderedMap), ("pairs", pairs), ("set", set), ("str", text),
    ("seq", list), ("map", table), ("merge", merge), ("value", default)]

def ofText (t : Text) : Tag :=
  ((Text.after? standardSpace t).bind fun name => names.lookup name).getD (unknown t)

def toText : Tag → Text
  | unknown name => name
  | tag => standardSpace ++ ((names.find? fun n => n.2 = tag).map Prod.fst).getD []

/-- The word in lower case, capitalised or in upper case. -/
def isCased (word t : Text) : Bool :=
  let upper (c : CodePoint) : CodePoint := CodePoint.ofNat (c.val - 0x20)
  t = word || t = (word.take 1).map upper ++ word.drop 1 || t = word.map upper

def isTruth (t : Text) : Bool := truthWords.any fun w => isCased w.1 t

def isNull (t : Text) : Bool := t = [] || t = "~" || isCased "null" t

def isRun (inside : CodePoint → Bool) (t : Text) : Bool :=
  t ≠ [] && t.all fun c => inside c || c = '_'

def isNumeral (first : CodePoint → Bool) : Text → Bool
  | c :: rest => first c && rest.all fun d => d.isDigit || d = '_'
  | [] => false

/-- A minute or a second: one digit, or two below sixty. -/
def isSixtieth : Text → Bool
  | [a] => a.isDigit
  | [a, b] => isOneOf "012345" a && b.isDigit
  | _ => false

/-- Several parts between colons, the first a numeral. -/
def isBaseSixty (first : CodePoint → Bool) (t : Text) : Bool :=
  match t.splitOn ':' with
  | head :: next :: rest => isNumeral first head && (next :: rest).all isSixtieth
  | _ => false

def isPositiveDigit (c : CodePoint) : Bool := c.isDigit && c ≠ '0'

def isInteger (t : Text) : Bool :=
  let (_, n) := t.unsigned
  let isBinary (c : CodePoint) : Bool := isOneOf "01" c
  let isOctal (c : CodePoint) : Bool := isOneOf "01234567" c
  let isHex (c : CodePoint) : Bool := c.hexValue?.isSome
  n = "0" || ((Text.after? "0b" n).map (isRun isBinary)).getD false ||
    ((Text.after? "0" n).map (isRun isOctal)).getD false ||
    ((Text.after? "0x" n).map (isRun isHex)).getD false ||
    isNumeral isPositiveDigit n || isBaseSixty isPositiveDigit n

def isExponent : Text → Bool
  | [] => true
  | e :: sign :: digits =>
    isOneOf "eE" e && isOneOf "+-" sign && digits ≠ [] && digits.all CodePoint.isDigit
  | _ => false

def isFractionChar (c : CodePoint) : Bool := c.isDigit || c = '_'

def isReal (t : Text) : Bool :=
  let (_, n) := t.unsigned
  let special (words : List Text) (t : Text) : Bool :=
    ((Text.after? "." t).map words.contains).getD false
  let pointed :=
    match n.cut '.' with
    | (whole, some fraction) =>
      let digits := fraction.takeWhile isFractionChar
      let exponent := fraction.drop digits.length
      (isNumeral CodePoint.isDigit whole && isExponent exponent) ||
        (isBaseSixty CodePoint.isDigit whole && exponent = []) ||
        (t.head? = some ('.' : CodePoint) && isNumeral CodePoint.isDigit digits && isExponent exponent)
    | (_, none) => false
  pointed || special ["inf", "Inf", "INF"] n || special ["nan", "NaN", "NAN"] t

/-- A date alone has two digits for the month and for the day. -/
def isTimestamp (t : Text) : Bool :=
  match timestamp? t with
  | some (_, some _) => true
  | some (_, none) => t.length = 10
  | none => false

/-- The tag of a plain scalar without one. A line break at the end, which a scalar in another style
may have, makes no difference. -/
def ofPlain (t : Text) : Tag :=
  let t := if t.length = 1 then t else withoutFinalBreak t
  if isTruth t then bool
  else if isReal t then real
  else if isInteger t then int
  else if t = "<<" then merge
  else if isNull t then null
  else if isTimestamp t then timestamp
  else if t = "=" then default
  else text

end Tag

end SemanticHighlight.Yaml
