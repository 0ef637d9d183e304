import SemanticHighlight.Server.IpAddress
import SemanticHighlight.Text.Quoted
import SemanticHighlight.Text.Utf8

/-!
# Addresses of files

An editor names its folders by addresses. The path of an address is what stands between the host and
the query, with percent escapes decoded; on a drive it begins with the drive's letter, and on a
foreign host with the host. A host in brackets has to be numeric, and no host may hold characters
that only look different from those that end it.
-/

namespace SemanticHighlight

/-- The parts of an address that its path depends on. -/
structure Uri where
  scheme : Text
  host : Text
  path : Text
  deriving DecidableEq, Repr

inductive UriError where
  /-- One of the two brackets around a host is missing. -/
  | loneBracket
  | futureHost
  | version4InBrackets
  | notAHost (host : Text)
  /-- A character of the host stands for one that separates the parts of an address. -/
  | separatorForm (host : Text)
  /-- A path names a host and nothing on it. -/
  | endlessHost
  | unencodable (e : Unencodable)
  deriving DecidableEq, Repr

namespace UriError

def message : UriError → Text
  | loneBracket => "Invalid IPv6 URL"
  | futureHost => "IPvFuture address is invalid"
  | version4InBrackets => "An IPv4 address cannot be in brackets"
  | notAHost host => host.quoted ++ " does not appear to be an IPv4 or IPv6 address"
  | separatorForm host =>
    "netloc '" ++ host ++ "' contains invalid characters under NFKC normalization"
  | endlessHost => "substring not found"
  | unencodable e => e.message

end UriError

namespace Uri

def isAsciiLetter (c : CodePoint) : Bool :=
  let c := c.lowerAscii
  0x61 ≤ c.val && c.val ≤ 0x7A

def isSchemeCharacter (c : CodePoint) : Bool :=
  isAsciiLetter c || c.isDigit || c = '+' || c = '-' || c = '.'

/-- The scheme, in lower case, and what follows its colon. -/
def cutScheme (t : Text) : Text × Text :=
  match t.cut ':' with
  | (first :: more, some rest) =>
    if isAsciiLetter first && more.all isSchemeCharacter then
      (Text.lowerAscii (first :: more), rest)
    else ([], t)
  | _ => ([], t)

def endsHost (c : CodePoint) : Bool := c = '/' || c = '?' || c = '#'

/-- The host, if two slashes announce one, and what follows it. -/
def cutHost (t : Text) : Text × Text :=
  match Text.after? "//" t with
  | some rest => (rest.takeWhile (!endsHost ·), rest.dropWhile (!endsHost ·))
  | none => ([], t)

def bracketed (host : Text) : Text := (((host.cut '[').2.getD []).cut ']').1

/-- Brackets go around a numeric address that is not of version 4. -/
def checkBrackets (host : Text) : Except UriError Unit :=
  let inside := bracketed host
  match host.contains ('[' : CodePoint), host.contains (']' : CodePoint) with
  | false, false => .ok ()
  | true, true =>
    if inside.startsWith "v" then (if IpAddress.isFuture inside then .ok () else .error .futureHost)
    else if IpAddress.isVersion4 inside then .error .version4InBrackets
    else if IpAddress.isVersion6 inside then .ok ()
    else .error (.notAHost inside)
  | _, _ => .error .loneBracket

/-- The characters whose plain form has one of `/ ? # @ :` in it. -/
def separatorForms : List Nat :=
  [0x2047, 0x2048, 0x2049, 0x2100, 0x2101, 0x2105, 0x2106, 0x2A74, 0xFE13, 0xFE16, 0xFE55, 0xFE56,
    0xFE5F, 0xFE6B, 0xFF03, 0xFF0F, 0xFF1A, 0xFF1F, 0xFF20]

def checkForms (host : Text) : Except UriError Unit :=
  if host.any fun c => separatorForms.contains c.val then .error (.separatorForm host) else .ok ()

/-- The schemes whose paths may have parameters behind a semicolon; so may those of no scheme. -/
def parameterSchemes : List Text :=
  ["", "ftp", "hdl", "prospero", "http", "imap", "https", "shttp", "rtsp", "rtspu", "sip", "sips",
    "mms", "sftp", "tel"]

def dropParameters (t : Text) : Text :=
  let last : Text := (t.reverse.takeWhile (· != ('/' : CodePoint))).reverse
  t.take (t.length - last.length) ++ (last.cut ';').1

/-- Bytes that an escaped ASCII text stands for. -/
def unescape : Text → Octets
  | [] => []
  | [c] => [UInt8.ofNat c.val]
  | [c, d] => [UInt8.ofNat c.val, UInt8.ofNat d.val]
  | c :: d :: e :: rest =>
    if c = '%' then
      match d.hexValue?, e.hexValue? with
      | some high, some low => UInt8.ofNat (16 * high + low) :: unescape rest
      | _, _ => UInt8.ofNat c.val :: unescape (d :: e :: rest)
    else UInt8.ofNat c.val :: unescape (d :: e :: rest)

/-- Decodes the percent escapes of every ASCII stretch; the bytes of a stretch are a text of their
own, so that an escaped character never joins one that is written out. -/
def decode (t : Text) : Text :=
  let pieces := t.splitBy fun c d => c.isAscii == d.isAscii
  pieces.flatMap fun piece =>
    if piece.all CodePoint.isAscii then Text.decodeReplacing (unescape piece) else piece

def isIgnored (c : CodePoint) : Bool := c.val = 9 || c.val = 10 || c.val = 13

def ofText (t : Text) : Except UriError Uri := do
  let t := (t.dropWhile fun c => c.val ≤ 0x20).filter fun c => !isIgnored c
  let (scheme, rest) := cutScheme t
  let (host, rest) := cutHost rest
  checkBrackets host
  checkForms host
  let path := ((rest.cut '#').1.cut '?').1
  let path := if parameterSchemes.contains scheme then dropParameters path else path
  return ⟨scheme, decode host, decode path⟩

/-- Whether a path begins with the letter of a drive, a colon behind it. -/
def hasDrive : Text → Bool
  | slash :: drive :: colon :: _ => slash = '/' && isAsciiLetter drive && colon = ':'
  | _ => false

def filePath (u : Uri) : Text :=
  if u.host ≠ [] ∧ u.path ≠ [] ∧ u.scheme = "file" then "//" ++ u.host ++ u.path
  else if hasDrive u.path then Text.lowerAscii (u.path.take 2).tail ++ u.path.drop 2
  else u.path

/-- The host that a path of the file system begins with, if two slashes announce one, and the path
on it. -/
def cutShare (path : Text) : Except UriError (Text × Text) :=
  match Text.after? "//" path with
  | none => .ok ([], path)
  | some rest =>
    if rest.contains ('/' : CodePoint) then .ok (rest.takeWhile (· ≠ '/'), rest.dropWhile (· ≠ '/'))
    else .error .endlessHost

def checkEncodable (t : Text) : Except UriError Unit :=
  match t.unencodable? with
  | some e => .error (.unencodable e)
  | none => .ok ()

/-- Whether a path of the file system has an address. The drive is written without escapes. -/
def checkFilePath (path : Text) : Except UriError Unit := do
  let (host, path) ← cutShare path
  let path : Text := if path.head? = some ('/' : CodePoint) then path else '/' :: path
  checkEncodable (if hasDrive path then path.drop 3 else path)
  checkEncodable host

end Uri

end SemanticHighlight
