import LspWire.Text.Percent
import LspWire.Uri.Host

/-!
# URIs

A `Uri` is a text split into scheme, authority, path, parameters, query and fragment. `Uri.parse`
splits a text and `Uri.text` puts the parts together again. Empty queries and fragments are left
out, and a path of a scheme that has an authority is made absolute. `Uri.normalize` writes the path
with as few percent signs as possible.

Splitting and joining are those of `urlparse` and `geturl` in the releases that check the brackets
around a host and write no empty authority before a path that begins with two slashes. Releases after
these write one there, so what `Uri.normalize` makes of such a path depends on the release, and so do
the results about it.
-/

namespace LspWire

open Uri in
/-- Why a text is not split, or not read as the place of a file. -/
inductive UriError where
  /-- A bracket without its partner in the authority, or in the wrong place. -/
  | bracket
  /-- A text in brackets that is not the address of a host. -/
  | host (e : HostError)
  /-- An authority with a character that stands for one with a meaning in URIs. -/
  | disguised (authority : String)
  | notFile (text : String)
  | nul
deriving DecidableEq, Repr

namespace UriError

/-- The wording of an error. -/
def message : UriError → String
  | .bracket => "Invalid IPv6 URL"
  | .host e => e.message
  | .disguised authority =>
    "netloc '" ++ authority ++ "' contains invalid characters under NFKC normalization"
  | .notFile text => "not a file URI: " ++ text
  | .nul => "embedded null byte"

end UriError

/-- The parts of a URI. -/
structure Uri where
  scheme : List Char
  authority : List Char
  path : List Char
  params : List Char
  query : List Char
  fragment : List Char
deriving DecidableEq, Repr

namespace Uri

/-- The characters of a scheme. -/
def isSchemeChar (c : Char) : Bool := c.isAlphanum || "+-.".toList.contains c

/-- Whether a text is a scheme: a letter, then letters, digits and some marks. -/
def isScheme (cs : List Char) : Bool :=
  match cs with
  | [] => false
  | c :: _ => c.isAlpha && cs.all isSchemeChar

/-- The scheme of a text, in lower case, and what comes after it. -/
def splitScheme (cs : List Char) : List Char × List Char :=
  let scheme := cs.takeWhile (· ≠ ':')
  if cs.contains ':' && isScheme scheme then (Text.lowerAscii scheme, (Text.cut ':' cs).2)
  else ([], cs)

/-- The characters that end an authority. -/
def endsAuthority (c : Char) : Bool := c = '/' || c = '?' || c = '#'

/-- The authority after two slashes, and what comes after it. -/
def splitAuthority : List Char → List Char × List Char
  | '/' :: '/' :: cs =>
    (cs.takeWhile fun c => !endsAuthority c, cs.dropWhile fun c => !endsAuthority c)
  | cs => ([], cs)

/-- The characters whose compatibility form has a slash, a question mark, a number sign, an at sign
or a colon in it. -/
def disguises : List Nat := [
  0x2047, 0x2048, 0x2049, 0x2100, 0x2101, 0x2105, 0x2106, 0x2A74, 0xFE13, 0xFE16, 0xFE55, 0xFE56,
  0xFE5F, 0xFE6B, 0xFF03, 0xFF0F, 0xFF1A, 0xFF1F, 0xFF20]

/-- The host of an authority: what comes after the user and before the port, without the brackets
around it. -/
def hostOf (authority : List Char) : Except UriError (List Char) :=
  let place := (Text.splitAt '@' authority).getLastD []
  if place.contains '[' then
    let (host, port) := Text.cut ']' place.tail
    if place.head? = some '[' ∧ (port.isEmpty ∨ port.head? = some ':') then .ok host
    else .error .bracket
  else .ok (Text.cut ':' place).1

/-- Refuses an authority with a bracket that has no partner, with brackets around anything but the
address of its host, or with a disguised delimiter. -/
def checkAuthority (authority : List Char) : Except UriError Unit := do
  if authority.contains '[' ≠ authority.contains ']' then throw .bracket
  if authority.contains '[' then
    let host ← hostOf authority
    (checkBracketed host).mapError .host
  if authority.any fun c => disguises.contains c.toNat then
    throw (.disguised (String.ofList authority))

/-- The schemes whose paths have parameters. -/
def schemesWithParams : List String := [
  "", "ftp", "hdl", "prospero", "http", "imap", "https", "shttp", "rtsp", "rtspu", "sip", "sips",
  "mms", "sftp", "tel"]

/-- The schemes with an authority. -/
def schemesWithAuthority : List String := [
  "", "ftp", "http", "gopher", "nntp", "telnet", "imap", "wais", "file", "mms", "https", "shttp",
  "snews", "prospero", "rtsp", "rtspu", "rsync", "svn", "svn+ssh", "sftp", "nfs", "git", "git+ssh",
  "ws", "wss"]

/-- A path and the parameters of its last segment. -/
def splitParams (path : List Char) : List Char × List Char :=
  let segments := Text.splitAt '/' path
  let last := segments.getLastD []
  (path.take (path.length - last.length) ++ (Text.cut ';' last).1, (Text.cut ';' last).2)

/-- The characters that are left out of every URI. -/
def isDropped (c : Char) : Bool := c = '\t' || c = '\r' || c = '\n'

/-- The characters that are left out at the start of a URI: the ASCII controls and the blank. -/
def isLeading (c : Char) : Bool := c.toNat ≤ 0x20

/-- The parts of a text. -/
def parse (text : List Char) : Except UriError Uri := do
  let text := (text.dropWhile isLeading).filter fun c => !isDropped c
  let (scheme, rest) := splitScheme text
  let (authority, rest) := splitAuthority rest
  checkAuthority authority
  let (rest, fragment) := Text.cut '#' rest
  let (path, query) := Text.cut '?' rest
  let (path, params) :=
    if schemesWithParams.contains (String.ofList scheme) then splitParams path else (path, [])
  pure ⟨scheme, authority, path, params, query, fragment⟩

/-- A mark with a part after it, or nothing if the part is empty. -/
def marked (mark : Char) (part : List Char) : List Char := if part.isEmpty then [] else mark :: part

/-- Whether an authority is written, also if it is empty. -/
def showsAuthority (u : Uri) (path : List Char) : Bool :=
  !u.authority.isEmpty ||
    (!u.scheme.isEmpty && schemesWithAuthority.contains (String.ofList u.scheme) &&
      path.take 2 ≠ ['/', '/'])

/-- A path that is empty or begins with a slash. -/
def absolute : List Char → List Char
  | [] => []
  | c :: cs => if c = '/' then c :: cs else '/' :: c :: cs

/-- The text of the parts. -/
def text (u : Uri) : List Char :=
  let path := u.path ++ marked ';' u.params
  let place := if u.showsAuthority path then '/' :: '/' :: u.authority ++ absolute path else path
  (if u.scheme.isEmpty then [] else u.scheme ++ [':']) ++ place ++ marked '?' u.query ++
    marked '#' u.fragment

/-- The URI with its path decoded and encoded again. -/
def requoted (u : Uri) : Uri :=
  { u with path := Text.Percent.encode (Text.Percent.decode u.path) }

/-- A text in the form that equal paths share. -/
def normalize (text : List Char) : Except UriError (List Char) :=
  (parse text).map fun u => u.requoted.text

end Uri

end LspWire
