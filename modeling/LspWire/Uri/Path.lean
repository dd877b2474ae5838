import LspWire.Uri.Basic

/-!
# Paths of files

Absolute paths as URIs with the scheme `file`, and back. An authority is the server of a share,
whose path begins with two slashes.
-/

namespace LspWire.Uri

/-- The segments of a path that lead somewhere. -/
def segments (path : List Char) : List (List Char) :=
  (Text.splitAt '/' path).filter fun segment => !segment.isEmpty && segment ≠ ['.']

/-- Segments with a slash between them. -/
def joined (segments : List (List Char)) : List Char := ['/'].intercalate segments

/-- The slashes at the start of a path: exactly two are kept, any other number becomes one. -/
def root (path : List Char) : List Char :=
  match (path.takeWhile (· = '/')).length with
  | 0 => []
  | 2 => ['/', '/']
  | _ => ['/']

/-- A path without repeated slashes, slashes at its end and segments that lead nowhere. -/
def cleaned (path : List Char) : List Char :=
  let short := root path ++ joined (segments path)
  if short.isEmpty then ['.'] else short

/-- Segments without steps to the parent, after the reversed segments of a directory. The parent of
the root is the root. -/
def climb : List (List Char) → List (List Char) → List (List Char)
  | above, [] => above.reverse
  | above, segment :: rest =>
    if segment = ['.', '.'] then climb above.tail rest else climb (segment :: above) rest

/-- An absolute path without any detour. -/
def resolved (path : List Char) : List Char := '/' :: joined (climb [] (segments path))

/-- The URI of an absolute path. -/
def ofPath (path : List Char) : Except UriError (List Char) :=
  if path.contains '\x00' then .error .nul
  else .ok ("file://".toList ++ Text.Percent.encode (resolved path))

/-- The path that a URI of a file stands for. -/
def toPath (text : List Char) : Except UriError (List Char) := do
  let u ← parse text
  if u.scheme ≠ "file".toList then throw (.notFile (String.ofList text))
  let path := Text.Percent.decode u.path
  pure (cleaned (if u.authority.isEmpty then path else '/' :: '/' :: u.authority ++ path))

end LspWire.Uri
