import LspWire.Text.Blank
import LspWire.Text.Quoted

/-!
# File systems

A `FileSystem` is what a command sees of the files: their texts, each under the file's own path, and
the other paths that lead to them. A file has several paths where there are links, and where a name
that begins at the root leads back to the working directory. A name is read segment by segment: a
point stays where it is, two points lead up, and an empty segment counts for nothing but at the end,
where it says that a directory is meant. `FileSystem.read` and `FileSystem.create` give the file's own
path, and fail on names that lead to no file.
-/

namespace LspWire.Command

/-- The segments of a name. -/
def segmentsOf (name : String) : List String :=
  (Text.splitAt '/' name.toList).map String.ofList

/-- A directory by the way that leads to it. -/
inductive Folder where
  | working
  | root
  /-- The directory above a directory that is the working one or above it. -/
  | above (f : Folder)
  | inside (f : Folder) (name : String)
deriving DecidableEq, Repr

namespace Folder

/-- What the paths of the files in a directory begin with. -/
def path : Folder → String
  | .working => ""
  | .root => "/"
  | .above f => f.path ++ "../"
  | .inside f name => f.path ++ name ++ "/"

/-- The directory one step up. The root is its own. -/
def up : Folder → Folder
  | .root => .root
  | .inside f _ => f
  | f => .above f

/-- Where a name starts. -/
def start (name : String) : Folder := if name.startsWith "/" then .root else .working

/-- Whether a segment leads nowhere. -/
def isIdle (segment : String) : Bool := segment.isEmpty || segment = "."

/-- The directory with some segments, seen from the working directory if that holds it. -/
def ofSegments (working segments : List String) : Folder :=
  if working.isPrefixOf segments then (segments.drop working.length).foldl .inside .working
  else segments.foldl .inside .root

end Folder

/-- Files by path, with their texts, and the paths of the directories besides the working one and
those above it. -/
structure Directory where
  files : List (String × String)
  folders : List String
deriving DecidableEq, Repr

/-- A directory with the other paths that lead to what it holds. -/
structure FileSystem extends Directory where
  /-- Paths that lead to a directory by another way than its own. -/
  places : List (String × Folder)
  /-- Paths that lead to a file, with the file's own path. -/
  links : List (String × String)
deriving DecidableEq, Repr

/-- In a directory by itself every file has one path. -/
instance : Coe Directory FileSystem := ⟨fun dir => { dir with places := [], links := [] }⟩

/-- Why a file cannot be opened. -/
inductive OpenError where
  | absent
  | notADirectory
  | isDirectory
  | nameTooLong
deriving DecidableEq, Repr

/-- The wording of an error about a name. -/
def OpenError.message (name : String) (e : OpenError) : String :=
  let reason := match e with
    | .absent => "[Errno 2] No such file or directory: "
    | .notADirectory => "[Errno 20] Not a directory: "
    | .isDirectory => "[Errno 21] Is a directory: "
    | .nameTooLong => "[Errno 36] File name too long: "
  reason ++ Text.quoted name

/-- What a name leads to. -/
inductive Target where
  | folder
  /-- A segment of a directory, with a file or without. A slash may follow the segment. -/
  | file (f : Folder) (segment : String) (slashed : Bool)
deriving DecidableEq, Repr

/-- The names that a name passes through, and itself. -/
def passed (name : String) : List String :=
  let segments := segmentsOf name
  (List.range segments.length).map fun n => "/".intercalate (segments.take (n + 1))

namespace Directory

/-- The text of the file with a path. -/
def text? (dir : Directory) (path : String) : Option String := dir.files.lookup path

/-- Files with the text of one set. -/
def putFile (path text : String) : List (String × String) → List (String × String)
  | [] => [(path, text)]
  | (other, old) :: files =>
    if other = path then (path, text) :: files else (other, old) :: putFile path text files

theorem lookup_putFile_self (path text : String) (files : List (String × String)) :
    (putFile path text files).lookup path = some text := by
  induction files with
  | nil => simp [putFile]
  | cons entry files ih =>
    obtain ⟨other, old⟩ := entry
    by_cases h : other = path
    · simp [putFile, h]
    · have h' : (path == other) = false := by simpa using fun e : path = other => h e.symm
      simp [putFile, h, List.lookup_cons, h', ih]

/-- Setting a file leaves every other one as it is. -/
theorem lookup_putFile_of_ne {path other : String} (text : String) (files : List (String × String))
    (h : other ≠ path) : (putFile path text files).lookup other = files.lookup other := by
  induction files with
  | nil => simp [putFile, List.lookup_cons, beq_false_of_ne h]
  | cons entry files ih =>
    obtain ⟨key, old⟩ := entry
    by_cases hk : key = path
    · subst hk
      simp [putFile, List.lookup_cons, beq_false_of_ne h]
    · rw [putFile, if_neg hk, List.lookup_cons, List.lookup_cons, ih]

end Directory

namespace FileSystem

/-- The working directory with some files, and nothing else. -/
def ofFiles (files : List (String × String)) : FileSystem := (⟨files, []⟩ : Directory)

/-- The most octets of a segment. -/
def segmentLimit : Nat := 255

/-- One more than the most octets of a name. -/
def nameLimit : Nat := 4096

def isTooLong (segment : String) : Bool := segmentLimit < segment.utf8ByteSize

/-- The directory that is at the place of a directory. -/
def place (fs : FileSystem) (f : Folder) : Folder := (fs.places.lookup f.path).getD f

/-- The own path of the file at a segment of a directory. -/
def filePath (fs : FileSystem) (f : Folder) (segment : String) : String :=
  (fs.links.lookup (f.path ++ segment)).getD (f.path ++ segment)

/-- Why a segment of a directory cannot be passed through. -/
def faultOf (fs : FileSystem) (f : Folder) (segment : String) : OpenError :=
  if isTooLong segment then .nameTooLong
  else if (fs.text? (fs.filePath f segment)).isSome then .notADirectory
  else .absent

/-- What some segments lead to from a directory. -/
def walk (fs : FileSystem) : Folder → List String → Except OpenError Target
  | _, [] => .ok .folder
  | f, segment :: rest =>
    if Folder.isIdle segment then walk fs f rest
    else if segment = ".." then walk fs (fs.place f.up) rest
    else if fs.folders.contains (Folder.inside f segment).path then
      walk fs (fs.place (.inside f segment)) rest
    else if rest.all String.isEmpty then .ok (.file f segment (!rest.isEmpty))
    else .error (fs.faultOf f segment)

/-- What a name leads to. -/
def find (fs : FileSystem) (name : String) : Except OpenError Target :=
  if name.isEmpty then .error .absent
  else if nameLimit ≤ name.utf8ByteSize then .error .nameTooLong
  else fs.walk (fs.place (Folder.start name)) (segmentsOf name)

/-- The file system with the file of a path set to a text. -/
def put (fs : FileSystem) (path text : String) : FileSystem :=
  { fs with files := Directory.putFile path text fs.files }

/-- The path of the file with a name, opened for reading. -/
def read (fs : FileSystem) (name : String) : Except OpenError String := do
  match ← fs.find name with
  | .folder => throw .isDirectory
  | .file f segment slashed =>
    let path := fs.filePath f segment
    if slashed || isTooLong segment || (fs.text? path).isNone then throw (fs.faultOf f segment)
    else pure path

/-- The path of the file with a name, opened for writing, and the file system after that: the file is
made if it is not there, and emptied if it is. -/
def create (fs : FileSystem) (name : String) : Except OpenError (String × FileSystem) := do
  match ← fs.find name with
  | .folder => throw .isDirectory
  | .file f segment slashed =>
    let path := fs.filePath f segment
    if slashed then throw .isDirectory
    else if isTooLong segment then throw .nameTooLong
    else pure (path, fs.put path "")

@[simp] theorem text?_put_self (fs : FileSystem) (path text : String) :
    (fs.put path text).text? path = some text :=
  Directory.lookup_putFile_self path text fs.files

theorem text?_put_of_ne {path other : String} (fs : FileSystem) (text : String)
    (h : other ≠ path) : (fs.put path text).text? other = fs.text? other :=
  Directory.lookup_putFile_of_ne text fs.files h

end FileSystem

end LspWire.Command
