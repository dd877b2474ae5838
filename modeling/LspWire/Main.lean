import LspWire.Command.Machine

/-!
# The program

The outer layer of the command line: it reads the files that the words name and the standard input,
runs the command, and writes what the run leaves behind.
-/

open LspWire

/-- The segments of the way from the root to what a name leads to. -/
def realSegments (name : String) : IO (List String) := do
  let path ← IO.FS.realPath name
  return (Command.segmentsOf path.toString).filter (!·.isEmpty)

/-- What stands at the end of a name, if anything does. -/
def readName (working : List String) (name : String) : IO Command.FileSystem := do
  let nothing := Command.FileSystem.ofFiles []
  let segments := Command.segmentsOf name
  let segment := segments.getLastD ""
  if Command.Folder.isIdle segment then return nothing
  let parentName := match segments.dropLast with
    | [] => "."
    | [""] => "/"
    | before => "/".intercalate before
  try
    let parent := Command.Folder.ofSegments working (← realSegments parentName)
    let real ← realSegments name
    if ← (← IO.FS.realPath name).isDir then
      let reached := if segment = ".." then parent.up else .inside parent segment
      let own := Command.Folder.ofSegments working real
      return { nothing with folders := [reached.path], places := [(reached.path, own)] }
    else
      let path := (Command.Folder.ofSegments working real.dropLast).path ++ real.getLastD ""
      let text ← IO.FS.readFile name
      return { nothing with files := [(path, text)], links := [(parent.path ++ segment, path)] }
  catch _ => return nothing

/-- The directories and files that some names lead to or pass through. -/
def readFileSystem (names : List String) : IO Command.FileSystem := do
  let working ← realSegments "."
  let found ← (names.flatMap Command.passed).mapM (readName working)
  return {
    files := found.flatMap (·.files)
    folders := found.flatMap (·.folders)
    places := (Command.Folder.root.path, Command.Folder.ofSegments working []) ::
      found.flatMap (·.places)
    links := found.flatMap (·.links) }

/-- The rest of a stream. -/
partial def readRest (stream : IO.FS.Stream) (text : String) : IO String := do
  let line ← stream.getLine
  if line.isEmpty then return text else readRest stream (text ++ line)

/-- The machine that the program is compiled for. -/
def host : Command.Machine := ⟨10000, Command.ampleWidth⟩

def main (words : List String) : IO UInt32 := do
  let value := (← IO.getEnv Surface.variableName).getD ""
  let ambient := Surface.enabledBy [(Surface.variableName, value)]
  let fs ← readFileSystem (words.flatMap Command.namesIn)
  let input ← if Command.needsInput words fs then readRest (← IO.getStdin) "" else pure ""
  match host.run? ambient words input fs with
  | none =>
    IO.eprintln "The source nests too deeply, or holds half of a pair of codes by itself."
    return 1
  | some outcome =>
    for (path, text) in outcome.directory.files do
      if fs.text? path ≠ some text then IO.FS.writeFile path text
    IO.print outcome.output
    for line in outcome.errors do IO.eprintln line
    return outcome.status.toUInt32
