import LspWire.Command.Invocation
import LspWire.Json.Printer
import LspWire.Json.Reader
import LspWire.Protocol.Method

/-!
# Running commands

`run` is the whole program as a function of its words, its input, the files and whether the
environment enables the proposed parts; `runWithin` says besides how wide an indentation memory has
room for. The `Outcome` is how the run ends, what is printed, and the files afterwards. A run ends with
an exit status, or it breaks off with a `Breakdown`: what is wrong with the data or the words is
reported and gives a status, other errors break the run off.
-/

namespace LspWire.Command

open Protocol

/-- Why a run breaks off. -/
inductive Breakdown where
  /-- An integer in the data of more digits than are read. -/
  | longInteger (digits : Nat)
  | operation (e : Error)
  /-- An indentation beyond the integers of a machine word. -/
  | unboundedIndent
  /-- An indentation of more blanks than there is room for. -/
  | wideIndent
  /-- No indentation, for data that needs one. -/
  | missingIndent
  /-- No place for the output. -/
  | missingOutput
deriving DecidableEq

/-- The wording of a breakdown, if it has one of its own. -/
def Breakdown.message? : Breakdown → Option String
  | .longInteger digits => some (Number.limitMessage digits)
  | .operation e => e.message?
  | .unboundedIndent => some "cannot fit 'int' into an index-sized integer"
  | .wideIndent => some ""
  | .missingIndent => none
  | .missingOutput => none

/-- How a run ends. -/
inductive Ending where
  | finished (status : Nat)
  | broken (cause : Breakdown)
deriving DecidableEq

/-- What a run of the program leaves behind. -/
structure Outcome where
  ending : Ending
  output : String
  /-- The lines for the standard error. -/
  errors : List String
  directory : FileSystem
deriving DecidableEq

/-- The exit status. -/
def Outcome.status (o : Outcome) : Nat :=
  match o.ending with
  | .finished status => status
  | .broken _ => 1

/-- A run that breaks off after some lines of the log. -/
def brokenOff (log : List String) (fs : FileSystem) (cause : Breakdown) : Outcome :=
  ⟨.broken cause, "", log ++ cause.message?.toList, fs⟩

/-- A text in which every line break is a line feed. -/
def unifyLines : List Char → List Char
  | '\r' :: '\n' :: cs => '\n' :: unifyLines cs
  | c :: cs => (if c = '\r' then '\n' else c) :: unifyLines cs
  | [] => []

/-- The text that a command decodes. -/
def sourceText (input : String) (fs : FileSystem) (source? : Option String) : List Char :=
  match source? with
  | none => input.toList
  | some path => unifyLines ((fs.text? path).getD "").toList

/-- The lines of a log, if it is asked for. -/
def logLines (verbose : Bool) (lines : List String) : List String := if verbose then lines else []

/-- The line of the log for data that is about to be decoded. -/
def decodingLine (name : TypeName) (version : SpecVersion) : String :=
  "DEBUG lsp_types.main_cli - Decoding " ++ name.text ++ " as LSP " ++ version.value

/-- The line of the log for data that does not fit its type. -/
def failureLine (name : TypeName) (version : SpecVersion) (errors : List String) : String :=
  "DEBUG lsp_types.converter - Cannot decode " ++ name.text ++ " as LSP " ++ version.value ++
    ": " ++ Text.quotedList errors

/-- The lines that report an error, if it is one that is reported. -/
def report? : Error → Option (List String)
  | .mismatch m => some (m.reason :: m.errors.map ("  " ++ ·))
  | .refused (.disabled what) => some [Surface.disabledMessage what]
  | .unknownName u => some [u.message]
  | _ => none

/-- The lines of the log for an error of decoding. -/
def errorLog (name : TypeName) (version : SpecVersion) : Error → List String
  | .mismatch m => [failureLine name version m.errors]
  | _ => []

/-- One more than the largest integer of a machine word. -/
def wordLimit : Int := 2 ^ 63

/-- The number of blanks of an indentation, if memory has room for them. Negative numbers count as
zero. -/
def blanks (width : Nat) : Option Int → Except Breakdown Nat
  | none => .error .missingIndent
  | some n =>
    if n < -wordLimit ∨ wordLimit ≤ n then .error .unboundedIndent
    else if width < n then .error .wideIndent
    else .ok n.toNat

/-- The text of normalized data. A string by itself is written without regard to the
indentation. -/
def normalized (width : Nat) (indent? : Option Int) : Json → Except Breakdown String
  | .str s => .ok (Json.stringText s ++ "\n")
  | x => (blanks width indent?).map fun n => x.write (some n) ++ "\n"

/-- Data as its own normal form: decoded as a type, and encoded again. -/
def normalForm (enabled : Bool) (version : SpecVersion) (t : DataType) (x : Json) :
    Except Error Json := do
  let v ← schema.decode enabled (some version) t x
  (schema.encode v).mapError .unwritable

/-- The command `decode`. -/
def runDecode (width : Nat) (enabled : Bool) (s : Settings) (d : DecodeRequest) (input : String)
    (fs : FileSystem) : Outcome :=
  let version := s.version?.getD (Surface.defaultVersion enabled)
  match findType d.type with
  | .error u => ⟨.finished 1, "", [u.message], fs⟩
  | .ok name =>
    let text := sourceText input fs d.source?
    match Json.read text with
    | .error (.longInteger digits) => brokenOff [] fs (.longInteger digits)
    | .error (.malformed e) => ⟨.finished 1, "", ["invalid JSON: " ++ e.message text], fs⟩
    | .ok x =>
      let log := logLines s.verbose [decodingLine name version]
      match normalForm enabled version name.dataType x with
      | .error e =>
        let log := log ++ logLines s.verbose (errorLog name version e)
        match report? e with
        | some lines => ⟨.finished 1, "", log ++ lines, fs⟩
        | none => brokenOff log fs (.operation e)
      | .ok y =>
        match normalized width d.indent? y, d.output with
        | .error cause, _ => brokenOff log fs cause
        | .ok text, .standard => ⟨.finished 0, text, log, fs⟩
        | .ok text, .file path => ⟨.finished 0, "", log, fs.put path text⟩
        | .ok _, .missing => brokenOff log fs .missingOutput

/-- The text of a tag. -/
def tagText (introducedIn : Option String) (proposed : Bool) : String :=
  introducedIn.getD "-" ++ if proposed then " (proposed)" else ""

/-- A text with blanks after it, in at least `width` places. -/
def padded (width : Nat) (text : String) : String :=
  text ++ String.ofList (List.replicate (width - text.length) ' ')

/-- The list of all types, in alphabetical order. -/
def typeLines : List String :=
  let names := catalog.filterMap TypeName.find?
  let width := names.foldl (fun n name => max n name.text.length) 0
  names.map fun name =>
    padded width name.text ++ "  " ++
      tagText (name.tag.map (·.text)) (Surface.isProposed name.tag)

/-- The list of the methods of a kind, in alphabetical order. -/
def methodLines (kind : MethodKind) : List String :=
  (kind.methods.mergeSort fun a b => a.name ≤ b.name).map fun m =>
    padded 12 kind.nameKind.word ++ "  " ++ m.describe ++ "  [" ++
      tagText m.introducedIn m.isProposed ++ "]"

/-- Lines as one text. -/
def lines (xs : List String) : String := String.join (xs.map (· ++ "\n"))

/-- Does what a command line asks for. -/
def perform (width : Nat) (ambient : Bool) (invocation : Invocation) (input : String)
    (fs : FileSystem) : Outcome :=
  let s := invocation.settings
  match invocation.request with
  | .decode d => runDecode width (s.proposed || ambient) s d input fs
  | .types => ⟨.finished 0, lines typeLines, [], fs⟩
  | .methods =>
    ⟨.finished 0, lines (methodLines .request ++ methodLines .notification), [], fs⟩

/-- The lines that report a misuse. -/
def misuseLines (page : Page) (fault : UsageFault) : List String :=
  page.usage ++ [page.title ++ ": error: " ++ fault.message]

/-- Runs the program where memory has room for indentations up to a width. -/
def runWithin (width : Nat) (ambient : Bool) (words : List String) (input : String)
    (fs : FileSystem) : Outcome :=
  match Invocation.ofWords fs words with
  | (.ok invocation, fs) => perform width ambient invocation input fs
  | (.error (.help page), fs) => ⟨.finished 0, page.text, [], fs⟩
  | (.error .version, fs) =>
    ⟨.finished 0, programName ++ " " ++ programVersion ++ "\n", [], fs⟩
  | (.error (.misuse page fault), fs) => ⟨.finished 2, "", misuseLines page fault, fs⟩

/-- The most blanks of an indentation where no number is given for them. It stands for the memory of
a machine, of which so many blanks in a row take an octet each. -/
def ampleWidth : Nat := 2 ^ 36 - 1

/-- Runs the program. -/
def run (ambient : Bool) (words : List String) (input : String) (fs : FileSystem) : Outcome :=
  runWithin ampleWidth ambient words input fs

/-- Whether a command line asks for the standard input. -/
def needsInput (words : List String) (fs : FileSystem) : Bool :=
  match (Invocation.ofWords fs words).1 with
  | .ok ⟨_, .decode d⟩ => d.source?.isNone
  | _ => false

/-- The names of files that a word may hold: the word, its value after an equals sign, or its value
after a letter. -/
def namesIn (word : String) : List String :=
  [word, (splitValue word).2.getD "", String.ofList (word.toList.drop 2)]

end LspWire.Command
