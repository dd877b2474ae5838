import LspWire.Command.Word
import LspWire.Number.Integer
import LspWire.Version

/-!
# Invocations

An `Invocation` is what a command line asks for. `Invocation.ofWords` reads it from the words, from
left to right: options take effect where they stand, and the first plain word names the command,
which reads all words after it. A separator counts for no value, even where it is the value of an
option. Files are opened while the words are read, so a later mistake leaves the output file empty.
-/

namespace LspWire.Command

/-- Where the output of a command goes. -/
inductive Destination where
  | standard
  | file (path : String)
  /-- The option for the output file was given no value. -/
  | missing
deriving DecidableEq, Repr

/-- What the command `decode` asks for. A missing source stands for the standard input, a missing
indentation for an option that was given no value. -/
structure DecodeRequest where
  type : String
  source? : Option String
  output : Destination
  indent? : Option Int
deriving DecidableEq, Repr

/-- What a command asks for. -/
inductive Request where
  | decode (d : DecodeRequest)
  | types
  | methods
deriving DecidableEq, Repr

/-- The options of the program. -/
structure Settings where
  version? : Option SpecVersion
  proposed : Bool
  verbose : Bool
deriving DecidableEq, Repr

/-- What a command line asks for. -/
structure Invocation where
  settings : Settings
  request : Request
deriving DecidableEq, Repr

/-- A reader of words, with what it has read so far and the files. -/
abbrev Reading (σ : Type) := EStateM Stop (σ × FileSystem)

/-- How a program or a command reads its words. -/
structure Grammar (σ α : Type) where
  page : Page
  options : List (Spec α)
  /-- The effect of an option with its value, if it has one. -/
  apply : Spec α → Option String → Reading σ Unit
  /-- Takes plain words at the front and counts them. -/
  plain : List (Word α) → Reading σ Nat

namespace Grammar

variable {σ α : Type}

/-- Fails with a fault of the arguments. -/
def misuse {β : Type} (g : Grammar σ α) (fault : UsageFault) : Reading σ β :=
  throw (.misuse g.page fault)

/-- Lets a check of the arguments fail. -/
def orMisuse {β : Type} (g : Grammar σ α) : Except UsageFault β → Reading σ β
  | .ok x => pure x
  | .error fault => g.misuse fault

/-- Reads words and gives those that nothing asked for. -/
def scan (g : Grammar σ α) : List (Word α) → Reading σ (List String)
  | [] => pure []
  | w :: ws =>
    match w.role with
    | .option none => return w.text :: (← scan g ws)
    | .option (some found) => do
      let (options, taken) ← g.orMisuse (optionsOf g.options found ws)
      for (s, value?) in options do g.apply s (value?.filter (· ≠ separatorText))
      scan g (ws.drop taken)
    | _ => do
      let taken ← g.plain (w :: ws)
      if taken = 0 then return w.text :: (← scan g ws)
      else scan g (ws.drop (taken - 1))
termination_by ws => ws.length
decreasing_by all_goals (simp only [List.length_cons, List.length_drop]; omega)

/-- Reads words, all of which are told apart before the first one takes effect. -/
def read (g : Grammar σ α) (words : List String) : Reading σ (List String) := do
  let words ← g.orMisuse (classify g.options words)
  g.scan words

end Grammar

/-! ## Commands without arguments -/

/-- The option for help. -/
def helpSpec {α : Type} (meaning : α) : Spec α := ⟨["-h", "--help"], false, meaning⟩

/-- The grammar of a command that knows no word but the option for help. -/
def bareGrammar (page : Page) : Grammar Unit Unit where
  page := page
  options := [helpSpec ()]
  apply _ _ := throw (.help page)
  plain _ := pure 0

/-! ## The command `decode` -/

/-- The options of `decode`. -/
inductive DecodeOption where
  | output
  | indent
  | help
deriving DecidableEq, Repr

/-- What `decode` has read so far. -/
structure DecodeDraft where
  type? : Option String
  source? : Option String
  output : Destination
  indent? : Option Int
deriving DecidableEq, Repr

/-- The name that stands for the standard input or output. -/
def standardName : String := "-"

/-- The name of a file, or nothing for the standard input or output. -/
def fileName? (name : String) : Option String := if name = standardName then none else some name

def outputSpec : Spec DecodeOption := ⟨["-o", "--output"], true, .output⟩

def indentSpec : Spec DecodeOption := ⟨["--indent"], true, .indent⟩

/-- Fails if a text is the name of no file. -/
def checkName (argument mode name : String) : Reading DecodeDraft Unit :=
  if name.toList.contains '\x00' then throw (.misuse .decode (.badFile argument mode name)) else pure ()

/-- Opens a file for reading. -/
def openSource (name : String) : Reading DecodeDraft Unit := do
  let (draft, fs) ← get
  match fileName? name with
  | none => set ({ draft with source? := none }, fs)
  | some file =>
    checkName "FILE" "r" file
    match fs.read file with
    | .ok path => set ({ draft with source? := some path }, fs)
    | .error e => throw (.misuse .decode (.cannotOpen "FILE" file e))

/-- Opens a file for writing. -/
def openOutput (name : String) : Reading DecodeDraft Unit := do
  let (draft, fs) ← get
  match fileName? name with
  | none => set ({ draft with output := .standard }, fs)
  | some file =>
    checkName outputSpec.title "w" file
    match fs.create file with
    | .ok (path, fs) => set ({ draft with output := .file path }, fs)
    | .error e => throw (.misuse .decode (.cannotOpen outputSpec.title file e))

/-- Takes the name of the type, and the name of a file if that follows at once. -/
def decodePlain (words : List (Word DecodeOption)) : Reading DecodeDraft Nat := do
  let (draft, fs) ← get
  if draft.type?.isSome then return 0
  let before := (words.takeWhile Word.isSeparator).length
  match words.drop before with
  | [] => return 0
  | type :: rest =>
    set ({ draft with type? := some type.text }, fs)
    let between := (rest.takeWhile Word.isSeparator).length
    match rest.drop between with
    | [] => return before + 1 + between
    | file :: rest =>
      if file.isPlain then
        if file.text ≠ separatorText then openSource file.text
        return before + 1 + between + 1 + (rest.takeWhile Word.isSeparator).length
      else return before + 1 + between

/-- The grammar of `decode`. -/
def decodeGrammar : Grammar DecodeDraft DecodeOption where
  page := .decode
  options := [outputSpec, indentSpec, helpSpec .help]
  apply s value? := do
    let (draft, fs) ← get
    match s.meaning, value? with
    | .output, some name => openOutput name
    | .output, none => set ({ draft with output := .missing }, fs)
    | .indent, some text =>
      match Number.readInteger text.toList with
      | .ok n => set ({ draft with indent? := some n }, fs)
      | .error _ => throw (.misuse .decode (.badInteger s.title text))
    | .indent, none => set ({ draft with indent? := none }, fs)
    | .help, _ => throw (.help .decode)
  plain := decodePlain

/-! ## The program -/

/-- The options of the program. -/
inductive MainOption where
  | specVersion
  | proposed
  | verbose
  | version
  | help
deriving DecidableEq, Repr

/-- What the program has read so far, and the words that the command left over. -/
structure MainDraft where
  settings : Settings
  request? : Option Request
  leftover : List String
deriving DecidableEq, Repr

def specVersionSpec : Spec MainOption := ⟨["--spec-version"], true, .specVersion⟩

/-- Reads the words of a command. -/
def readCommand {σ α : Type} (g : Grammar σ α) (start : σ)
    (finish : σ → Except UsageFault Request) (words : List String) : Reading MainDraft Unit := do
  let (draft, fs) ← get
  match (g.read words).run (start, fs) with
  | .error stop (_, fs) =>
    set (draft, fs)
    throw stop
  | .ok leftover (own, fs) =>
    set (draft, fs)
    match finish own with
    | .error fault => throw (.misuse g.page fault)
    | .ok request =>
      set ({ draft with request? := some request, leftover := leftover }, fs)

/-- The names of the commands. -/
def commandNames : List String := ["decode", "types", "methods"]

/-- Takes the name of a command, which takes all words after it. -/
def mainPlain (words : List (Word MainOption)) : Reading MainDraft Nat := do
  match words with
  | [] => return 0
  | w :: rest =>
    if w.isSeparator && rest.isEmpty then return 0
    let after := rest.map (·.text)
    match w.text with
    | "decode" =>
      readCommand decodeGrammar ⟨none, none, .standard, some 2⟩ (fun d => match d.type? with
        | some type => .ok (.decode ⟨type, d.source?, d.output, d.indent?⟩)
        | none => .error (.required "TYPE")) after
    | "types" => readCommand (bareGrammar .types) () (fun _ => .ok .types) after
    | "methods" => readCommand (bareGrammar .methods) () (fun _ => .ok .methods) after
    | other => throw (.misuse .overview (.badChoice "COMMAND" other commandNames))
    return words.length

/-- The grammar of the program. -/
def mainGrammar : Grammar MainDraft MainOption where
  page := .overview
  options := [
    specVersionSpec,
    ⟨["--proposed"], false, .proposed⟩,
    ⟨["-v", "--verbose"], false, .verbose⟩,
    ⟨["-V", "--version"], false, .version⟩,
    helpSpec .help]
  apply s value? := do
    let (draft, fs) ← get
    let settings := draft.settings
    match s.meaning, value? with
    | .specVersion, some label =>
      match SpecVersion.ofLabel? label with
      | some v => set ({ draft with settings := { settings with version? := some v } }, fs)
      | none =>
        throw (.misuse .overview
          (.badChoice s.title label (SpecVersion.all.map SpecVersion.label)))
    | .specVersion, none =>
      set ({ draft with settings := { settings with version? := none } }, fs)
    | .proposed, _ => set ({ draft with settings := { settings with proposed := true } }, fs)
    | .verbose, _ => set ({ draft with settings := { settings with verbose := true } }, fs)
    | .version, _ => throw .version
    | .help, _ => throw (.help .overview)
  plain := mainPlain

/-- Reads all words. -/
def readMain (words : List String) : Reading MainDraft Invocation := do
  let leftover ← mainGrammar.read words
  let (draft, _) ← get
  match draft.request? with
  | none => mainGrammar.misuse (.required "COMMAND")
  | some request =>
    let leftover := leftover ++ draft.leftover
    if leftover.isEmpty then return ⟨draft.settings, request⟩
    else mainGrammar.misuse (.unrecognized leftover)

/-- What the words of a command line ask for, and the files after these words have been read. -/
def Invocation.ofWords (fs : FileSystem) (words : List String) :
    Except Stop Invocation × FileSystem :=
  match (readMain words).run (⟨⟨none, false, false⟩, none, []⟩, fs) with
  | .ok invocation (_, fs) => (.ok invocation, fs)
  | .error stop (_, fs) => (.error stop, fs)

end LspWire.Command
