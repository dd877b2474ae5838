import LspWire.Command.FileSystem
import LspWire.Text.Quoted

/-!
# The manual

The texts that the command line shows: a `Page` for the program and one for each command, and the
wording of what is wrong with the arguments.
-/

namespace LspWire.Command

/-- The name of the program. -/
def programName : String := "lsp-types"

/-- The version of the program. -/
def programVersion : String := "0.1.0"

/-- The pages of the manual. -/
inductive Page where
  | overview
  | decode
  | types
  | methods
deriving DecidableEq, Repr

namespace Page

/-- What a page calls its subject. -/
def title : Page → String
  | .overview => programName
  | .decode => programName ++ " decode"
  | .types => programName ++ " types"
  | .methods => programName ++ " methods"

/-- The summary of the arguments. -/
def usage : Page → List String
  | .overview => [
    "usage: lsp-types [--spec-version VERSION] [--proposed] [-v] [-V] [-h]",
    "                 COMMAND ..."]
  | .decode => ["usage: lsp-types decode [-o OUTPUT] [--indent INDENT] [-h] TYPE [FILE]"]
  | .types => ["usage: lsp-types types [-h]"]
  | .methods => ["usage: lsp-types methods [-h]"]

/-- What stands below the summary. -/
def body : Page → List String
  | .overview => [
    "Inspect Language Server Protocol types and check JSON payloads against them.",
    "",
    "positional arguments:",
    "  COMMAND",
    "    decode              Decode a JSON payload as a protocol type and print its",
    "                        normalized form.",
    "    types               List protocol types with the version that introduced",
    "                        them.",
    "    methods             List request and notification methods.",
    "",
    "protocol options:",
    "  --spec-version VERSION",
    "                        Protocol version to decode as. Possible values: 3.13,",
    "                        3.16, 3.17. [default: 3.17 with --proposed, else 3.16]",
    "  --proposed            Enable the proposed protocol surface (LSP 3.17 and",
    "                        later drafts), like LSP_TYPES_PROPOSED=1.",
    "",
    "output options:",
    "  -v, --verbose         Log debug output to stderr.",
    "",
    "generic options:",
    "  -V, --version         Show program's version number and exit.",
    "  -h, --help            Show this help message and exit."]
  | .decode => [
    "input options:",
    "  TYPE                  Name of the protocol type, e.g. InitializeParams.",
    "  FILE                  JSON file to decode. [default: stdin]",
    "",
    "output options:",
    "  -o OUTPUT, --output OUTPUT",
    "                        Output file for the normalized JSON. [default: stdout]",
    "  --indent INDENT       Indentation of the normalized JSON. [default: 2]",
    "",
    "generic options:",
    "  -h, --help            Show this help message and exit."]
  | .types => [
    "generic options:",
    "  -h, --help  Show this help message and exit."]
  | .methods => [
    "generic options:",
    "  -h, --help  Show this help message and exit."]

/-- The whole text of a page. -/
def text (p : Page) : String :=
  String.join ((p.usage ++ "" :: p.body).map (· ++ "\n"))

end Page

/-- What is wrong with the arguments of a command. -/
inductive UsageFault where
  | ambiguous (word : String) (names : List String)
  | valueMissing (option : String)
  | valueIgnored (option value : String)
  | badChoice (argument value : String) (choices : List String)
  | badInteger (argument value : String)
  | cannotOpen (argument name : String) (e : OpenError)
  /-- A text that is the name of no file, with the letter for what the file is opened for. -/
  | badFile (argument mode value : String)
  | required (argument : String)
  | unrecognized (words : List String)
deriving DecidableEq, Repr

namespace UsageFault

/-- The wording of a fault. -/
def message : UsageFault → String
  | .ambiguous word names =>
    "ambiguous option: " ++ word ++ " could match " ++ ", ".intercalate names
  | .valueMissing option => "argument " ++ option ++ ": expected one argument"
  | .valueIgnored option value =>
    "argument " ++ option ++ ": ignored explicit argument " ++ Text.quoted value
  | .badChoice argument value choices =>
    "argument " ++ argument ++ ": invalid choice: " ++ Text.quoted value ++ " (choose from " ++
      ", ".intercalate (choices.map Text.quoted) ++ ")"
  | .badInteger argument value =>
    "argument " ++ argument ++ ": invalid int value: " ++ Text.quoted value
  | .cannotOpen argument name e =>
    "argument " ++ argument ++ ": can't open '" ++ name ++ "': " ++ e.message name
  | .badFile argument mode value =>
    "argument " ++ argument ++ ": invalid FileType('" ++ mode ++ "') value: " ++ Text.quoted value
  | .required argument => "the following arguments are required: " ++ argument
  | .unrecognized words => "unrecognized arguments: " ++ " ".intercalate words

end UsageFault

/-- Why a command line asks for nothing to be done. -/
inductive Stop where
  | help (page : Page)
  | version
  | misuse (page : Page) (fault : UsageFault)
deriving DecidableEq, Repr

end LspWire.Command
