import LspWire.Json.Basic
import LspWire.Number.Decimal
import LspWire.Text.Quoted

/-!
# Data inside error messages

The form that error messages show data in: words for the constants, quoted texts, brackets.
-/

namespace LspWire

namespace Scalar

def display : Scalar → String
  | .null => "None"
  | .bool true => "True"
  | .bool false => "False"
  | .int n => toString n
  | .float x => x.text
  | .str s => Text.quoted s

end Scalar

namespace Json

mutual

/-- Data as error messages show it. -/
def display : Json → String
  | .scalar s => s.display
  | .arr items => "[" ++ ", ".intercalate (displayItems items) ++ "]"
  | .obj entries => "\x7b" ++ ", ".intercalate (displayEntries entries) ++ "\x7d"

def displayItems : List Json → List String
  | [] => []
  | x :: xs => display x :: displayItems xs

def displayEntries : List (String × Json) → List String
  | [] => []
  | (key, x) :: entries => (Text.quoted key ++ ": " ++ display x) :: displayEntries entries

end

end Json

end LspWire
