import LspWire.Text.Blank
import LspWire.Text.Quoted

/-!
# Integers in text

An integer is written as an optional sign and decimal digits of any script. Single low lines may
stand between digits, and blanks around the whole. Numbers of more than `digitLimit` digits are
refused without being computed.
-/

namespace LspWire.Number

/-- What keeps a text from being read as an integer. -/
inductive IntegerFault where
  | malformed
  /-- More digits than are read. -/
  | tooLong (digits : Nat)
deriving DecidableEq, Repr

/-- The most digits that an integer may have. Leading zeros count. -/
def digitLimit : Nat := 4300

/-- How much of a quoted text is shown. -/
def shownLength : Nat := 200

/-- The wording for a number of more digits than are read. -/
def limitMessage (digits : Nat) : String :=
  "Exceeds the limit (" ++ toString digitLimit ++
    " digits) for integer string conversion: value has " ++ toString digits ++
    " digits; use sys.set_int_max_str_digits() to increase the limit"

/-- The wording of a fault of a text. -/
def IntegerFault.message (text : String) : IntegerFault → String
  | .malformed =>
    "invalid literal for int() with base 10: " ++
      String.ofList ((Text.quoted text).toList.take shownLength)
  | .tooLong digits => limitMessage digits

def isDigit (c : Char) : Bool := (Text.digitValue? c).isSome

/-- Whether a text is digits with single low lines between them. -/
def isGrouped : List Char → Bool
  | [] => false
  | [c] => isDigit c
  | c :: '_' :: cs => isDigit c && isGrouped cs
  | c :: d :: cs => isDigit c && isGrouped (d :: cs)

/-- Reads digits with single low lines between them. The digits are counted before anything that
follows them is looked at. -/
def readNatural (cs : List Char) : Except IntegerFault Nat :=
  let run := cs.takeWhile fun c => isDigit c || c == '_'
  let digits := run.filterMap Text.digitValue?
  if !isGrouped run then .error .malformed
  else if digitLimit < digits.length then .error (.tooLong digits.length)
  else if run.length < cs.length then .error .malformed
  else .ok (Text.ofDigits 0 digits)

/-- Reads an integer from a text. -/
def readInteger (cs : List Char) : Except IntegerFault Int :=
  match Text.stripBy Text.isNumberBlank cs with
  | '-' :: digits => (readNatural digits).map fun n => -(n : Int)
  | '+' :: digits => (readNatural digits).map Int.ofNat
  | digits => (readNatural digits).map Int.ofNat

end LspWire.Number
