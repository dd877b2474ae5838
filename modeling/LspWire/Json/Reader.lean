import LspWire.Json.Basic
import LspWire.Number.Integer
import LspWire.Text.Digit

/-!
# Reading structured data from text

`Json.read` reads one value from a text. It accepts the standard format and, besides, `NaN`,
`Infinity` and `-Infinity`. A number with a fraction or an exponent is a floating-point number, any
other one an integer. A repeated key keeps its first place and takes the last value.

A fault in the notation carries the part of the text that begins where it lies, so its position is a
difference of lengths. An integer of more than `Number.digitLimit` digits is not read. The recursion
is bounded by the length of the text: every second step consumes a character.

How deep a text may nest is a matter of the machine that reads it, and the reader sets no limit to it.
Halves of pairs that stand alone are no characters; a text with such escapes is not paired
(`LspWire.Json.Outline`), and what is read of it says nothing about it.
-/

namespace LspWire

/-- What keeps a text from being structured data. -/
inductive SyntaxCause where
  | byteOrderMark
  | valueExpected
  | keyExpected
  | colonExpected
  | commaExpected
  | unterminated
  | controlCharacter
  | badEscape
  | badCodeEscape
  | extraData
deriving DecidableEq, Repr

/-- A fault in a text, with the part of the text that begins at it. -/
structure SyntaxError where
  cause : SyntaxCause
  rest : List Char
deriving DecidableEq, Repr

namespace SyntaxCause

def message : SyntaxCause → String
  | .byteOrderMark => "Unexpected UTF-8 BOM (decode using utf-8-sig)"
  | .valueExpected => "Expecting value"
  | .keyExpected => "Expecting property name enclosed in double quotes"
  | .colonExpected => "Expecting ':' delimiter"
  | .commaExpected => "Expecting ',' delimiter"
  | .unterminated => "Unterminated string starting at"
  | .controlCharacter => "Invalid control character at"
  | .badEscape => "Invalid \\escape"
  | .badCodeEscape => "Invalid \\uXXXX escape"
  | .extraData => "Extra data"

end SyntaxCause

namespace SyntaxError

/-- The wording of a fault in a text. Characters count from zero, lines and columns from one. -/
def message (text : List Char) (e : SyntaxError) : String :=
  let before := text.take (text.length - e.rest.length)
  let line := (before.filter (· = '\n')).length + 1
  let column := (before.reverse.takeWhile (· ≠ '\n')).length + 1
  e.cause.message ++ ": line " ++ toString line ++ " column " ++ toString column ++
    " (char " ++ toString before.length ++ ")"

end SyntaxError

/-- Why a text is not read. -/
inductive ReadError where
  | malformed (e : SyntaxError)
  /-- An integer of more digits than are read. -/
  | longInteger (digits : Nat)
deriving DecidableEq, Repr

/-- The wording of an error about a text. -/
def ReadError.message (text : List Char) : ReadError → String
  | .malformed e => e.message text
  | .longInteger digits => Number.limitMessage digits

namespace Json

namespace Reader

def isSpace (c : Char) : Bool := c = ' ' || c = '\t' || c = '\n' || c = '\r'

def skipSpace (cs : List Char) : List Char := cs.dropWhile isSpace

/-- The character that a short escape stands for. -/
def shortEscape? : Char → Option Char
  | '"' => some '"'
  | '\\' => some '\\'
  | '/' => some '/'
  | 'b' => some '\x08'
  | 'f' => some '\x0c'
  | 'n' => some '\n'
  | 'r' => some '\r'
  | 't' => some '\t'
  | _ => none

/-- The number written by four hexadecimal digits. -/
def code? (a b c d : Char) : Option Nat := do
  let a ← Text.hexValue? a
  let b ← Text.hexValue? b
  let c ← Text.hexValue? c
  let d ← Text.hexValue? d
  pure (((a * 16 + b) * 16 + c) * 16 + d)

def isHighSurrogate (n : Nat) : Bool := 0xD800 ≤ n && n ≤ 0xDBFF

def isLowSurrogate (n : Nat) : Bool := 0xDC00 ≤ n && n ≤ 0xDFFF

/-- The character with a code. Half of a pair that stands alone becomes the replacement
character. -/
def charOfCode (n : Nat) : Char :=
  if isHighSurrogate n || isLowSurrogate n then '\uFFFD' else Char.ofNat n

/-- The characters that codes stand for. Two halves of a pair make one character. -/
def charsOfCodes : List Nat → List Char
  | [] => []
  | [n] => [charOfCode n]
  | m :: n :: codes =>
    if isHighSurrogate m && isLowSurrogate n then
      Char.ofNat (0x10000 + (m - 0xD800) * 0x400 + (n - 0xDC00)) :: charsOfCodes codes
    else charOfCode m :: charsOfCodes (n :: codes)

/-- The codes of the rest of a string, after its opening quote. `start` is the text from that quote
on. A code escape needs a character after it, which may be the closing quote. -/
def codes (start : List Char) : List Char → Except SyntaxError (List Nat × List Char)
  | [] => .error ⟨.unterminated, start⟩
  | '"' :: cs => .ok ([], cs)
  | ['\\'] => .error ⟨.unterminated, start⟩
  | '\\' :: 'u' :: a :: b :: c :: d :: cs =>
    match code? a b c d, cs.isEmpty with
    | some n, false => (codes start cs).map fun (ns, after) => (n :: ns, after)
    | _, _ => .error ⟨.badCodeEscape, 'u' :: a :: b :: c :: d :: cs⟩
  | '\\' :: 'u' :: cs => .error ⟨.badCodeEscape, 'u' :: cs⟩
  | '\\' :: c :: cs =>
    match shortEscape? c with
    | some d => (codes start cs).map fun (ns, after) => (d.toNat :: ns, after)
    | none => .error ⟨.badEscape, '\\' :: c :: cs⟩
  | c :: cs =>
    if c.toNat < 0x20 then .error ⟨.controlCharacter, c :: cs⟩
    else (codes start cs).map fun (ns, after) => (c.toNat :: ns, after)

/-- A string at the front of a text, from its opening quote on. -/
def string (cs : List Char) : Except ReadError (String × List Char) :=
  ((codes cs (cs.drop 1)).map fun (ns, after) =>
    (String.ofList (charsOfCodes ns), after)).mapError .malformed

/-- The digits at the front of a text, and the text after them. -/
def digits (cs : List Char) : List Char × List Char :=
  (cs.takeWhile Char.isDigit, cs.dropWhile Char.isDigit)

def digitValues (cs : List Char) : List Nat := cs.map fun c => c.toNat - 48

/-- The digits of an integer part: zero, or digits that begin with another one. -/
def integerPart? : List Char → Option (List Char × List Char)
  | '0' :: cs => some (['0'], cs)
  | cs => if (digits cs).1.isEmpty then none else some (digits cs)

/-- The digits of a fraction, if one follows. -/
def fractionPart : List Char → List Char × List Char
  | '.' :: cs => if (digits cs).1.isEmpty then ([], '.' :: cs) else digits cs
  | cs => ([], cs)

/-- The value of an exponent, if one follows. -/
def exponentPart (cs : List Char) : Option Int × List Char :=
  match cs with
  | e :: rest =>
    if e = 'e' ∨ e = 'E' then
      let (negative, afterSign) := match rest with
        | '-' :: r => (true, r)
        | '+' :: r => (false, r)
        | r => (false, r)
      let (ds, after) := digits afterSign
      if ds.isEmpty then (none, cs)
      else
        let n : Int := Text.ofDigits 0 (digitValues ds)
        (some (if negative then -n else n), after)
    else (none, cs)
  | [] => (none, cs)

/-- Fails because no value begins where one should. -/
def noValue {α : Type} (cs : List Char) : Except ReadError α :=
  .error (.malformed ⟨.valueExpected, cs⟩)

/-- A number at the front of a text. -/
def number (cs : List Char) : Except ReadError (Scalar × List Char) :=
  let (negative, unsigned) := match cs with
    | '-' :: r => (true, r)
    | r => (false, r)
  match integerPart? unsigned with
  | none => noValue cs
  | some (whole, afterWhole) =>
    let (fraction, afterFraction) := fractionPart afterWhole
    let (exponent?, after) := exponentPart afterFraction
    if fraction.isEmpty && exponent?.isNone then
      if Number.digitLimit < whole.length then .error (.longInteger whole.length)
      else
        let n : Int := Text.ofDigits 0 (digitValues whole)
        .ok (.int (if negative then -n else n), after)
    else
      let n := Text.ofDigits 0 (digitValues (whole ++ fraction))
      .ok (.float (Binary64.ofDecimal negative n (exponent?.getD 0 - fraction.length)), after)

/-- The words that stand for scalars. -/
def words : List (String × Scalar) := [
  ("null", .null), ("true", .bool true), ("false", .bool false), ("NaN", .float .nan),
  ("Infinity", .float (.infinity false)), ("-Infinity", .float (.infinity true))]

/-- The text after a word, if it begins with it. -/
def after? : List Char → List Char → Option (List Char)
  | [], cs => some cs
  | _ :: _, [] => none
  | w :: ws, c :: cs => if w = c then after? ws cs else none

/-- A scalar other than a string at the front of a text. -/
def plain (cs : List Char) : Except ReadError (Scalar × List Char) :=
  match words.findSome? fun (word, value) => (after? word.toList cs).map (value, ·) with
  | some found => .ok found
  | none => number cs

mutual

/-- A value at the front of a text. -/
def value : Nat → List Char → Except ReadError (Json × List Char)
  | 0, cs => noValue cs
  | fuel + 1, cs =>
    match cs with
    | '"' :: _ => (string cs).map fun (s, after) => (.str s, after)
    | '[' :: rest =>
      match skipSpace rest with
      | ']' :: after => .ok (.arr [], after)
      | inner => (items fuel inner).map fun (xs, after) => (.arr xs, after)
    | '{' :: rest =>
      match skipSpace rest with
      | '}' :: after => .ok (.obj [], after)
      | inner => entries fuel [] inner
    | _ => (plain cs).map fun (s, after) => (.scalar s, after)

/-- The items of an array up to its end. -/
def items : Nat → List Char → Except ReadError (List Json × List Char)
  | 0, cs => noValue cs
  | fuel + 1, cs => do
    let (x, after) ← value fuel cs
    match skipSpace after with
    | ']' :: rest => pure ([x], rest)
    | ',' :: rest =>
      let (xs, rest) ← items fuel (skipSpace rest)
      pure (x :: xs, rest)
    | rest => throw (.malformed ⟨.commaExpected, rest⟩)

/-- The entries of an object up to its end, put behind those read so far. -/
def entries : Nat → List (String × Json) → List Char → Except ReadError (Json × List Char)
  | 0, _, cs => .error (.malformed ⟨.keyExpected, cs⟩)
  | fuel + 1, acc, cs =>
    match cs with
    | '"' :: _ => do
      let (key, after) ← string cs
      match skipSpace after with
      | ':' :: rest =>
        let (x, after) ← value fuel (skipSpace rest)
        let acc := put key x acc
        match skipSpace after with
        | '}' :: rest => pure (.obj acc, rest)
        | ',' :: rest => entries fuel acc (skipSpace rest)
        | rest => throw (.malformed ⟨.commaExpected, rest⟩)
      | rest => throw (.malformed ⟨.colonExpected, rest⟩)
    | _ => throw (.malformed ⟨.keyExpected, cs⟩)

end

end Reader

/-- Reads one value from a text that holds nothing else but space. -/
def read (text : List Char) : Except ReadError Json :=
  match text with
  | '\uFEFF' :: _ => .error (.malformed ⟨.byteOrderMark, text⟩)
  | _ => do
    let (x, after) ← Reader.value (2 * text.length + 2) (Reader.skipSpace text)
    match Reader.skipSpace after with
    | [] => pure x
    | rest => throw (.malformed ⟨.extraData, rest⟩)

end Json

end LspWire
