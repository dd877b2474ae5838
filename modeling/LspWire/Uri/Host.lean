import LspWire.Text.Blank
import LspWire.Text.Digit
import LspWire.Text.Quoted

/-!
# Hosts in brackets

An authority may hold the address of its host in brackets: an address of the sixth version of the
internet protocol, or of a version to come, which begins with the letter v. `checkBracketed` refuses
every other text between brackets. An address of the fourth version is four octets in decimal, with
points between them; one of the sixth version is eight groups of hexadecimal digits with colons
between them, where two colons stand for groups of zero and the last two groups may be written as an
address of the fourth version. A percent sign sets off the zone of the address.
-/

namespace LspWire.Uri

/-- Why the text between brackets is refused. -/
inductive HostError where
  /-- An address of a version to come without its number or its text. -/
  | unknownVersion
  | fourthVersion
  | notAnAddress (host : String)
deriving DecidableEq, Repr

/-- The wording of an error. -/
def HostError.message : HostError → String
  | .unknownVersion => "IPvFuture address is invalid"
  | .fourthVersion => "An IPv4 address cannot be in brackets"
  | .notAnAddress host => Text.quoted host ++ " does not appear to be an IPv4 or IPv6 address"

/-- Whether a text is an octet in decimal, without leading zeros. -/
def isOctet (cs : List Char) : Bool :=
  !cs.isEmpty && cs.all Char.isDigit && cs.length ≤ 3 && (cs = ['0'] || cs.head? ≠ some '0') &&
    Text.ofDigits 0 (cs.filterMap Text.digitValue?) ≤ 255

/-- Whether a text is an address of the fourth version. -/
def isFourthVersion (cs : List Char) : Bool :=
  let octets := Text.splitAt '.' cs
  octets.length = 4 && octets.all isOctet

/-- Whether a text is a group of an address of the sixth version. -/
def isGroup (cs : List Char) : Bool :=
  !cs.isEmpty && cs.length ≤ 4 && cs.all fun c => (Text.hexValue? c).isSome

/-- The groups of an address, with two groups of zero for a last one that is an address of the
fourth version. -/
def unfoldLast? (parts : List (List Char)) : Option (List (List Char)) :=
  let last := parts.getLastD []
  if last.contains '.' then
    if isFourthVersion last then some (parts.dropLast ++ [['0'], ['0']]) else none
  else some parts

/-- The number of groups that are written before or after two colons. -/
def countGroups (parts : List (List Char)) : Option Nat :=
  if parts = [[]] then some 0 else if parts.all isGroup then some parts.length else none

/-- Whether the parts between colons are those of an address of the sixth version. An empty part
that is neither the first nor the last one stands for groups of zero. -/
def isSixthVersionParts (parts : List (List Char)) : Bool :=
  let before := parts.head?.toList ++ parts.tail.takeWhile fun part => !part.isEmpty
  match parts.drop before.length with
  | [] => parts.length = 8 && parts.all isGroup
  | _ :: after =>
    if after.isEmpty then false
    else
      match countGroups before, countGroups after with
      | some m, some n => m + n < 8
      | _, _ => false

/-- Whether a text is an address of the sixth version. -/
def isSixthVersion (cs : List Char) : Bool :=
  let (address, zone) := Text.cut '%' cs
  let parts := Text.splitAt ':' address
  !(cs.contains '%' && (zone.isEmpty || zone.contains '%')) && 3 ≤ parts.length &&
    (unfoldLast? parts).any isSixthVersionParts

/-- Whether a text after the letter v is the number and the text of an address of a version to
come. -/
def isLaterVersion (cs : List Char) : Bool :=
  let isHex (c : Char) : Bool := (Text.hexValue? c).isSome
  match cs.takeWhile isHex, cs.dropWhile isHex with
  | _ :: _, '.' :: _ :: _ => true
  | _, _ => false

/-- Refuses a text that cannot stand between brackets. -/
def checkBracketed (host : List Char) : Except HostError Unit :=
  match host with
  | 'v' :: rest => if isLaterVersion rest then .ok () else .error .unknownVersion
  | _ =>
    if isFourthVersion host then .error .fourthVersion
    else if isSixthVersion host then .ok ()
    else .error (.notAnAddress (String.ofList host))

end LspWire.Uri
