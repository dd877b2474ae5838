import LspWire.Command.Run
import LspWire.Json.Outline

/-!
# Machines

Data is read, decoded, encoded and written by recursion, and what has been written is kept in memory
until all of it is. So the machine that runs the program sets limits to the data: a `Machine` says how
deep data may nest on its stack, and how wide an indentation may be in its memory.

`Machine.run?` is the program on a machine. It says nothing of a source that the machine does not
admit: a stack that ends in the middle of a list may be taken for a mismatch there, and half of a
pair by itself is no character.
-/

namespace LspWire.Command

/-- What a machine has room for. -/
structure Machine where
  /-- How deep data may nest to be read, decoded, encoded and written. -/
  levels : Nat
  /-- The most blanks of an indentation. -/
  width : Nat
deriving DecidableEq, Repr

namespace Machine

/-- Whether there is room for the data of a text, and its strings consist of characters. -/
def admits (m : Machine) (text : List Char) : Bool :=
  decide (Json.nesting text ≤ m.levels) && Json.isPaired text

/-- Runs the program on a machine, if the machine admits the source. -/
def run? (m : Machine) (ambient : Bool) (words : List String) (input : String)
    (fs : FileSystem) : Option Outcome :=
  match Invocation.ofWords fs words with
  | (.ok ⟨_, .decode d⟩, after) =>
    if m.admits (sourceText input after d.source?) then
      some (runWithin m.width ambient words input fs)
    else none
  | _ => some (runWithin m.width ambient words input fs)

end Machine

end LspWire.Command
