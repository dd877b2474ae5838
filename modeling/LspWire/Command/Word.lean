import LspWire.Command.Manual
import LspWire.Text.Digit

/-!
# Words of a command line

Every word of a command line plays a `Role`: it is an option, a plain word, or the separator after
which all words are plain. Long options may be shortened while that is unambiguous, and their value
may follow an equals sign. One-letter options may share a dash, the last of them with its value.
-/

namespace LspWire.Command

/-- An option of a command, by its names. -/
structure Spec (α : Type) where
  names : List String
  takesValue : Bool
  meaning : α
deriving Repr

/-- What messages call an option. -/
def Spec.title {α : Type} (s : Spec α) : String := "/".intercalate s.names

/-- An option in a word: what it is, the name it goes by, and the value in the same word. -/
structure Found (α : Type) where
  spec : Spec α
  name : String
  value? : Option String
deriving Repr

/-- The part that a word plays. -/
inductive Role (α : Type) where
  | plain
  | separator
  /-- An option, or a word that looks like one. -/
  | option (found? : Option (Found α))
deriving Repr

/-- A word with the part it plays. -/
structure Word (α : Type) where
  text : String
  role : Role α
deriving Repr

namespace Word

variable {α : Type}

def isPlain (w : Word α) : Bool :=
  match w.role with
  | .plain => true
  | _ => false

def isSeparator (w : Word α) : Bool :=
  match w.role with
  | .separator => true
  | _ => false

end Word

/-- The text of the separator. -/
def separatorText : String := "--"

section

variable {α : Type}

/-- The option with a name. -/
def findSpec? (specs : List (Spec α)) (name : String) : Option (Spec α) :=
  specs.find? (·.names.contains name)

/-- A word before and after its first equals sign, if it has one. -/
def splitValue (word : String) : String × Option String :=
  let cs := word.toList
  if cs.contains '=' then
    (String.ofList (cs.takeWhile (· ≠ '=')),
      some (String.ofList (cs.dropWhile (· ≠ '=')).tail))
  else (word, none)

/-- Whether a word is a negative decimal number. A line break may follow the number. -/
def isNegativeNumber (word : String) : Bool :=
  let isDigit (c : Char) : Bool := (Text.digitValue? c).isSome
  match word.toList with
  | '-' :: cs =>
    let cs := if cs.getLast? = some '\n' then cs.dropLast else cs
    let whole := cs.takeWhile isDigit
    match cs.dropWhile isDigit with
    | [] => !whole.isEmpty
    | '.' :: rest => !rest.isEmpty && rest.all isDigit
    | _ => false
  | _ => false

/-- The options that a word with two dashes may be short for. -/
def longCandidates (specs : List (Spec α)) (word : String) : List (Found α) :=
  let (start, value?) := splitValue word
  specs.flatMap fun s =>
    (s.names.filter fun name => start.toList.isPrefixOf name.toList).map fun name =>
      ⟨s, name, value?⟩

/-- The option that the first letter of a word with one dash stands for. -/
def shortCandidates (specs : List (Spec α)) (word : String) : List (Found α) :=
  let name := String.ofList (word.toList.take 2)
  let found := (findSpec? specs name).map fun s =>
    ⟨s, name, some (String.ofList (word.toList.drop 2))⟩
  found.toList

/-- The part that a word plays where it may be an option. -/
def roleOf (specs : List (Spec α)) (word : String) : Except UsageFault (Role α) :=
  match word.toList with
  | '-' :: second :: _ =>
    match findSpec? specs word with
    | some s => .ok (.option (some ⟨s, word, none⟩))
    | none =>
      let (start, value?) := splitValue word
      match value?, findSpec? specs start with
      | some value, some s => .ok (.option (some ⟨s, start, some value⟩))
      | _, _ =>
        match (if second = '-' then longCandidates specs word else shortCandidates specs word) with
        | [found] => .ok (.option (some found))
        | [] =>
          if isNegativeNumber word || word.toList.contains ' ' then .ok .plain
          else .ok (.option none)
        | many => .error (.ambiguous word (many.map (·.name)))
  | _ => .ok .plain

/-- Words with the parts they play. -/
def classify (specs : List (Spec α)) : List String → Except UsageFault (List (Word α))
  | [] => .ok []
  | word :: words =>
    if word = separatorText then
      .ok (⟨word, .separator⟩ :: words.map fun w => ⟨w, .plain⟩)
    else do
      let role ← roleOf specs word
      let rest ← classify specs words
      pure (⟨word, role⟩ :: rest)

/-- Whether an option goes by a single letter. -/
def isLetterName (name : String) : Bool :=
  match name.toList with
  | '-' :: c :: _ => c ≠ '-'
  | _ => false

/-- The options that share a word: those that are complete, and the last one if it has no value
yet. -/
def unfold (specs : List (Spec α)) (s : Spec α) (letter : Bool) :
    List Char → Except UsageFault (List (Spec α × Option String) × Option (Spec α))
  | [] =>
    if s.takesValue then .ok ([(s, some "")], none) else .error (.valueIgnored s.title "")
  | c :: rest =>
    let value := String.ofList (c :: rest)
    if s.takesValue then .ok ([(s, some value)], none)
    else
      match (if letter then findSpec? specs (String.ofList ['-', c]) else none) with
      | none => .error (.valueIgnored s.title value)
      | some next =>
        if rest.isEmpty then .ok ([(s, none)], some next)
        else (unfold specs next letter rest).map fun (complete, last?) =>
          ((s, none) :: complete, last?)

/-- The options in a word with their values. The second part counts the words that follow it and
belong to it. -/
def optionsOf (specs : List (Spec α)) (found : Found α) (after : List (Word α)) :
    Except UsageFault (List (Spec α × Option String) × Nat) := do
  let (complete, last?) ← match found.value? with
    | none => pure ([], some found.spec)
    | some value => unfold specs found.spec (isLetterName found.name) value.toList
  match last? with
  | none => pure (complete, 0)
  | some s =>
    if s.takesValue then
      match after with
      | w :: _ =>
        if w.isPlain then pure (complete ++ [(s, some w.text)], 1)
        else throw (.valueMissing s.title)
      | [] => throw (.valueMissing s.title)
    else pure (complete ++ [(s, none)], 0)

end

end LspWire.Command
