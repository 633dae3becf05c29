import TreeDigest.Path

/-!
Reading command lines by a grammar.

A grammar says which options a command has, whether a word may stand alone, and which
commands may follow. Long options are written `--name value` or `--name=value`, flags
have no value, and after a bare `--` every word stands for itself. Options have to be
written in full and at most once. Every command can be asked for help.

A word is any string of bytes: a path may be one that spells no text, whereas options and
commands are named by texts.

Words are taken in one by one. The value of an option is looked at as late as possible:
when the next option or word of the same command is taken in, or at its end, and after
all commands that follow. So of two faults in a line the later one may be told.

* `Grammar.parse` reads a line.
* `Reading.settle` is where a value is looked at.
-/

namespace TreeDigest.CommandLine

/-- A word of a command line. -/
abbrev Word := Bytes

/-- What follows an option: nothing, any text, or a path, which is never empty. -/
inductive ValueKind where
  | flag
  | text
  | path
  deriving DecidableEq, Repr

/-- An option, or a word that may stand alone, by name. -/
structure Parameter where
  name : String
  kind : ValueKind
  deriving DecidableEq, Repr

/-- What may be given to a command. -/
structure Rules where
  options : List Parameter
  word : Option Parameter
  required : List String
  conflicts : List (String × String)

/-- What may be given to a command, and the commands that may follow it. Where some
may follow, one has to. -/
inductive Grammar where
  | mk (rules : Rules) (commands : List (String × Grammar))

/-- Why a command line is not understood; help is an answer of the same kind. -/
inductive UsageError where
  | help
  /-- Nothing is given to a command that needs another one after it. -/
  | nothingGiven
  | missingCommand
  | unknownCommand
  | unknownArgument
  | missingArgument
  /-- An empty path, or no text where one is asked for. -/
  | invalidValue
  | needlessValue
  | conflict
  deriving DecidableEq, Repr

/-- A value that was given to a command. -/
inductive Value where
  | flag
  | text (s : String)
  | path (p : Path)
  deriving DecidableEq

/-- The value of a kind that a word spells. -/
def ValueKind.read : ValueKind → Word → Except UsageError Value
  | .flag, _ => .ok .flag
  | .text, w => match Text.decode w with
    | .ok s => .ok (.text s)
    | .error _ => .error .invalidValue
  | .path, w => if w = [] then .error .invalidValue else .ok (.path ⟨w⟩)

/-- What was given to a command, by name. -/
abbrev Values := List (String × Value)

/-- A command line that is understood: the values of a command, and the command that
follows it. -/
inductive Parsed where
  | mk (values : Values) (command : Option (String × Parsed))

namespace Grammar

/-- The rules of a command. -/
def rules : Grammar → Rules
  | .mk r _ => r

/-- The commands that may follow. -/
def commands : Grammar → List (String × Grammar)
  | .mk _ cs => cs

/-- A further command has to follow. -/
def needsCommand (g : Grammar) : Bool := !g.commands.isEmpty

/-- The word that asks for help where commands may follow. -/
def helpWord : String := "help"

/-- The word asks for help. -/
def isHelp (g : Grammar) (word : Word) : Bool := g.needsCommand && word == Text.utf8 helpWord

/-- The command that a word names. -/
def command? (g : Grammar) (word : Word) : Option (String × Grammar) :=
  g.commands.find? fun c => Text.utf8 c.1 == word

/-- The word is a command. -/
def isCommand (g : Grammar) (word : Word) : Bool := (g.command? word).isSome || g.isHelp word

end Grammar

/-- A command that is being read: the values that were looked at, the parameter whose
value was not, with that value unless it is still to come, whether a bare `--` has
passed, and whether the word that may stand alone has. -/
structure Reading where
  found : Values
  pending : Option (Parameter × Option Word)
  escaped : Bool
  wordGiven : Bool

namespace Reading

/-- Nothing is read yet. -/
def empty : Reading := ⟨[], none, false, false⟩

/-- The next word is the value of an option. -/
def expectsValue (r : Reading) : Bool :=
  match r.pending with
  | some (_, none) => !r.escaped
  | _ => false

/-- Takes in the value of a parameter. -/
def accept (r : Reading) (p : Parameter) (value : Word) : Except UsageError Reading :=
  if (r.found.lookup p.name).isSome then .error .conflict
  else (p.kind.read value).map fun v => { r with found := r.found ++ [(p.name, v)] }

/-- Looks at the value that was not looked at yet. -/
def settle (r : Reading) : Except UsageError Reading :=
  match r.pending with
  | none => .ok r
  | some (_, none) => .error .invalidValue
  | some (p, some value) => { r with pending := none }.accept p value

/-- Takes in an option with the value attached to it, if there is one. -/
def option (r : Reading) (g : Grammar) (name : Word) (attached : Option Word) :
    Except UsageError Reading :=
  let asksForHelp := name = Text.utf8 Grammar.helpWord
  match g.rules.options.find? (fun p => Text.utf8 p.name == name), attached with
  | none, some _ => .error (if asksForHelp then .needlessValue else .unknownArgument)
  | none, none =>
    if asksForHelp then r.settle.bind fun _ => .error .help else .error .unknownArgument
  | some p, attached =>
    match p.kind, attached with
    | .flag, some _ => .error .needlessValue
    | .flag, none => r.settle.bind fun r => r.accept p []
    | _, some value => r.settle.bind fun r => r.accept p value
    | _, none => r.settle.map fun r => { r with pending := some (p, none) }

/-- Takes in a word that stands for itself. -/
def word (r : Reading) (g : Grammar) (w : Word) : Except UsageError Reading :=
  match r.pending, r.expectsValue, r.wordGiven, g.rules.word with
  | some (p, _), true, _, _ => .ok { r with pending := some (p, some w) }
  | _, _, false, some p => r.settle.map fun r => { r with pending := some (p, some w), wordGiven := true }
  | _, _, _, _ =>
    if g.needsCommand && !(r.escaped && g.isCommand w) then .error .unknownCommand
    else .error .unknownArgument

/-- What a word is written as. -/
inductive Shape where
  | bare
  | escape
  | long (name : Word) (attached : Option Word)
  | short (letter : UInt8)
  deriving DecidableEq

/-- The dash. -/
def dash : UInt8 := 0x2D

/-- The sign between an option and its value. -/
def equalsSign : UInt8 := 0x3D

/-- The letter that asks for help after a single dash. -/
def helpLetter : UInt8 := 0x68

/-- The shape of a word. A dash alone is a bare word. -/
def Shape.of (w : Word) : Shape :=
  if w = [dash, dash] then .escape
  else match Text.dropStart? [dash, dash] w with
    | some rest => match Text.splitOnce equalsSign rest with
      | some (name, value) => .long name (some value)
      | none => .long rest none
    | none => match w with
      | first :: letter :: _ => if first = dash then .short letter else .bare
      | _ => .bare

/-- Takes in a word that is no command. -/
def take (r : Reading) (g : Grammar) (w : Word) : Except UsageError Reading :=
  if r.escaped then r.word g w
  else match Shape.of w with
    | .bare => r.word g w
    | .escape => .ok { r with escaped := true }
    | .long name attached => r.option g name attached
    | .short letter =>
      if letter = helpLetter then r.option g (Text.utf8 Grammar.helpWord) none
      else .error .unknownArgument

/-- The values of a command that another one follows. -/
def closeBefore (r : Reading) : Except UsageError Values := r.settle.map (·.found)

/-- The values of a command that nothing follows. -/
def closeLast (r : Reading) (g : Grammar) : Except UsageError Values := do
  let values := (← r.settle).found
  if g.needsCommand then throw (if values.isEmpty then .nothingGiven else .missingCommand)
  let given : String → Bool := fun name => (values.lookup name).isSome
  if g.rules.conflicts.any fun c => given c.1 && given c.2 then throw .conflict
  if !g.rules.required.all given then throw .missingArgument
  return values

end Reading

namespace Grammar

/-- What is said to those who ask for help on a command. -/
def explain : Grammar → List Word → UsageError
  | _, [] => .help
  | g, w :: rest =>
    match g.command? w with
    | some (_, next) => explain next rest
    | none => if g.isHelp w && rest.isEmpty then .help else .unknownCommand

/-- Goes on reading words. -/
def parseFrom : List Word → Grammar → Reading → Except UsageError Parsed
  | [], g, r => (r.closeLast g).map fun values => .mk values none
  | w :: rest, g, r =>
    match if r.escaped || r.expectsValue then none else g.command? w with
    | some (name, next) => do
      let inner ← parseFrom rest next .empty
      return .mk (← r.closeBefore) (some (name, inner))
    | none =>
      if !r.escaped && !r.expectsValue && g.isHelp w then .error (g.explain rest)
      else match r.take g w with
        | .error e => .error e
        | .ok r => parseFrom rest g r

/-- Reads a command line. -/
def parse (g : Grammar) (words : List Word) : Except UsageError Parsed := parseFrom words g .empty

end Grammar

end TreeDigest.CommandLine
