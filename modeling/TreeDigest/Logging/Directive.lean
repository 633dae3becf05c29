import TreeDigest.Logging.Kinds
import TreeDigest.Text.Classes
import TreeDigest.Json.Reader

/-!
Directives: which part of a program logs from which level on.

A directive is a level, or a target, or a target and a span with fields, and a level
after an equals sign: `target[span{field,field}]=level`. A target alone lets every
level through, and so does an empty level.

A directive is read character by character, as `Directive.State` moves on. Positions
are counted in the trimmed text but cut out of the text as it was given, so a
directive after blanks is read shifted.

* `Level.ofText?` reads a level, as a word of either case or as a number.
* `Directive.parse` reads a directive and tells why it cannot.
-/

namespace TreeDigest.Logging

/-! ### Levels -/

/-- The level with the given number, the most talkative one having the highest. -/
def Level.ofNumber? : Nat → Option Level
  | 0 => some .off
  | 1 => some .error
  | 2 => some .warn
  | 3 => some .info
  | 4 => some .debug
  | 5 => some .trace
  | _ => none

/-- The number that a text of digits spells, which may have a plus in front. -/
def number? (cs : List Char) : Option Nat :=
  let ds := match cs with
    | '+' :: rest => rest
    | _ => cs
  if ds.isEmpty || !ds.all Char.isDigit then none else some (Json.digitsValue ds)

/-- The level that a text names: a number or a word of either case. -/
def Level.ofText? (s : String) : Option Level :=
  match (number? s.toList).bind Level.ofNumber? with
  | some level => some level
  | none => Level.ofWord? (.ofList (s.toList.map Char.toLower))

/-! ### Directives -/

/-- A directive. -/
structure Directive where
  target : Option String
  span : Option String
  fields : List String
  level : Level
  deriving DecidableEq, Repr

/-- Why a text is no directive. -/
inductive DirectiveError where
  | malformed
  | badLevel
  deriving DecidableEq, Repr

/-- The wording of a refusal. -/
def DirectiveError.message : DirectiveError → String
  | .malformed => "invalid filter directive"
  | .badLevel =>
    "error parsing level filter: expected one of \"off\", \"error\", \"warn\", \"info\", \"debug\", "
      ++ "\"trace\", or a number 0-5"

namespace Directive

/-- How far a directive is read. Positions tell where the part being read starts. -/
inductive State where
  | start
  | levelOrTarget (first : Nat)
  | span (first : Nat)
  | field (first : Nat)
  | fields
  | target
  | level (first : Nat)
  | complete
  deriving DecidableEq, Repr

/-- The directive before anything is read. -/
def blank : Directive := ⟨none, none, [], .trace⟩

/-- The text between two positions. -/
def slice (text : Bytes) (first last : Nat) : String := Text.lossy ((text.take last).drop first)

/-- A character that a directive can start with. -/
def isStart (c : Char) : Bool := c == '-' || c == ':' || c == '_' || Text.isAlphanumeric c

/-- Takes in a text that is a level if it names one, and a target otherwise. -/
def setLevelOrTarget (d : Directive) (s : String) : Directive :=
  match Level.ofText? s with
  | some level => { d with level := level, target := none }
  | none => { d with level := .trace, target := some s }

/-- Takes in the text after the equals sign. -/
def setLevel (d : Directive) (s : String) : Except DirectiveError Directive :=
  if s = "" then .ok { d with level := .trace }
  else match Level.ofText? s with
    | some level => .ok { d with level := level }
    | none => .error .badLevel

/-- Takes in a field, which has to have a name. -/
def addField (d : Directive) (s : String) : Except DirectiveError Directive :=
  if s = "" then .error .malformed else .ok { d with fields := d.fields ++ [s] }

/-- Takes in the character at a position. -/
def step (text : Bytes) (i : Nat) (c : Char) (d : Directive) :
    State → Except DirectiveError (State × Directive)
  | .start =>
    if c = '[' then .ok (.span (i + 1), d)
    else if isStart c then .ok (.levelOrTarget i, d)
    else .error .malformed
  | .levelOrTarget first =>
    if c = '=' then .ok (.level (i + 1), { d with target := some (slice text first i) })
    else if c = '[' then .ok (.span (i + 1), { d with target := some (slice text first i) })
    else if c = ',' then .ok (.complete, d.setLevelOrTarget (slice text first text.length))
    else .ok (.levelOrTarget first, d)
  | .span first =>
    let name := slice text first i
    if c = ']' then .ok (.target, { d with span := some name })
    else if c = '\x7b' then .ok (.field (i + 1), { d with span := if name = "" then none else some name })
    else .ok (.span first, d)
  | .field first =>
    if c = '\x7d' then (d.addField (slice text first i)).map fun d => (.fields, d)
    else if c = ',' then (d.addField (slice text first i)).map fun d => (.field (i + 1), d)
    else .ok (.field first, d)
  | .fields => if c = ']' then .ok (.target, d) else .error .malformed
  | .target => if c = '=' then .ok (.level (i + 1), d) else .error .malformed
  | .level first =>
    if c = ',' then (d.setLevel (slice text first i)).map fun d => (.complete, d)
    else .ok (.level first, d)
  | .complete => .error .malformed

/-- Takes in characters from a position on. -/
def steps (text : Bytes) : Nat → List Char → State → Directive → Except DirectiveError (State × Directive)
  | _, [], state, d => .ok (state, d)
  | i, c :: rest, state, d => do
    let (state, d) ← step text i c d state
    steps text (i + c.utf8Size) rest state d

/-- Ends the reading. -/
def finish (text : Bytes) (d : Directive) : State → Except DirectiveError Directive
  | .levelOrTarget first => .ok (d.setLevelOrTarget (slice text first text.length))
  | .level first => d.setLevel (slice text first text.length)
  | .target | .complete => .ok d
  | .start | .span _ | .field _ | .fields => .error .malformed

/-- The directive that a text spells. -/
def parse (s : String) : Except DirectiveError Directive := do
  let text := Text.utf8 s
  let (state, d) ← steps text 0 (Text.trim s).toList .start blank
  finish text d state

/-- The directive for a part of the program and the word for its level. -/
def ofModule (module_ level : String) : Except DirectiveError Directive :=
  parse (module_ ++ "=" ++ level)

end Directive

end TreeDigest.Logging
