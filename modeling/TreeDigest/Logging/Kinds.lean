/-!
What can be chosen about a log: the level from which on lines are written, their
format, and where they go.
-/

namespace TreeDigest.Logging

/-- The levels, from the most talkative one, and none at all. -/
inductive Level where
  | trace
  | debug
  | info
  | warn
  | error
  | off
  deriving DecidableEq, Repr

/-- The word for a level. -/
def Level.word : Level → String
  | .trace => "trace"
  | .debug => "debug"
  | .info => "info"
  | .warn => "warn"
  | .error => "error"
  | .off => "off"

/-- All levels. -/
def Level.all : List Level := [.trace, .debug, .info, .warn, .error, .off]

/-- The level with the given word. -/
def Level.ofWord? (s : String) : Option Level := Level.all.find? fun l => l.word == s

/-- The formats of log lines. -/
inductive Format where
  | text
  | json
  deriving DecidableEq, Repr

/-- The format with the given word. -/
def Format.ofWord? (s : String) : Option Format :=
  if s = "text" then some .text else if s = "json" then some .json else none

/-- The places where log lines go. -/
inductive Output where
  | stdout
  | stderr
  | file
  deriving DecidableEq, Repr

/-- The place with the given word. -/
def Output.ofWord? (s : String) : Option Output :=
  if s = "stdout" then some .stdout
  else if s = "stderr" then some .stderr
  else if s = "file" then some .file
  else none

/-- The refusal of a word that is no format. -/
def badFormat (s : String) : String := s!"Invalid log format: {s} (must be 'json' or 'text')"

/-- The refusal of a word that is no place. -/
def badOutput (s : String) : String :=
  s!"Invalid log output: {s} (must be 'stdout', 'stderr', or 'file')"

end TreeDigest.Logging
