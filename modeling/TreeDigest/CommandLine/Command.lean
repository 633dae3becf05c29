import TreeDigest.CommandLine.Grammar

/-!
The commands of the program.

* `Command` is what can be asked for, and `Invocation` a whole command line.
* `Invocation.grammar` is the grammar of command lines, `Invocation.parseWords` reads
  one, and `Invocation.parse` one that is a list of texts.
-/

namespace TreeDigest.CommandLine

/-- How a scan is asked for. -/
structure ScanRequest where
  path : Option Path
  format : String
  tree : Bool
  excludeEmpty : Bool
  includeEmpty : Bool
  unsortedWalk : Bool
  deriving DecidableEq

/-- How a check is asked for. -/
structure CheckRequest where
  path : Option Path
  identity : String
  record : Bool
  format : String
  deriving DecidableEq

/-- The commands. -/
inductive Command where
  | scan (request : ScanRequest)
  | check (request : CheckRequest)
  | showHistory (identity format : String)
  | clearHistory (identity : String)
  | initConfig (force : Bool)
  | showConfig
  deriving DecidableEq

/-- The name of a command. -/
def Command.name : Command → String
  | .scan _ => "scan"
  | .check _ => "check"
  | .showHistory _ _ => "history.show"
  | .clearHistory _ => "history.clear"
  | .initConfig _ => "config.init"
  | .showConfig => "config.show"

/-- A command with the options in front of it. -/
structure Invocation where
  workspace : Path
  config : Option Path
  verbose : Bool
  logLevel : Option String
  logFormat : Option String
  logOutput : Option String
  logFile : Option Path
  command : Command
  deriving DecidableEq

/-! ### The grammar -/

/-- The rules of a command with nothing required and no conflicts. -/
def Rules.ofOptions (options : List Parameter) : Rules := ⟨options, none, [], []⟩

/-- The format of an answer. -/
def formatOption : Parameter := ⟨"format", .text⟩

/-- The identity of some work. -/
def identityOption : Parameter := ⟨"identity", .text⟩

/-- The path that a scan starts at. -/
def rootWord : Parameter := ⟨"path", .path⟩

/-- What may be given to a scan. -/
def scanRules : Rules where
  options := [formatOption, ⟨"tree", .flag⟩, ⟨"exclude-empty", .flag⟩, ⟨"include-empty", .flag⟩,
    ⟨"unsorted-walk", .flag⟩]
  word := some rootWord
  required := []
  conflicts := [("exclude-empty", "include-empty")]

/-- What may be given to a check. -/
def checkRules : Rules where
  options := [identityOption, ⟨"record", .flag⟩, formatOption]
  word := some rootWord
  required := ["identity"]
  conflicts := []

/-- The grammar of commands on the history. -/
def historyGrammar : Grammar :=
  .mk (.ofOptions [])
    [("show", .mk ⟨[identityOption, formatOption], none, ["identity"], []⟩ []),
      ("clear", .mk ⟨[identityOption], none, ["identity"], []⟩ [])]

/-- The grammar of commands on the configuration. -/
def configGrammar : Grammar :=
  .mk (.ofOptions [])
    [("init", .mk (.ofOptions [⟨"force", .flag⟩]) []), ("show", .mk (.ofOptions []) [])]

/-- The grammar of command lines. -/
def Invocation.grammar : Grammar :=
  .mk (.ofOptions [⟨"workspace", .path⟩, ⟨"config", .path⟩, ⟨"verbose", .flag⟩, ⟨"log-level", .text⟩,
      ⟨"log-format", .text⟩, ⟨"log-output", .text⟩, ⟨"log-file", .path⟩])
    [("scan", .mk scanRules []), ("check", .mk checkRules []), ("history", historyGrammar),
      ("config", configGrammar)]

/-! ### Taking values out -/

namespace Values

/-- A text that may be missing. -/
def text? (values : Values) (name : String) : Option String :=
  match values.lookup name with
  | some (.text s) => some s
  | _ => none

/-- A text, or the given one where there is none. -/
def textOr (values : Values) (name standard : String) : String := (values.text? name).getD standard

/-- A path that may be missing. -/
def path? (values : Values) (name : String) : Option Path :=
  match values.lookup name with
  | some (.path p) => some p
  | _ => none

/-- A flag is set. -/
def isSet (values : Values) (name : String) : Bool := (values.lookup name).isSome

end Values

/-- The command with the given words and values. -/
def Command.ofParsed? : String → Parsed → Option Command
  | "scan", .mk v none => some <| .scan
      ⟨v.path? "path", v.textOr "format" "text", v.isSet "tree", v.isSet "exclude-empty",
        v.isSet "include-empty", v.isSet "unsorted-walk"⟩
  | "check", .mk v none => some <| .check
      ⟨v.path? "path", v.textOr "identity" "", v.isSet "record", v.textOr "format" "text"⟩
  | "history", .mk _ (some ("show", .mk v none)) =>
    some (.showHistory (v.textOr "identity" "") (v.textOr "format" "text"))
  | "history", .mk _ (some ("clear", .mk v none)) => some (.clearHistory (v.textOr "identity" ""))
  | "config", .mk _ (some ("init", .mk v none)) => some (.initConfig (v.isSet "force"))
  | "config", .mk _ (some ("show", .mk _ none)) => some .showConfig
  | _, _ => none

/-- The invocation with the given values; no other command passes the grammar. -/
def Invocation.ofParsed : Parsed → Except UsageError Invocation
  | .mk v (some (word, rest)) =>
    match Command.ofParsed? word rest with
    | some command => .ok
      ⟨(v.path? "workspace").getD (.ofText "."), v.path? "config", v.isSet "verbose",
        v.text? "log-level", v.text? "log-format", v.text? "log-output", v.path? "log-file", command⟩
    | none => .error .unknownCommand
  | .mk _ none => .error .missingCommand

/-- Reads a command line. -/
def Invocation.parseWords (words : List Word) : Except UsageError Invocation :=
  (grammar.parse words).bind ofParsed

/-- Reads a command line of texts. -/
def Invocation.parse (args : List String) : Except UsageError Invocation :=
  parseWords (args.map Text.utf8)

end TreeDigest.CommandLine
