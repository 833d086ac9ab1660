/-! # Command-line arguments

The shape of the arguments of a command: flags, options with a value, and words by position. Long
names start with two dashes; the value of an option is the next argument or follows an equals sign.
After a bare `--` all arguments are words. No option may come twice.
-/

namespace Clickstream.Cli

/-- What a value must be. -/
inductive ValueKind where
  /-- Any text. -/
  | text
  /-- A path, which is not empty. -/
  | path
  | word (choices : List String)

/-- Whether a value is of a kind. -/
def ValueKind.admits : ValueKind → String → Bool
  | text, _ => true
  | path, value => value ≠ ""
  | word choices, value => choices.contains value

/-- The arguments that a command takes. -/
structure Grammar where
  flags : List String := []
  /-- The options with a value. -/
  options : List (String × ValueKind) := []
  /-- The words, by position; all are needed. -/
  words : List ValueKind := []
  /-- Whether the first word names a command and ends the arguments. -/
  hasCommands : Bool := false
  /-- Whether it tells its version. -/
  hasVersion : Bool := false

/-- Why arguments name nothing to be done. -/
inductive Halt where
  /-- They are not as they should be. -/
  | usage
  /-- They ask for help. -/
  | help
  /-- They ask for the version. -/
  | version
  deriving DecidableEq

structure Arguments where
  flags : List String := []
  /-- The options with their values. -/
  options : List (String × String) := []
  /-- The words, first one first. -/
  words : List String := []

namespace Arguments

def has (arguments : Arguments) (flag : String) : Bool := arguments.flags.contains flag

def value? (arguments : Arguments) (option : String) : Option String :=
  (arguments.options.find? (·.1 = option)).map (·.2)

end Arguments

/-- A place in a list of arguments. -/
structure Scan where
  found : Arguments := {}
  /-- The option that waits for its value. -/
  waiting : Option (String × ValueKind) := none
  onlyWords : Bool := false

namespace Grammar

/-- Whether an argument is a word by its looks. -/
def looksLikeWord (argument : String) : Bool := !argument.startsWith "-" || argument = "-"

/-- Take a word by position. -/
def takeWord (g : Grammar) (s : Scan) (word : String) : Except Halt Scan :=
  match g.words[s.found.words.length]? with
  | some kind =>
    if kind.admits word then
      .ok { s with found := { s.found with words := s.found.words ++ [word] } }
    else .error .usage
  | none => .error .usage

/-- Take the value of an option. -/
def takeValue (s : Scan) (name : String) (kind : ValueKind) (value : String) : Except Halt Scan :=
  if kind.admits value then
    .ok { s with
      found := { s.found with options := s.found.options ++ [(name, value)] }
      waiting := none }
  else .error .usage

/-- Take an option by its long name, with the value behind an equals sign if there is one. -/
def takeOption (g : Grammar) (s : Scan) (name : String) (value : Option String) :
    Except Halt Scan :=
  if name = "help" then if value.isSome then .error .usage else .error .help
  else if g.hasVersion && name = "version" then
    if value.isSome then .error .usage else .error .version
  else if g.flags.contains name then
    if value.isSome || s.found.has name then .error .usage
    else .ok { s with found := { s.found with flags := s.found.flags ++ [name] } }
  else match g.options.find? (·.1 = name) with
    | none => .error .usage
    | some (_, kind) =>
      if (s.found.value? name).isSome then .error .usage
      else match value with
        | some value => takeValue s name kind value
        | none => .ok { s with waiting := some (name, kind) }

/-- The long name of an option and the value behind an equals sign. -/
def splitOption (argument : String) : String × Option String :=
  let cs := argument.toList.drop 2
  let name := String.ofList (cs.takeWhile (· ≠ '='))
  match cs.dropWhile (· ≠ '=') with
  | [] => (name, none)
  | _ :: value => (name, some (String.ofList value))

def step (g : Grammar) (s : Scan) (argument : String) : Except Halt Scan :=
  if s.onlyWords then g.takeWord s argument
  else match s.waiting with
    | some (name, kind) =>
      if looksLikeWord argument then takeValue s name kind argument else .error .usage
    | none =>
      if looksLikeWord argument then g.takeWord s argument
      else if argument = "--" then .ok { s with onlyWords := true }
      else if argument.startsWith "--" then
        let (name, value) := splitOption argument
        g.takeOption s name value
      else if argument = "-h" then .error .help
      else if g.hasVersion && argument = "-V" then .error .version
      else .error .usage

/-- Whether an argument names a command at a place. -/
def namesCommand (g : Grammar) (s : Scan) (argument : String) : Bool :=
  g.hasCommands && !s.onlyWords && s.waiting.isNone && looksLikeWord argument

/-- Take arguments up to the name of a command, or all of them. -/
def scan (g : Grammar) (s : Scan) : List String → Except Halt (Scan × List String)
  | [] => .ok (s, [])
  | argument :: rest =>
    if g.namesCommand s argument then .ok (s, argument :: rest)
    else match g.step s argument with
      | .ok s => g.scan s rest
      | .error halt => .error halt

/-- The arguments before the name of a command, and that name with all that follows it. -/
def read (g : Grammar) (arguments : List String) : Except Halt (Arguments × List String) :=
  match g.scan {} arguments with
  | .error halt => .error halt
  | .ok (s, rest) =>
    if s.waiting.isSome || s.found.words.length < g.words.length then .error .usage
    else .ok (s.found, rest)

end Grammar

end Clickstream.Cli
