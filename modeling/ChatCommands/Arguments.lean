import ChatCommands.CommandLine

/-!
# Arguments of the program

The words after the program's name: a task with its options, and the options that every task has.
An option and its value are two words, or one with an equals sign between them.
-/

namespace ChatCommands.CommandLine

/-- Why the arguments make no sense. -/
inductive ArgumentError where
  | noTask
  | unexpected (argument : String)
  | missingValue (option : String)
  | invalidValue (option value : String)
  deriving DecidableEq, Repr

def ArgumentError.message : ArgumentError → String
  | .noTask => "a task is required: run or check"
  | .unexpected argument => s!"unexpected argument '{argument}'"
  | .missingValue option => s!"a value is required for '{option}'"
  | .invalidValue option value => s!"invalid value '{value}' for '{option}'"

/-- How the program is to be called. -/
def usage : String :=
  "usage: run [--config FILE] [--grant CAP]... [--locked-channel] [--guild ID]\n" ++
    "       check FILE\n" ++
    "options: [--output pretty|json] [--verbose]"

/-- What the arguments ask for. Without a format, it depends on where the output goes. -/
structure Arguments where
  format : Option Format := none
  task : Option Task := none
  deriving DecidableEq, Repr

namespace Arguments

/-- A word as the words that it stands for: an option with a value is two. -/
def expand (argument : String) : List String :=
  if argument.startsWith "--" then
    match argument.toList.span (· != '=') with
    | (name, '=' :: value) => [String.ofList name, String.ofList value]
    | _ => [argument]
  else [argument]

/-- The arguments, with changed options of a session. -/
def withRun (a : Arguments) (argument : String) (change : RunOptions → RunOptions) :
    Except ArgumentError Arguments :=
  match a.task with
  | some (.run options) => .ok { a with task := some (.run (change options)) }
  | _ => .error (.unexpected argument)

/-- Takes up the option that a word and its value are. -/
def withOption (a : Arguments) (option value : String) : Except ArgumentError Arguments :=
  match option with
  | "--output" =>
    match value with
    | "pretty" => .ok { a with format := some .pretty }
    | "json" => .ok { a with format := some .json }
    | _ => .error (.invalidValue option value)
  | "--config" => a.withRun option fun o => { o with settings := some value }
  | "--grant" => a.withRun option fun o => { o with grants := o.grants ++ [value] }
  | "--guild" =>
    match Text.unsigned? Text.maxWord64 value.toList with
    | some guild => a.withRun option fun o => { o with guild }
    | none => .error (.invalidValue option value)
  | _ => .error (.unexpected option)

/-- Takes up a word that has no value after it. -/
def withWord (a : Arguments) (word : String) : Except ArgumentError Arguments :=
  match word, a.task with
  | "-v", _ => .ok a
  | "--verbose", _ => .ok a
  | "--locked-channel", _ => a.withRun word fun o => { o with lockedChannel := true }
  | "run", none => .ok { a with task := some (.run {}) }
  | _, _ => .error (.unexpected word)

/-- Whether a word needs another one after it. -/
def takesValue (word : String) : Bool :=
  ["--output", "--config", "--grant", "--guild"].contains word

/-- Takes up words in order. -/
def collect (a : Arguments) : List String → Except ArgumentError Arguments
  | [] => .ok a
  | [word] =>
    if takesValue word then .error (.missingValue word)
    else if word = "check" then .error (.missingValue word)
    else a.withWord word
  | word :: value :: rest =>
    if takesValue word then (a.withOption word value).bind (·.collect rest)
    else if word = "check" ∧ a.task = none then collect { a with task := some (.check value) } rest
    else (a.withWord word).bind (·.collect (value :: rest))

/-- The arguments that words make. -/
def ofWords (words : List String) : Except ArgumentError Arguments :=
  collect {} (words.flatMap expand)

end Arguments

end ChatCommands.CommandLine
