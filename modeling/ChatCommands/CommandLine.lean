import ChatCommands.Catalog.Bundled
import ChatCommands.Check
import ChatCommands.Demo

/-!
# The command line

The two tasks of the program, `run` and `check`, as functions of the files and the standard input
that they read: the lines that are printed, and the exit code.
-/

namespace ChatCommands.CommandLine

open Text

/-- What a session is run with. -/
structure RunOptions where
  settings : Option String := none
  grants : List Capability := []
  lockedChannel : Bool := false
  guild : Nat := 1
  deriving DecidableEq, Repr

/-- What the program is to do. Files are given by name. -/
inductive Task where
  | run (options : RunOptions)
  | check (file : String)
  deriving DecidableEq, Repr

/-- What a task prints, in order, and the exit code. -/
structure Report where
  lines : List Line
  exitCode : Nat

/-- A failure that ends the program: what could not be done, and why if that is another matter. -/
structure Failure where
  summary : String
  cause : Option String := none
  deriving DecidableEq, Repr

namespace Failure

/-- The summary with the cause after it. -/
def message (f : Failure) : String :=
  match f.cause with
  | some cause => f.summary ++ ": " ++ cause
  | none => f.summary

def lines (f : Failure) : Format → List Line
  | .json => [.document (.ofMembers [
      ("success", .bool false), ("error", .ofString "command_failed"),
      ("message", .ofString f.message)])]
  | .pretty => .err s!"Error: {f.summary}" :: match f.cause with
    | some cause => [.err "", .err "Caused by:", .err s!"    {cause}"]
    | none => []

end Failure

/-- The text of a file, or why there is none. -/
def fileText (contents : Except String (List UInt8)) : Except String String :=
  match contents with
  | .error reason => .error reason
  | .ok bytes =>
    match Utf8.decode bytes with
    | .error _ => .error "stream did not contain valid UTF-8"
    | .ok text => .ok text

/-- The settings to run with. -/
def settingsOf (files : String → Except String (List UInt8)) :
    Option String → Except Failure Settings
  | none => .ok {}
  | some file =>
    match fileText (files file) with
    | .error reason => .error { summary := s!"failed to read settings '{file}'", cause := reason }
    | .ok text =>
      match Settings.load text with
      | .error error =>
        .error { summary := s!"invalid settings '{file}'", cause := error.message }
      | .ok settings => .ok settings

/-- The dispatcher of a console session. -/
def dispatcher (settings : Settings) : Dispatcher where
  table := Demo.table
  settings
  catalog := .bundled
  mentions := .ofUser Console.bot

/-- The platform of a console session. -/
def platform (options : RunOptions) : Platform :=
  Console.platform options.grants options.lockedChannel

/-- The state in which a console session starts. -/
def initialState (options : RunOptions) (settings : Settings) : Console.State :=
  { session := { guild := options.guild }
    awaiting := (dispatcher settings).initialAwaiting }

/-- What is printed after the last line of a session, and the exit code. -/
def ending (format : Format) : Option Utf8Error → Report
  | none => { lines := [], exitCode := 0 }
  | some error => { lines := Failure.lines { summary := error.message } format, exitCode := 1 }

/-- A console session over a whole input. Lines are counted from zero, and each comes in when the
clock says. -/
def runReport (options : RunOptions) (format : Format) (settings : Settings) (clock : Nat → Nat)
    (stdin : List UInt8) : Report :=
  let lines := (Utf8.lines stdin).zipIdx.map fun (line, i) => (clock i, line)
  let (events, error) := Console.transcript (dispatcher settings) (platform options)
    (initialState options settings) lines
  let last := ending format error
  { last with lines := events.map (Console.Event.line format) ++ last.lines }

/-- The check of a declarations file. -/
def checkReport (file : String) (format : Format) (contents : Except String (List UInt8)) :
    Report :=
  match fileText contents with
  | .error reason =>
    let failure : Failure := {
      summary := s!"failed to read declarations '{file}'", cause := reason }
    { lines := failure.lines format, exitCode := 1 }
  | .ok source =>
    match Check.commands source with
    | .ok commands => { lines := Check.success file commands format, exitCode := 0 }
    | .error error => { lines := Check.failure file source error format, exitCode := 1 }

/-- What a task does with the given files and standard input, when lines come in as the clock
says. -/
def reportAt (clock : Nat → Nat) (format : Format)
    (files : String → Except String (List UInt8)) (stdin : List UInt8) : Task → Report
  | .check file => checkReport file format (files file)
  | .run options =>
    match settingsOf files options.settings with
    | .error failure => { lines := failure.lines format, exitCode := 1 }
    | .ok settings => runReport options format settings clock stdin

/-- What a task does when the whole standard input comes in at once. -/
def report (format : Format) (files : String → Except String (List UInt8)) (stdin : List UInt8)
    (task : Task) : Report :=
  reportAt (fun _ => 0) format files stdin task

end ChatCommands.CommandLine
