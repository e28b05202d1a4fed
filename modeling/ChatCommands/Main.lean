import ChatCommands.Arguments

/-!
# The program

Reads arguments, files and standard input, and prints what the library makes of them. A console
session is printed line by line, with the time at which each line came in.
-/

namespace ChatCommands.Program

open CommandLine

/-- Prints a line to where it belongs. -/
def printLine (line : Line) : IO Unit := do
  line.onOutput?.forM IO.println
  line.onError?.forM IO.eprintln

/-- Prints a report. -/
def printReport (report : Report) : IO UInt32 := do
  report.lines.forM printLine
  return UInt32.ofNat report.exitCode

/-- The bytes of a file, or why they cannot be read. -/
def fileBytes (file : String) : IO (Except String (List UInt8)) := do
  try
    return .ok (← IO.FS.readBinFile file).toList
  catch
    | .noFileOrDirectory .. => return .error "No such file or directory (os error 2)"
    | e => return .error (toString e)

/-- The next line of a stream with its line end, or nothing at its end. -/
partial def nextLine (stream : IO.FS.Stream) (line : ByteArray) : IO ByteArray := do
  let byte ← stream.read 1
  if byte.isEmpty then return line
  let line := line ++ byte
  if byte.toList = [0x0A] then return line
  nextLine stream line

/-- A console session to its end. -/
partial def session (d : Dispatcher) (p : Platform) (format : Format) (stdin : IO.FS.Stream)
    (state : Console.State) : IO UInt32 := do
  let line ← nextLine stdin .empty
  if line.isEmpty then return ← printReport (ending format none)
  match state.feed d p (← IO.monoMsNow) (Text.Utf8.withoutLineEnd line.toList) with
  | .stop error => printReport (ending format error)
  | .next state events =>
    events.forM fun event => printLine (event.line format)
    (← IO.getStdout).flush
    session d p format stdin state

/-- Carries out a task. -/
def perform (format : Format) : Task → IO UInt32
  | .check file => do printReport (checkReport file format (← fileBytes file))
  | .run options => do
    let contents ← match options.settings with
      | some file => fileBytes file
      | none => pure (.ok [])
    match settingsOf (fun _ => contents) options.settings with
    | .error failure => printReport { lines := failure.lines format, exitCode := 1 }
    | .ok settings =>
      session (dispatcher settings) (platform options) format (← IO.getStdin)
        (initialState options settings)

end ChatCommands.Program

open ChatCommands CommandLine in
def main (words : List String) : IO UInt32 := do
  match Arguments.ofWords words with
  | .ok { format, task := some task } =>
    let format ← match format with
      | some format => pure format
      | none => if ← (← IO.getStdout).isTty then pure .pretty else pure .json
    Program.perform format task
  | .ok { task := none, .. } =>
    IO.eprintln s!"error: {ArgumentError.noTask.message}\n{usage}"
    return 2
  | .error e =>
    IO.eprintln s!"error: {e.message}\n{usage}"
    return 2
