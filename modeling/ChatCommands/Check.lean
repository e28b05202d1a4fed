import ChatCommands.Check.Locator
import ChatCommands.Console.Report
import ChatCommands.Table

/-!
# Checking declarations

Whether a declarations file makes a command table, and the report about it. Every declaration has
to make a command, and no two of them may share a key.
-/

namespace ChatCommands

/-- What can be wrong with a declarations file. -/
inductive CheckError where
  | malformed
  | invalidCommand (error : CommandError)
  | duplicateKey (duplicate : DuplicateKey)
  deriving DecidableEq, Repr

namespace CheckError

/-- The text of an error. For a malformed file it is a fixed one, in place of what a reader of
JSON would say about it. -/
def message : CheckError → String
  | malformed => "invalid declaration JSON: not a list of declarations"
  | invalidCommand error => error.message
  | duplicateKey duplicate => duplicate.message

/-- The text that an error is about, if it names one. -/
def subject? : CheckError → Option String
  | malformed => none
  | invalidCommand (.invalidKey key) => if key.isEmpty then none else some key
  | invalidCommand (.invalidPattern error) => some error.token
  | duplicateKey _ => none

/-- The part of the file that an error is shown at. -/
def span? (source : String) : CheckError → Option Span
  | duplicateKey duplicate => (redeclaration? source duplicate.key).map Literal.span
  | error => error.subject?.bind fun subject => occurrence? subject.toList 0 source.toList

end CheckError

namespace Check

/-- The commands of a declarations file. All declarations are looked at before any keys are
compared. -/
def commands (source : String) : Except CheckError (List Command) :=
  match Declaration.listOfText? source with
  | none => .error .malformed
  | some declarations =>
    match Command.ofDeclarations declarations with
    | .error error => .error (.invalidCommand error)
    | .ok commands =>
      match Draft.assemble commands with
      | .error duplicate => .error (.duplicateKey duplicate)
      | .ok _ => .ok commands

/-! ## Reports -/

/-- A command in the report on a file without errors. -/
def summary (c : Command) : Json :=
  .ofMembers [
    ("key", .ofString c.key), ("aliases", .ofStrings c.aliases),
    ("usage", .ofString c.usagePattern), ("permissions", .ofStrings c.capabilities)]

/-- A command as it is invoked. -/
def invocationLine (c : Command) : String :=
  if c.usagePattern.isEmpty then c.key else c.key ++ " " ++ c.usagePattern

/-- The report on a file without errors. -/
def success (file : String) (commands : List Command) : Format → List Line
  | .json => [.document (.ofMembers [
      ("ok", .bool true), ("commands", .array (commands.map summary))])]
  | .pretty =>
    commands.map (fun c => .out (invocationLine c)) ++
      [.err s!"{file}: {commands.length} command(s) ok"]

/-- The report on an error in a file. -/
def failure (file source : String) (error : CheckError) : Format → List Line
  | .json => [.document (.ofMembers [
      ("ok", .bool false), ("error", .ofString error.message)])]
  | .pretty =>
    match error.span? source with
    | none => [.err s!"error: {error.message}"]
    | some span => .err s!"Error: {error.message}" ::
      ((span.position? source.toList).toList.map fun position => .position file position)

end Check

end ChatCommands
