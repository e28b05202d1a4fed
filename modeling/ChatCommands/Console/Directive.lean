import ChatCommands.Text.Blank
import ChatCommands.Text.Numeral

/-!
# Console lines

What a line typed at the console means. A line is a message of its own, unless it is blank or
starts with one of the directives `:edit`, `:reply` and `:quit`.
-/

namespace ChatCommands.Console

open Text

/-- What a line asks for. -/
inductive Directive where
  | message (text : String)
  | reply (target : Nat) (text : String)
  | edit (id : Nat) (text : String)
  | quit
  | blank
  deriving DecidableEq, Repr

/-- A directive that lacks its number or its text. -/
inductive UsageError where
  | edit
  | reply
  deriving DecidableEq, Repr

def UsageError.message : UsageError → String
  | .edit => "usage: :edit <id> <text>"
  | .reply => "usage: :reply <id> <text>"

namespace Directive

/-- Whether a character ends a line of input. -/
def isLineEnd (c : Char) : Bool :=
  c == '\r' || c == '\n'

/-- A line without the line ends at its end. -/
def withoutLineEnd (cs : List Char) : List Char :=
  (cs.reverse.dropWhile isLineEnd).reverse

/-- The message number and the text that follow a directive. A blank has to stand between them,
but the text may be empty. -/
def target? (cs : List Char) : Option (Nat × String) :=
  let cs := trimStart cs
  if (afterWord cs).isEmpty then none
  else (unsigned? maxWord64 (word cs)).map fun id =>
    (id, String.ofList (trimStart (afterWord cs)))

/-- What a line asks for. -/
def ofLine (line : String) : Except UsageError Directive :=
  let cs := withoutLineEnd line.toList
  if isBlankText cs then .ok .blank
  else if trim cs = ":quit".toList then .ok .quit
  else match after? ":edit ".toList cs with
    | some rest =>
      match target? rest with
      | some (id, text) => .ok (.edit id text)
      | none => .error .edit
    | none =>
      match after? ":reply ".toList cs with
      | some rest =>
        match target? rest with
        | some (target, text) => .ok (.reply target text)
        | none => .error .reply
      | none => .ok (.message (String.ofList cs))

end Directive

end ChatCommands.Console
