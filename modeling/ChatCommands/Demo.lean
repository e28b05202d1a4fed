import ChatCommands.Table
import ChatCommands.Text.Numeral

/-!
# Demonstration commands

The commands that a console session offers: `help`, `ping`, `echo` and `purge`. Deleting messages
is only talked about.
-/

namespace ChatCommands.Demo

/-- Lists the commands that can be used. -/
def help (ctx : Context) (_ : Binding) : Action :=
  .applicable fun commands =>
    let usage := String.join (commands.map fun c => ctx.usageLine c ++ "\n")
    let body := usage ++ "\n" ++ ctx.render TemplateKey.helpBrackets [] ++ "\n" ++
      ctx.render TemplateKey.helpMore [ctx.sigil]
    .reply ctx (.info (ctx.render TemplateKey.helpTitle []) body)

/-- Answers. -/
def ping (ctx : Context) (_ : Binding) : Action :=
  .reply ctx (.text (ctx.render "command.ping.completed" []))

/-- Says its argument. -/
def echo (ctx : Context) (arguments : Binding) : Action :=
  .reply ctx (.text ((arguments.get? "text").getD ""))

/-- A count of messages: a positive number of at most 32 bits. -/
def count? (text : String) : Option Nat :=
  (Text.unsigned? Text.maxWord32 text.toList).filter (0 < ·)

/-- Says that messages were deleted, and why if a reason is given. -/
def purge (ctx : Context) (arguments : Binding) : Action :=
  let raw := (arguments.get? "count").getD ""
  match count? raw with
  | none => .reply ctx (.error (ctx.render "command.purge.incorrect-number" [raw]))
  | some n =>
    match arguments.get? "reason" with
    | some reason =>
      .reply ctx (.text (ctx.render "command.purge.completed.reason" [toString n, reason]))
    | none => .reply ctx (.text (ctx.render "command.purge.completed" [toString n]))

/-- The commands with their handlers, in the order in which they are listed. -/
def declarations : List (Declaration × (Context → Binding → Action)) := [
  ({ key := "help", aliases := ["commands"], description := "command.help.description" }, help),
  ({ key := "ping", description := "command.ping.description" }, ping),
  ({ key := "echo", aliases := ["say"], params := "<text...>",
     description := "command.echo.description" }, echo),
  ({ key := "purge", params := "<count> [reason...]", description := "command.purge.description",
     permissions := ["manage_messages"] }, purge)]

/-- The entries of the table. -/
def entries : List Entry :=
  declarations.filterMap fun (declaration, handler) =>
    (Command.ofDeclaration declaration).toOption.map fun command => { command, handler }

/-- The table of the commands. -/
def table : Table :=
  (Table.ofEntries entries).toOption.get (by decide +kernel)

theorem ofEntries_entries : Table.ofEntries entries = .ok table := by
  have hsome : (Table.ofEntries entries).toOption = some table := (Option.some_get _).symm
  cases hbuilt : Table.ofEntries entries with
  | error conflict =>
    rw [hbuilt] at hsome
    cases hsome
  | ok t =>
    rw [hbuilt] at hsome
    exact congrArg Except.ok (Option.some.inj hsome)

theorem entries_table : table.entries = entries :=
  Table.entries_of_ofEntries ofEntries_entries

end ChatCommands.Demo
