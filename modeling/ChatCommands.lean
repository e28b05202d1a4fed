import ChatCommands.Main
import ChatCommands.Proofs.Dispatcher.AtMostOnce
import ChatCommands.Proofs.Dispatcher.Course
import ChatCommands.Proofs.Dispatcher.Retry
import ChatCommands.Proofs.Dispatcher.Typed
import ChatCommands.Proofs.Pattern.RoundTrip
import ChatCommands.Proofs.Pattern.Rules
import ChatCommands.Proofs.Table.Construction
import ChatCommands.Proofs.Dispatcher.Decision
import ChatCommands.Proofs.Catalog.History
import ChatCommands.Proofs.Dispatcher.Transitions
import ChatCommands.Proofs.Text.LowerCase
import ChatCommands.Proofs.Invocation.Parts
import ChatCommands.Proofs.Suggestion.Edits
import ChatCommands.Proofs.Suggestion.Distance
import ChatCommands.Proofs.Suggestion.Nearest
import ChatCommands.Proofs.Table.Keys
import ChatCommands.Proofs.Dispatcher.Suggested
import ChatCommands.Proofs.Console.Protocol
import ChatCommands.Proofs.Json.RoundTrip
import ChatCommands.Proofs.Console.Labels
import ChatCommands.Proofs.Console.Formats
import ChatCommands.Proofs.Command.Compiled
import ChatCommands.Proofs.Check.Verdict
import ChatCommands.Proofs.Check.Literals
import ChatCommands.Proofs.Check.Redeclared
import ChatCommands.Proofs.Template.Pieces
import ChatCommands.Proofs.Awaiting.History
import ChatCommands.Proofs.Binding.StandIn
import ChatCommands.Proofs.Table.Owners
import ChatCommands.Proofs.Dispatcher.Denial
import ChatCommands.Proofs.Dispatcher.Usage
import ChatCommands.Proofs.Dispatcher.Aliases
import ChatCommands.Proofs.Invocation.Quoted
import ChatCommands.Proofs.Settings.Checked
import ChatCommands.Proofs.Settings.Overrides
import ChatCommands.Proofs.Command.Recompiled
import ChatCommands.Proofs.Console.Directives
import ChatCommands.Proofs.Binding.Lossless
import ChatCommands.Proofs.Console.Replies
