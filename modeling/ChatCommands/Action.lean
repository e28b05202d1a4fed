import ChatCommands.Binding
import ChatCommands.Context
import ChatCommands.Platform

/-!
# Actions and effects

What a command does, as a value: an `Action` asks for one thing after another, goes on with the
answer, and ends in success or with a reason for failure. An `Effect` is one thing that happened
while a message was handled, and lists of effects are in order of time.
-/

namespace ChatCommands

/-- What a command does. `applicable` asks for the commands that can be used in the context. -/
inductive Action where
  | finish (result : Except String Unit)
  | send (channel : Nat) (message : OutboundMessage) (next : Except PlatformError Unit → Action)
  | sendToOwner (guild : Nat) (message : OutboundMessage)
      (next : Except PlatformError Unit → Action)
  | permissions (channel : Nat) (next : Except PlatformError (List Capability) → Action)
  | applicable (next : List Command → Action)

namespace Action

def succeed : Action := finish (.ok ())

def fail (reason : String) : Action := finish (.error reason)

/-- Sends a message to where the invocation came from, and fails if that fails. -/
def reply (ctx : Context) (message : OutboundMessage) : Action :=
  send ctx.message.channel message fun
    | .ok () => succeed
    | .error e => fail e.message

end Action

/-- Something that happened while a message was handled. -/
inductive Effect where
  /-- The permissions in a channel were asked for. -/
  | lookup (channel : Nat) (answer : Except PlatformError (List Capability))
  /-- A message was sent to a channel, or would have been. -/
  | send (channel : Nat) (message : OutboundMessage) (answer : Except PlatformError Unit)
  /-- A message was sent to the owner of a guild, or would have been. -/
  | sendToOwner (guild : Nat) (message : OutboundMessage) (answer : Except PlatformError Unit)
  /-- The precondition of a command was evaluated. -/
  | check (command : Command) (ctx : Context) (passed : Bool)
  /-- The handler of a command was started. -/
  | run (command : Command) (ctx : Context) (arguments : Binding)
  /-- The help that a command gives itself was started. -/
  | help (command : Command) (ctx : Context)

end ChatCommands
