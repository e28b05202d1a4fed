import ChatCommands.Command
import ChatCommands.Message

/-!
# The chat platform

What the platform is asked for and how it can fail. A `Platform` is the behaviour of the platform
at one moment: the answer it gives to each request.
-/

namespace ChatCommands

/-- How a request to the platform fails. -/
inductive PlatformError where
  /-- The bot may not use the target. -/
  | missingAccess (detail : String)
  | notFound (detail : String)
  | other (detail : String)
  deriving DecidableEq, Repr

namespace PlatformError

def message : PlatformError → String
  | missingAccess detail => s!"missing access: {detail}"
  | notFound detail => s!"not found: {detail}"
  | other detail => s!"platform error: {detail}"

end PlatformError

/-- The answers of the platform: what the bot may do in a channel, and whether a message gets to a
channel or to the owner of a guild. -/
structure Platform where
  permissions : (channel : Nat) → Except PlatformError (List Capability)
  send : (channel : Nat) → OutboundMessage → Except PlatformError Unit
  sendToOwner : (guild : Nat) → OutboundMessage → Except PlatformError Unit

end ChatCommands
