import ChatCommands.Catalog
import ChatCommands.Catalog.Key
import ChatCommands.Command
import ChatCommands.Message

/-!
# Contexts

What a command can see of one invocation of it, and the texts about commands that are rendered
from there.
-/

namespace ChatCommands

/-- One invocation. `key` is the key as invoked, which may be an alias, `sigil` is the one that
users are shown, and `commands` are all the commands there are. -/
structure Context where
  message : InboundMessage
  key : String
  sigil : String
  locale : String
  catalog : Catalog
  commands : List Command
  deriving DecidableEq, Repr

namespace Context

/-- A template in the locale of the guild. -/
def render (ctx : Context) (key : String) (args : List String) : String :=
  ctx.catalog.render ctx.locale key args

/-- A command in one line: how to invoke it and what it does. -/
def usageLine (ctx : Context) (c : Command) : String :=
  let description := if c.description.isEmpty then "" else ctx.render c.description []
  if c.paramText.isEmpty then
    ctx.render TemplateKey.helpUsageEmpty [ctx.sigil, c.key, description]
  else
    let pattern := ctx.render c.paramText []
    ctx.render TemplateKey.helpUsage [ctx.sigil, c.key, pattern, description]

/-- The help for a command: its usage line, and what the brackets in it mean if there are any. -/
def helpText (ctx : Context) (c : Command) : String :=
  if c.parameters.isEmpty then ctx.usageLine c
  else ctx.usageLine c ++ "\n\n" ++ ctx.render TemplateKey.helpBrackets []

/-- How to invoke a command, for someone who got its arguments wrong. -/
def correction (ctx : Context) (c : Command) : String :=
  if c.paramText.isEmpty then ctx.render TemplateKey.incorrectArgumentsEmpty [ctx.sigil, ctx.key]
  else
    let pattern := ctx.render c.paramText []
    ctx.render TemplateKey.incorrectArguments [ctx.sigil, ctx.key, pattern]

/-- The name of a capability, or the capability itself if it has no name. -/
def capabilityName (ctx : Context) (c : Capability) : String :=
  let key := TemplateKey.permission c
  let name := ctx.render key []
  if name = key then c else name

/-- The names of capabilities as a list with a bullet in each line. -/
def bulletList (ctx : Context) (cs : List Capability) : String :=
  "\n".intercalate (cs.map fun c => "• " ++ ctx.capabilityName c)

end Context

end ChatCommands
