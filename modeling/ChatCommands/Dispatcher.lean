import ChatCommands.Awaiting
import ChatCommands.Catalog
import ChatCommands.Invocation
import ChatCommands.Settings
import ChatCommands.Suggestion
import ChatCommands.Table

/-!
# The dispatcher

One message in, at most one handler run. `Dispatcher.interpret` finds out what a message asks for;
that depends on the text and the settings alone. `Dispatcher.handle` then acts on it: it sends a
notice, shows help, or asks for permissions and runs the command. A command that is unknown or has
the wrong arguments marks its message, so that `Dispatcher.handleEdit` treats the next edit of it
like a new message.
-/

namespace ChatCommands

/-- What became of a message. Keys are as invoked. -/
inductive Outcome where
  | notCommand
  | completed (key : String)
  | unknownCommand (key : String) (suggestion : Option String)
  | wrongArguments (key : String) (error : BindingError)
  | permissionDenied (key : String) (missing : List Capability)
  | helpRequested (key : String) (shown : Bool)
  | preconditionFailed (key : String)
  deriving DecidableEq, Repr

/-- What can go wrong beyond the user's part in it. -/
inductive DispatchError where
  | lookupFailed (error : PlatformError)
  | commandFailed (key : String) (reason : String)
  deriving DecidableEq, Repr

def DispatchError.message : DispatchError → String
  | .lookupFailed error => s!"permission lookup failed: {error.message}"
  | .commandFailed key reason => s!"command '{key}' failed: {reason}"

/-- The end of handling a message: how it went, what happened, and which messages await an edit
now. -/
structure Answer (α : Type) where
  result : Except DispatchError α
  effects : List Effect
  awaiting : Awaiting

/-- What a message asks for. -/
inductive Request where
  | nothing
  | unknown (sigil locale key : String) (suggestion : Option String)
  | help (entry : Entry) (ctx : Context)
  | misused (entry : Entry) (ctx : Context) (error : BindingError)
  | ready (entry : Entry) (ctx : Context) (arguments : Binding)

/-- Everything that decides about messages and does not change. -/
structure Dispatcher where
  table : Table
  settings : Settings
  catalog : Catalog
  mentions : Mentions

namespace Dispatcher

/-- The set of awaiting messages before the first message. -/
def initialAwaiting (d : Dispatcher) : Awaiting :=
  { lifetime := d.settings.editLifetime.map (· * 1000) }

/-- The sigil to show to users: the one they used, unless that was a mention that the guild has
not configured. -/
def shownSigil (g : GuildSettings) (used : String) : String :=
  if g.sigils.contains used then used else g.primarySigil

/-- What a message asks for. -/
def interpret (d : Dispatcher) (m : InboundMessage) : Request :=
  let guild := d.settings.guild m.guild
  match Invocation.ofText? m.content guild.sigils d.mentions with
  | none => .nothing
  | some invocation =>
    let sigil := shownSigil guild invocation.sigil
    match d.table.find? invocation.key with
    | none =>
      .unknown sigil guild.locale invocation.key
        (Suggestion.closest d.table.keys invocation.key d.settings.maxDistance)
    | some entry =>
      let ctx : Context := {
        message := m, key := invocation.key, sigil, locale := guild.locale
        catalog := d.catalog, commands := d.table.commands }
      if isHelpRequest invocation.remainder then .help entry ctx
      else
        match Binding.ofText entry.command.parameters invocation.remainder
            (d.settings.replyIsFirstArgument && m.replyTo.isSome) with
        | .error error => .misused entry ctx error
        | .ok arguments => .ready entry ctx arguments

/-! ## Notices -/

/-- The notice that a command is unknown. -/
def unknownNotice (d : Dispatcher) (sigil locale : String) (suggestion : Option String) :
    OutboundMessage :=
  match suggestion with
  | some key => .error (d.catalog.render locale TemplateKey.foundClosest [key])
  | none => .error (d.catalog.render locale TemplateKey.unknownCommand [sigil])

/-- The notice that arguments are wrong. -/
def misuseNotice (ctx : Context) (c : Command) (error : BindingError) : OutboundMessage :=
  let title := match error with
    | .tooFewArguments => TemplateKey.fewArgumentsTitle
    | .tooManyArguments => TemplateKey.manyArgumentsTitle
  .titledError (ctx.render title []) (ctx.correction c)

/-- The usual help for a command. -/
def helpNotice (ctx : Context) (c : Command) : OutboundMessage :=
  .info (ctx.render TemplateKey.helpTitle []) (ctx.helpText c)

/-- Title and body of the notice that permissions are missing. -/
def denial (ctx : Context) (missing : List Capability) : String × String :=
  (ctx.render TemplateKey.permissionDeniedTitle [],
    ctx.render TemplateKey.permissionDeniedBody [ctx.bulletList missing])

/-- An attempt to send a notice. Whether it succeeds changes nothing. -/
def notify (p : Platform) (channel : Nat) (message : OutboundMessage) : Effect :=
  .send channel message (p.send channel message)

/-- The attempts to say that permissions are missing: in the channel and, if the bot may not write
there, to the owner of the guild. -/
def notifyDenial (p : Platform) (ctx : Context) (missing : List Capability) : List Effect :=
  let (title, body) := denial ctx missing
  let notice := OutboundMessage.titledError title body
  match p.send ctx.message.channel notice with
  | .error (.missingAccess detail) =>
    let private_ := OutboundMessage.info title body
    [.send ctx.message.channel notice (.error (.missingAccess detail)),
      .sendToOwner ctx.message.guild private_ (p.sendToOwner ctx.message.guild private_)]
  | answer => [.send ctx.message.channel notice answer]

/-! ## Handling -/

/-- Shows help about a command, unless the command cannot be used here. -/
def showHelp (d : Dispatcher) (p : Platform) (entry : Entry) (ctx : Context) :
    Except DispatchError Outcome × List Effect :=
  if !entry.applies ctx then (.ok (.helpRequested ctx.key false), entry.checks ctx)
  else match entry.help with
    | none =>
      (.ok (.helpRequested ctx.key true),
        entry.checks ctx ++ [notify p ctx.message.channel (helpNotice ctx entry.command)])
    | some help =>
      let (result, effects) := d.table.perform p ctx (help ctx)
      let effects := entry.checks ctx ++ .help entry.command ctx :: effects
      match result with
      | .ok () => (.ok (.helpRequested ctx.key true), effects)
      | .error reason => (.error (.commandFailed ctx.key reason), effects)

/-- Runs a command whose arguments are bound, if the bot may do what it takes and the command can
be used here. -/
def execute (d : Dispatcher) (p : Platform) (entry : Entry) (ctx : Context)
    (arguments : Binding) : Except DispatchError Outcome × List Effect :=
  let answer := p.permissions ctx.message.channel
  let lookup := Effect.lookup ctx.message.channel answer
  match answer with
  | .error error => (.error (.lookupFailed error), [lookup])
  | .ok granted =>
    let missing := entry.command.capabilities.filter fun c => !granted.contains c
    if !missing.isEmpty then
      (.ok (.permissionDenied ctx.key missing), lookup :: notifyDenial p ctx missing)
    else if !entry.applies ctx then
      (.ok (.preconditionFailed ctx.key), lookup :: entry.checks ctx)
    else
      let (result, effects) := d.table.perform p ctx (entry.handler ctx arguments)
      let effects := lookup :: (entry.checks ctx ++ .run entry.command ctx arguments :: effects)
      match result with
      | .ok () => (.ok (.completed ctx.key), effects)
      | .error reason => (.error (.commandFailed ctx.key reason), effects)

/-- Handles a new message. From the moment that its arguments are bound, an edit of it is no
longer awaited. -/
def handle (d : Dispatcher) (p : Platform) (now : Nat) (awaiting : Awaiting)
    (m : InboundMessage) : Answer Outcome :=
  match d.interpret m with
  | .nothing => { result := .ok .notCommand, effects := [], awaiting }
  | .unknown sigil locale key suggestion =>
    { result := .ok (.unknownCommand key suggestion)
      effects := [notify p m.channel (d.unknownNotice sigil locale suggestion)]
      awaiting := awaiting.mark now m.id }
  | .help entry ctx =>
    let (result, effects) := d.showHelp p entry ctx
    { result, effects, awaiting }
  | .misused entry ctx error =>
    { result := .ok (.wrongArguments ctx.key error)
      effects := [notify p m.channel (misuseNotice ctx entry.command error)]
      awaiting := awaiting.mark now m.id }
  | .ready entry ctx arguments =>
    let (result, effects) := d.execute p entry ctx arguments
    { result, effects, awaiting := awaiting.clear m.id }

/-- Handles an edit of a message. Only an edit that is awaited counts, and only once. -/
def handleEdit (d : Dispatcher) (p : Platform) (now : Nat) (awaiting : Awaiting)
    (m : InboundMessage) : Answer (Option Outcome) :=
  let (awaited, awaiting) := awaiting.take now m.id
  if awaited then
    let answer := d.handle p now awaiting m
    { answer with result := answer.result.map some }
  else { result := .ok none, effects := [], awaiting }

end Dispatcher

end ChatCommands
