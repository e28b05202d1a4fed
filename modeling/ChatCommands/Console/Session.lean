import ChatCommands.Console.Directive
import ChatCommands.Dispatcher
import ChatCommands.Text.Utf8

/-!
# Console sessions

A chat of one user with the bot, in one channel of one guild. Messages are numbered from one in
the order in which they are posted. Each line leads to events: what the bot sent, and then what
became of the message.
-/

namespace ChatCommands.Console

/-- The number of the bot. -/
def bot : Nat := 1

/-- The author of every message. -/
def author : Nat := 2

/-- The one channel. -/
def channel : Nat := 1

/-- The platform that a console is: the bot may do what it was granted, and sending fails only in
a channel that is locked. -/
def platform (granted : List Capability) (locked : Bool) : Platform where
  permissions _ := .ok (Capability.setOf granted)
  send channel _ :=
    if locked then .error (.missingAccess s!"cannot send messages in channel {channel}")
    else .ok ()
  sendToOwner _ _ := .ok ()

/-- The guild of a session, and the number of the next message. It has no bound here: that a number
of 64 bits overflows after 2^64 posts is out of reach of any session. -/
structure Session where
  guild : Nat
  nextId : Nat := 1
  deriving DecidableEq, Repr

namespace Session

/-- A message of this session. -/
def message (s : Session) (id : Nat) (content : String) (replyTo : Option Nat) : InboundMessage :=
  { id, guild := s.guild, channel, author, content, replyTo }

/-- A new message, and the session after it. -/
def post (s : Session) (content : String) (replyTo : Option Nat) : InboundMessage × Session :=
  (s.message s.nextId content replyTo, { s with nextId := s.nextId + 1 })

/-- New content for a message. It is not a reply, whatever the message was. -/
def edit (s : Session) (id : Nat) (content : String) : InboundMessage :=
  s.message id content none

end Session

/-- Something to report. -/
inductive Event where
  | sent (channel : Nat) (message : OutboundMessage)
  | sentToOwner (guild : Nat) (message : OutboundMessage)
  | handled (id : Nat) (outcome : Outcome)
  | editIgnored (id : Nat)
  | failed (id : Nat) (error : DispatchError)
  deriving DecidableEq, Repr

/-- What there is to report of an effect: a message that got through. -/
def Event.ofEffect? : Effect → Option Event
  | .send channel message (.ok ()) => some (.sent channel message)
  | .sendToOwner guild message (.ok ()) => some (.sentToOwner guild message)
  | _ => none

/-- What there is to report of a new message. -/
def Event.ofMessage (id : Nat) (answer : Answer Outcome) : List Event :=
  answer.effects.filterMap Event.ofEffect? ++ [match answer.result with
    | .ok outcome => .handled id outcome
    | .error error => .failed id error]

/-- What there is to report of an edit. -/
def Event.ofEdit (id : Nat) (answer : Answer (Option Outcome)) : List Event :=
  answer.effects.filterMap Event.ofEffect? ++ [match answer.result with
    | .ok (some outcome) => .handled id outcome
    | .ok none => .editIgnored id
    | .error error => .failed id error]

/-- A session together with the messages that await an edit. -/
structure State where
  session : Session
  awaiting : Awaiting
  deriving DecidableEq, Repr

/-- The state after a new message, and what there is to report of it. -/
def State.post (d : Dispatcher) (p : Platform) (now : Nat) (state : State) (content : String)
    (replyTo : Option Nat) : State × List Event :=
  let (message, session) := state.session.post content replyTo
  let answer := d.handle p now state.awaiting message
  ({ session, awaiting := answer.awaiting }, Event.ofMessage message.id answer)

/-- The state after a directive, and what there is to report of it. Nothing is said about blank
lines. -/
def State.step (d : Dispatcher) (p : Platform) (now : Nat) (state : State) :
    Directive → State × List Event
  | .message text => state.post d p now text none
  | .reply target text => state.post d p now text (some target)
  | .edit id text =>
    let answer := d.handleEdit p now state.awaiting (state.session.edit id text)
    ({ state with awaiting := answer.awaiting }, Event.ofEdit id answer)
  | .quit => (state, [])
  | .blank => (state, [])

/-- What a line of input leads to: the next state with something to report, or the end of the
session, which is due to an error if the line is not text. -/
inductive Progress where
  | next (state : State) (events : List Event)
  | stop (error : Option Text.Utf8Error)

/-- What a line of input leads to. It comes without its line end, so that a character which is cut
short at the end of the line is incomplete. A directive that lacks its number or text is passed
over. -/
def State.feed (d : Dispatcher) (p : Platform) (now : Nat) (state : State) (line : List UInt8) :
    Progress :=
  match Text.Utf8.decode line with
  | .error error => .stop (some error)
  | .ok text =>
    match Directive.ofLine text with
    | .error _ => .next state []
    | .ok .quit => .stop none
    | .ok directive =>
      let (state, events) := state.step d p now directive
      .next state events

/-- What there is to report of a session, each line of which stands with the time at which it comes
in, and the error that ends it if there is one. -/
def transcript (d : Dispatcher) (p : Platform) (state : State) :
    List (Nat × List UInt8) → List Event × Option Text.Utf8Error
  | [] => ([], none)
  | (now, line) :: lines =>
    match state.feed d p now line with
    | .stop error => ([], error)
    | .next state events =>
      let (rest, error) := transcript d p state lines
      (events ++ rest, error)

end ChatCommands.Console
