import ChatCommands.Console.Session
import ChatCommands.Text.Position

/-!
# Reports

The two forms in which events are reported. As JSON, each event is one object on a line of
standard output. In the form for people, standard output shows what the bot said, as a chat would,
and standard error shows what became of each message.
-/

namespace ChatCommands

/-- The form of everything that is printed. -/
inductive Format where
  | pretty
  | json
  deriving DecidableEq, Repr

/-- Something printed: a document or a text on standard output, or a text or a position in a file
on standard error. A line end follows each of them. -/
inductive Line where
  | document (json : Json)
  | out (text : String)
  | err (text : String)
  | position (file : String) (position : Text.Position)

namespace Line

/-- The text that a line puts on standard output. -/
def onOutput? : Line → Option String
  | document json => some json.toText
  | out text => some text
  | err _ => none
  | position .. => none

/-- The text that a line puts on standard error. -/
def onError? : Line → Option String
  | document _ => none
  | out _ => none
  | err text => some text
  | position file place => some s!"at {file}:{place.line}:{place.column}"

end Line

open Json

/-! ## Outcomes -/

namespace Outcome

/-- The name of an outcome. -/
def name : Outcome → String
  | notCommand => "not_command"
  | completed _ => "completed"
  | unknownCommand .. => "unknown_command"
  | wrongArguments _ .tooFewArguments => "too_few_arguments"
  | wrongArguments _ .tooManyArguments => "too_many_arguments"
  | permissionDenied .. => "permission_denied"
  | helpRequested .. => "help_requested"
  | preconditionFailed _ => "precondition_failed"

/-- What an outcome has besides its name. -/
def details : Outcome → List (String × Json)
  | notCommand => []
  | completed key => [("key", ofString key)]
  | unknownCommand key suggestion =>
    [("key", ofString key), ("suggestion", suggestion.elim .null ofString)]
  | wrongArguments key _ => [("key", ofString key)]
  | permissionDenied key missing => [("key", ofString key), ("missing", ofStrings missing)]
  | helpRequested key shown => [("key", ofString key), ("shown", .bool shown)]
  | preconditionFailed key => [("key", ofString key)]

def toJson (o : Outcome) : Json :=
  ofMembers (("outcome", ofString o.name) :: o.details)

/-- An outcome in a few words. -/
def label : Outcome → String
  | notCommand => "not a command"
  | completed key => s!"{key}: completed"
  | unknownCommand key (some suggestion) => s!"{key}: unknown command (did you mean {suggestion}?)"
  | unknownCommand key none => s!"{key}: unknown command"
  | wrongArguments key error => s!"{key}: {error.message}"
  | permissionDenied key missing => s!"{key}: missing permissions " ++ ", ".intercalate missing
  | helpRequested key true => s!"{key}: help shown"
  | helpRequested key false => s!"{key}: help hidden"
  | preconditionFailed key => s!"{key}: precondition failed"

end Outcome

/-! ## Messages -/

/-- A message as shown to people: anything but plain text is tagged with its kind. -/
def OutboundMessage.shown (m : OutboundMessage) : String :=
  match m.kind, m.title with
  | .text, _ => m.body
  | kind, some title => s!"[{kind.name}] {title}\n{m.body}"
  | kind, none => s!"[{kind.name}] {m.body}"

/-! ## Events -/

namespace Console.Event

def toJson : Event → Json
  | sent channel message => ofMembers
    [("event", ofString "send"), ("channel", ofNat channel), ("message", message.toJson)]
  | sentToOwner guild message => ofMembers
    [("event", ofString "dm"), ("guild", ofNat guild), ("message", message.toJson)]
  | handled id outcome => ofMembers
    [("event", ofString "outcome"), ("message", ofNat id), ("outcome", outcome.toJson)]
  | editIgnored id => ofMembers [("event", ofString "edit_ignored"), ("message", ofNat id)]
  | failed id error => ofMembers
    [("event", ofString "failure"), ("message", ofNat id), ("error", ofString error.message)]

/-- An event as shown to people. -/
def shown : Event → Line
  | sent _ message => .out message.shown
  | sentToOwner guild message => .out s!"(dm to owner of guild {guild}) {message.shown}"
  | handled id outcome => .err s!"#{id} {outcome.label}"
  | editIgnored id => .err s!"#{id} edit ignored"
  | failed id error => .err s!"#{id} failed: {error.message}"

/-- An event in the given form. -/
def line : Format → Event → Line
  | .json, event => .document event.toJson
  | .pretty, event => event.shown

end Console.Event

end ChatCommands
