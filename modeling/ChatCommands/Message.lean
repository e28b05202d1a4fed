import ChatCommands.Json.Printer
import ChatCommands.Json.Reader
import ChatCommands.Json.Record

/-!
# Messages

The messages that come in from a chat and those that go out to it, and their JSON forms. Messages,
guilds, channels and users are known by their numbers.
-/

namespace ChatCommands

open Json

/-- A message as it came in. `replyTo` is the message that it answers, if it is a reply. -/
structure InboundMessage where
  id : Nat
  guild : Nat
  channel : Nat
  author : Nat
  content : String
  replyTo : Option Nat := none
  deriving DecidableEq, Repr

namespace InboundMessage

def ofJson? (json : Json) : Option InboundMessage := do
  let [id, guild, channel, author, content, replyTo] ← json.fields?
    ["id", "guild_id", "channel_id", "author_id", "content", "reply_to"] | none
  return {
    id := ← required? word64? id
    guild := ← required? word64? guild
    channel := ← required? word64? channel
    author := ← required? word64? author
    content := ← required? text? content
    replyTo := ← optional? none (nullable? word64?) replyTo }

def ofText? (text : String) : Option InboundMessage :=
  (Json.ofText? text).bind ofJson?

def toJson (m : InboundMessage) : Json :=
  let always := [
    ("id", ofNat m.id), ("guild_id", ofNat m.guild), ("channel_id", ofNat m.channel),
    ("author_id", ofNat m.author), ("content", ofString m.content)]
  ofMembers (always ++ m.replyTo.toList.map fun id => ("reply_to", ofNat id))

end InboundMessage

/-- How a message is presented. -/
inductive MessageKind where
  | text
  | info
  | error
  deriving DecidableEq, Repr

namespace MessageKind

def name : MessageKind → String
  | text => "text"
  | info => "info"
  | error => "error"

def ofName? : String → Option MessageKind
  | "text" => some text
  | "info" => some info
  | "error" => some error
  | _ => none

/-- A kind is written by its name, or as an object with null under its name. -/
def ofJson? : Json → Option MessageKind
  | .object [(raw, .null)] => (text? (.string raw)).bind ofName?
  | json => (text? json).bind ofName?

end MessageKind

/-- A message to be sent. -/
structure OutboundMessage where
  kind : MessageKind
  title : Option String := none
  body : String
  deriving DecidableEq, Repr

namespace OutboundMessage

def text (body : String) : OutboundMessage :=
  { kind := .text, body }

def info (title body : String) : OutboundMessage :=
  { kind := .info, title := some title, body }

def error (body : String) : OutboundMessage :=
  { kind := .error, body }

def titledError (title body : String) : OutboundMessage :=
  { kind := .error, title := some title, body }

/-- The message as plain text, with an empty line below its title. -/
def display (m : OutboundMessage) : String :=
  match m.title with
  | some title => title ++ "\n\n" ++ m.body
  | none => m.body

def ofJson? (json : Json) : Option OutboundMessage := do
  let [kind, title, body] ← json.fields? ["kind", "title", "body"] | none
  return {
    kind := ← required? MessageKind.ofJson? kind
    title := ← optional? none (nullable? text?) title
    body := ← required? text? body }

def ofText? (text : String) : Option OutboundMessage :=
  (Json.ofText? text).bind ofJson?

def toJson (m : OutboundMessage) : Json :=
  ofMembers ([("kind", ofString m.kind.name)] ++
    m.title.toList.map (fun title => ("title", ofString title)) ++ [("body", ofString m.body)])

end OutboundMessage

end ChatCommands
