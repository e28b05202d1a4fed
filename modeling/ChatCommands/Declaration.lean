import ChatCommands.Json.Reader
import ChatCommands.Json.Record

/-!
# Declarations

A command as its author declares it, and the JSON form that declarations are stored in. Nothing is
checked here beyond the shape of the document.
-/

namespace ChatCommands

/-- The name of a permission that a bot can hold in a channel. -/
abbrev Capability := String

/-- A command as declared. `description` is the key of a template. -/
structure Declaration where
  key : String
  aliases : List String := []
  params : String := ""
  description : String := ""
  permissions : List Capability := []
  deriving DecidableEq, Repr

namespace Declaration

open Json

/-- A declaration as a record of five fields, of which only the key has to be there. -/
def ofJson? (json : Json) : Option Declaration := do
  let [key, aliases, params, description, permissions] ←
    json.fields? ["key", "aliases", "params", "description", "permissions"] | none
  return {
    key := ← required? text? key
    aliases := ← optional? [] (list? text?) aliases
    params := ← optional? "" text? params
    description := ← optional? "" text? description
    permissions := ← optional? [] (list? text?) permissions }

/-- The declarations in a JSON array. -/
def listOfText? (text : String) : Option (List Declaration) :=
  (Json.ofText? text).bind (list? ofJson?)

end Declaration

end ChatCommands
