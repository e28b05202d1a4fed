import ChatCommands.Json.Token

/-!
# From tokens to a document

The second half of reading. `Json.build` takes the tokens one at a time and keeps the open arrays
and objects on a stack, innermost first, so that nesting of any depth is read. The grammar is that
of RFC 8259: no comma after the last item, names are strings, and one value makes the document.
-/

namespace ChatCommands.Json

/-- An open array with its items, or an open object with its members and the name whose value is
being read. What is complete is kept in reverse. -/
inductive Frame where
  | array (items : List Json)
  | object (members : List (List Char × Json)) (name : List Char)

/-- What the next token has to be: the start of a value, the name of a member, the colon after a
name, or something that may follow a complete value. -/
inductive Due where
  | value
  | name (members : List (List Char × Json))
  | colon (members : List (List Char × Json)) (name : List Char)
  | after (value : Json)

/-- The document that the tokens complete, if they do. An array or object can be closed before its
first item, and otherwise only after a complete value. -/
def build : Due → List Frame → List Token → Option Json
  | .value, frames, .atom value :: tokens => build (.after value) frames tokens
  | .value, frames, .text raw :: tokens => build (.after (.string raw)) frames tokens
  | .value, frames, .beginArray :: tokens => build .value (.array [] :: frames) tokens
  | .value, frames, .beginObject :: tokens => build (.name []) frames tokens
  | .value, .array [] :: frames, .endArray :: tokens => build (.after (.array [])) frames tokens
  | .name members, frames, .text raw :: tokens => build (.colon members raw) frames tokens
  | .name [], frames, .endObject :: tokens => build (.after (.object [])) frames tokens
  | .colon members name, frames, .colon :: tokens =>
    build .value (.object members name :: frames) tokens
  | .after value, .array items :: frames, .comma :: tokens =>
    build .value (.array (value :: items) :: frames) tokens
  | .after value, .array items :: frames, .endArray :: tokens =>
    build (.after (.array (value :: items).reverse)) frames tokens
  | .after value, .object members name :: frames, .comma :: tokens =>
    build (.name ((name, value) :: members)) frames tokens
  | .after value, .object members name :: frames, .endObject :: tokens =>
    build (.after (.object ((name, value) :: members).reverse)) frames tokens
  | .after value, [], [] => some value
  | _, _, _ => none

/-- The document that a text is, if it is one. -/
def ofText? (text : String) : Option Json :=
  (Token.lex text.toList).bind (build .value [])

end ChatCommands.Json
