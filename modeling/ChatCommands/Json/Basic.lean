/-!
# JSON documents

A JSON document as it was written: the leaves keep their text. A string keeps its escapes and a
number its digits, because what a number or an escape means is decided only where the value is
used; where it is skipped, being well formed is enough.
-/

namespace ChatCommands

/-- A JSON value. `number` holds the numeral and `string` what stands between the quotes, both as
written. Members of an object keep their order, repeated names included. -/
inductive Json where
  | null
  | bool (value : Bool)
  | number (numeral : List Char)
  | string (raw : List Char)
  | array (items : List Json)
  | object (members : List (List Char × Json))

end ChatCommands
