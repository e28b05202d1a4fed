import ChatCommands.Dictionary
import ChatCommands.Json.Escape

/-!
# Writing documents

Documents built from values of the library, and the text of a document. Objects list their members
in increasing order of their names. Nothing is put between the tokens, so a document is a single
line.
-/

namespace ChatCommands.Json

/-- A text as a JSON string. -/
def ofString (s : String) : Json :=
  .string (encode s.toList)

/-- A natural number as a JSON number. -/
def ofNat (n : Nat) : Json :=
  .number (toString n).toList

/-- A list of texts as an array of strings. -/
def ofStrings (ss : List String) : Json :=
  .array (ss.map ofString)

/-- An object with the given members, in increasing order of their names. Of several members with
one name the last one counts. -/
def ofMembers (members : List (String × Json)) : Json :=
  .object ((Dictionary.ofList members).entries.map fun (name, value) =>
    (encode name.toList, value))

/-- A string in its quotes. -/
def quoted (raw : List Char) : List Char :=
  '"' :: (raw ++ ['"'])

mutual

/-- The text of a document. -/
def print : Json → List Char
  | .null => ['n', 'u', 'l', 'l']
  | .bool true => ['t', 'r', 'u', 'e']
  | .bool false => ['f', 'a', 'l', 's', 'e']
  | .number numeral => numeral
  | .string raw => quoted raw
  | .array items => '[' :: (printItems items ++ [']'])
  | .object members => '\x7b' :: (printMembers members ++ ['\x7d'])

/-- The items of an array with commas between them. -/
def printItems : List Json → List Char
  | [] => []
  | [item] => print item
  | item :: items => print item ++ ',' :: printItems items

/-- The members of an object with commas between them. -/
def printMembers : List (List Char × Json) → List Char
  | [] => []
  | [(name, value)] => quoted name ++ ':' :: print value
  | (name, value) :: members => quoted name ++ ':' :: (print value ++ ',' :: printMembers members)

end

/-- The text of a document. -/
def toText (json : Json) : String :=
  String.ofList (print json)

end ChatCommands.Json
