import ChatCommands.Json.Escape
import ChatCommands.Text.Numeral

/-!
# Reading values of known shape

How documents are turned into values of the library. Each reader takes a document of exactly one
shape and refuses all others. A record is an object with known fields, or an array of its fields in
order; fields that are not known are passed over, and no field may be given twice.
-/

namespace ChatCommands.Json

/-- The text of a string. -/
def text? : Json → Option String
  | .string raw => (decode? raw).map String.ofList
  | _ => none

def bool? : Json → Option Bool
  | .bool value => some value
  | _ => none

/-- A natural number of at most 64 bits, written without sign, fraction and exponent. -/
def word64? : Json → Option Nat
  | .number numeral => Text.ofDigits? Text.maxWord64 numeral
  | _ => none

/-- The items of an array, each read by `read`. -/
def list? {α : Type} (read : Json → Option α) : Json → Option (List α)
  | .array items => items.mapM read
  | _ => none

/-- A value that may be null. -/
def nullable? {α : Type} (read : Json → Option α) : Json → Option (Option α)
  | .null => some none
  | json => (read json).map some

/-- The members of an object with their names decoded. -/
def members? : Json → Option (List (String × Json))
  | .object members => members.mapM fun (raw, value) =>
    (decode? raw).map fun name => (String.ofList name, value)
  | _ => none

/-! ## Records -/

/-- The one value that the members give a field, if any. A field given twice makes the whole
record unreadable. -/
def field? (members : List (String × Json)) (name : String) : Option (Option Json) :=
  match members.filter (·.1 == name) with
  | [] => some none
  | [(_, value)] => some (some value)
  | _ => none

/-- The values of a record's fields, in the order of `names`. An array may leave out fields at its
end, and cannot have more items than there are fields. -/
def fields? (names : List String) : Json → Option (List (Option Json))
  | .array items =>
    if items.length ≤ names.length then
      some (items.map some ++ List.replicate (names.length - items.length) none)
    else none
  | json => do names.mapM (field? (← members? json))

/-- A field that has to be there. -/
def required? {α : Type} (read : Json → Option α) (field : Option Json) : Option α :=
  field.bind read

/-- A field that has a value of its own when it is absent. -/
def optional? {α : Type} (absent : α) (read : Json → Option α) : Option Json → Option α
  | none => some absent
  | some json => read json

end ChatCommands.Json
