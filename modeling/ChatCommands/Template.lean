/-!
# Templates

Text with numbered places such as `{0}`, and how the places are filled. The text is read
once from left to right; an argument is copied as it is and never read again. A place without an
argument of its number is left as written.
-/

namespace ChatCommands.Template

/-- The number that a run of digits, given in reverse, denotes. -/
def placeNumber : List Char → Nat
  | [] => 0
  | d :: ds => placeNumber ds * 10 + (d.toNat - '0'.toNat)

/-- The text with its places filled. `place` holds, in reverse, the digits read since an opening
brace that may begin a place; if it turns out not to, brace and digits are copied. -/
def fillFrom (args : List (List Char)) : (place : Option (List Char)) → List Char → List Char
  | none, [] => []
  | none, c :: cs => if c = '\x7b' then fillFrom args (some []) cs else c :: fillFrom args none cs
  | some digits, [] => '\x7b' :: digits.reverse
  | some digits, c :: cs =>
    if c.isDigit then fillFrom args (some (c :: digits)) cs
    else
      let asWritten := '\x7b' :: digits.reverse
      if c = '\x7b' then asWritten ++ fillFrom args (some []) cs
      else if c = '\x7d' && !digits.isEmpty then
        match args[placeNumber digits]? with
        | some arg => arg ++ fillFrom args none cs
        | none => asWritten ++ c :: fillFrom args none cs
      else asWritten ++ c :: fillFrom args none cs

/-- The template with its places filled by the arguments, counted from zero. -/
def fill (template : String) (args : List String) : String :=
  String.ofList (fillFrom (args.map String.toList) none template.toList)

end ChatCommands.Template
