import ChatCommands.Json.Escape

/-!
# JSON tokens

The first half of reading a document: from characters to tokens. `Token.lex` goes over the text
once, character by character, and remembers only the token it is inside of. It refuses a text with
a character, word, numeral or escape that JSON does not have, and says nothing about the order of
the tokens.
-/

namespace ChatCommands.Json

/-- A token. `atom` is a literal name or a numeral, `text` what stands between two quotes. -/
inductive Token where
  | beginArray
  | endArray
  | beginObject
  | endObject
  | colon
  | comma
  | atom (value : Json)
  | text (raw : List Char)

/-! ## Numerals -/

/-- An exponent, or nothing. -/
def isExponent : List Char → Bool
  | [] => true
  | c :: cs =>
    let digits := match cs with
      | '+' :: rest => rest
      | '-' :: rest => rest
      | _ => cs
    (c == 'e' || c == 'E') && !digits.isEmpty && digits.all Char.isDigit

/-- A fraction and an exponent, each of which may be absent. -/
def isFraction : List Char → Bool
  | '.' :: d :: cs => d.isDigit && isExponent (cs.dropWhile Char.isDigit)
  | cs => isExponent cs

/-- A numeral without its sign: a leading zero stands alone. -/
def isMagnitude : List Char → Bool
  | [] => false
  | '0' :: cs => isFraction cs
  | d :: cs => d.isDigit && isFraction (cs.dropWhile Char.isDigit)

/-- A JSON numeral. -/
def isNumeral : List Char → Bool
  | '-' :: cs => isMagnitude cs
  | cs => isMagnitude cs

namespace Token

/-- The literal name or numeral that a word is, if it is one. -/
def ofWord? (word : List Char) : Option Token :=
  if word = ['n', 'u', 'l', 'l'] then some (.atom .null)
  else if word = ['t', 'r', 'u', 'e'] then some (.atom (.bool true))
  else if word = ['f', 'a', 'l', 's', 'e'] then some (.atom (.bool false))
  else if isNumeral word then some (.atom (.number word))
  else none

/-! ## Scanning -/

/-- The four blanks of JSON. -/
def isGap (c : Char) : Bool :=
  c == ' ' || c == '\t' || c == '\n' || c == '\r'

/-- The token that a mark is by itself. -/
def ofMark? : Char → Option Token
  | '[' => some .beginArray
  | ']' => some .endArray
  | '\x7b' => some .beginObject
  | '\x7d' => some .endObject
  | ':' => some .colon
  | ',' => some .comma
  | _ => none

/-- Whether a character can be part of a word. -/
def isWordChar (c : Char) : Bool :=
  !isGap c && (ofMark? c).isNone && c != '"'

/-- Where a scan stands: between tokens, in a word, or in a string, where an escape or some of its
hexadecimal digits may be due. What was read of the token is kept in reverse. -/
inductive Place where
  | between
  | inWord (read : List Char)
  | inText (read : List Char)
  | inEscape (read : List Char)
  | inHex (due : Nat) (read : List Char)

/-- What a character outside of words and strings does: the tokens it is, and where the scan
stands after it. -/
def start (c : Char) : List Token × Place :=
  if isGap c then ([], .between)
  else if c = '"' then ([], .inText [])
  else match ofMark? c with
    | some mark => ([mark], .between)
    | none => ([], .inWord [c])

/-- The tokens of a text, from a place on. A string may hold no control character, and after a
backslash only a letter that has a meaning there, or `u` and four hexadecimal digits. -/
def scan : Place → List Char → Option (List Token)
  | .between, [] => some []
  | .between, c :: cs => (scan (start c).2 cs).map ((start c).1 ++ ·)
  | .inWord read, [] => (ofWord? read.reverse).map ([·])
  | .inWord read, c :: cs =>
    if isWordChar c then scan (.inWord (c :: read)) cs
    else (ofWord? read.reverse).bind fun word =>
      (scan (start c).2 cs).map fun tokens => word :: ((start c).1 ++ tokens)
  | .inText read, c :: cs =>
    if c = '"' then (scan .between cs).map (.text read.reverse :: ·)
    else if c = '\\' then scan (.inEscape (c :: read)) cs
    else if c.toNat < 0x20 then none
    else scan (.inText (c :: read)) cs
  | .inEscape read, c :: cs =>
    if c = 'u' then scan (.inHex 3 (c :: read)) cs
    else if (escaped? c).isSome then scan (.inText (c :: read)) cs
    else none
  | .inHex due read, c :: cs =>
    if (hexValue? c).isNone then none
    else match due with
      | 0 => scan (.inText (c :: read)) cs
      | due + 1 => scan (.inHex due (c :: read)) cs
  | _, [] => none

/-- The tokens of a text, or nothing if it is not made of JSON tokens. -/
def lex (cs : List Char) : Option (List Token) :=
  scan .between cs

end Token

end ChatCommands.Json
