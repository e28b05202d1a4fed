import ChatCommands.Check.Literal
import ChatCommands.Text.Position

/-!
# Finding an error in its file

Where in the text of a declarations file an error is to be shown. The text is searched as it is,
without reading it as JSON: for the first occurrence of a token or key, or for the string that
declares a key a second time.

Spans count bytes. `Span.position?` shows one to people, and takes its start as a number of
characters.
-/

namespace ChatCommands

open Text

/-- The position that a span is shown at. There is none if the span lies beyond the end of the
text, its bounds being taken as numbers of characters. -/
def Span.position? (span : Span) (source : List Char) : Option Position :=
  if span.start ≤ source.length ∧ span.stop - 1 ≤ source.length then
    some (positionAt source span.start)
  else none

/-- The first occurrence of a text, which lies `offset` bytes or more from the beginning. -/
def occurrence? (needle : List Char) (offset : Nat) : List Char → Option Span
  | [] => if needle.isEmpty then some ⟨offset, offset⟩ else none
  | c :: cs =>
    if (after? needle (c :: cs)).isSome then some ⟨offset, offset + byteLength needle⟩
    else occurrence? needle (offset + c.utf8Size) cs

/-! ## Redeclared keys -/

namespace Literal

/-- The literals that declare keys: those that follow the name of a `key` or `aliases` property,
up to the next name. -/
def declaring (isKey : Bool) : List Literal → List Literal
  | [] => []
  | l :: ls =>
    if l.isName then
      declaring (l.contents = "key".toList || l.contents = "aliases".toList) ls
    else if isKey then l :: declaring isKey ls
    else declaring isKey ls

end Literal

/-- The literal that declares a key for the second time. The case of ASCII letters does not
count. -/
def redeclaration? (source key : String) : Option Literal :=
  ((Literal.declaring false (Literal.all source.toList)).filter fun l =>
    eqIgnoringAsciiCase l.contents key.toList)[1]?

end ChatCommands
