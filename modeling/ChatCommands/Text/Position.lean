/-!
# Positions in a text

Lines and columns, both counted from one. A line ends at any of the line ends that Unicode names;
a carriage return and a line feed together are one. The end of a text belongs to its last line,
even right after a line end.
-/

namespace ChatCommands.Text

structure Position where
  line : Nat
  column : Nat
  deriving DecidableEq, Repr

/-- Whether a character ends a line, given the text after it. -/
def endsLine (c : Char) (rest : List Char) : Bool :=
  (c == '\r' && rest.head? != some '\n') ||
    ['\n', '\x0b', '\x0c', '\u0085', '\u2028', '\u2029'].contains c

/-- The position of the character that comes after `offset` others, from a known position on. -/
def positionFrom (here : Position) : (offset : Nat) → List Char → Position
  | 0, _ => here
  | _, [] => here
  | offset + 1, c :: rest =>
    let next : Position :=
      if endsLine c rest && !rest.isEmpty then { line := here.line + 1, column := 1 }
      else { here with column := here.column + 1 }
    positionFrom next offset rest

/-- The position of the character that comes after `offset` others. -/
def positionAt (cs : List Char) (offset : Nat) : Position :=
  positionFrom { line := 1, column := 1 } offset cs

end ChatCommands.Text
