/-!
# Blanks, trims and words

The white space that separates words of chat text, and the few ways in which text is cut at it.
Texts are taken apart as lists of characters; `String` appears only in the types of the domain.

Two sets of blanks are in use. `isBlank` is the Unicode White_Space property, which every rule
about chat text goes by. `isAsciiBlank` is the five ASCII blanks that may stand between the
parameters of a pattern.
-/

namespace ChatCommands.Text

/-- White space, as the Unicode property White_Space has it: 25 code points. -/
def isBlank (c : Char) : Bool :=
  let n := c.toNat
  (9 ≤ n && n ≤ 13) || n == 0x20 || n == 0x85 || n == 0xA0 || n == 0x1680 ||
    (0x2000 ≤ n && n ≤ 0x200A) || n == 0x2028 || n == 0x2029 || n == 0x202F || n == 0x205F ||
    n == 0x3000

/-- Space, tab, line feed, form feed and carriage return. -/
def isAsciiBlank (c : Char) : Bool :=
  c == ' ' || c == '\t' || c == '\n' || c == '\x0c' || c == '\r'

/-! ## Trims -/

/-- The text without its leading blanks. -/
def trimStart (cs : List Char) : List Char :=
  cs.dropWhile isBlank

/-- The text without its trailing blanks. -/
def trimEnd (cs : List Char) : List Char :=
  (cs.reverse.dropWhile isBlank).reverse

/-- The text without the blanks at either end. -/
def trim (cs : List Char) : List Char :=
  trimEnd (trimStart cs)

/-- Whether nothing but blanks is there. -/
def isBlankText (cs : List Char) : Bool :=
  cs.all isBlank

/-! ## Words -/

/-- The text up to its first blank. -/
def word (cs : List Char) : List Char :=
  cs.takeWhile fun c => !isBlank c

/-- The text from its first blank on. -/
def afterWord (cs : List Char) : List Char :=
  cs.dropWhile fun c => !isBlank c

theorem word_append_afterWord (cs : List Char) : word cs ++ afterWord cs = cs :=
  List.takeWhile_append_dropWhile

/-! ## Beginnings -/

/-- What follows `lead` in the text, if the text starts with it. -/
def after? : List Char → List Char → Option (List Char)
  | [], text => some text
  | _ :: _, [] => none
  | c :: lead, d :: text => if c = d then after? lead text else none

theorem after?_eq_some_iff {lead text rest : List Char} :
    after? lead text = some rest ↔ text = lead ++ rest := by
  induction lead generalizing text with
  | nil => simp [after?]
  | cons c lead ih =>
    cases text with
    | nil => simp [after?]
    | cons d text =>
      by_cases h : c = d
      · subst h
        simp [after?, ih]
      · simp [after?, h, Ne.symm h]

/-- Equality of texts when the case of ASCII letters does not count. -/
def eqIgnoringAsciiCase (a b : List Char) : Bool :=
  a.map Char.toLower == b.map Char.toLower

end ChatCommands.Text
