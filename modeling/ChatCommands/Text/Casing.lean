import ChatCommands.Text.Casing.Table

/-!
# Lower case

The full lower case of a text. It is the simple lower case of each character, with two
exceptions: a dotted capital I becomes an i and a combining dot, and a capital sigma at the end
of a word becomes the final form of the letter.
-/

namespace ChatCommands.Text.Casing

/-- The simple lower case of a code point, from runs in increasing order. -/
def lowerCode (n : Nat) : List CapitalRun → Nat
  | [] => n
  | run :: runs =>
    if n < run.first then n
    else if n ≤ run.last then
      if (n - run.first) % run.step = 0 then run.target + (n - run.first) else n
    else lowerCode n runs

/-- Whether a code point lies in one of the runs, which are in increasing order. -/
def inRuns (n : Nat) : List CodeRun → Bool
  | [] => false
  | run :: runs => if n < run.first then false else n ≤ run.last || inRuns n runs

/-- Whether a character is a letter of either case. -/
def isCased (c : Char) : Bool :=
  inRuns c.toNat cased

/-- Whether a character is passed over in the search for a cased neighbour. -/
def isCaseIgnorable (c : Char) : Bool :=
  inRuns c.toNat caseIgnorable

end ChatCommands.Text.Casing

namespace ChatCommands.Text

open Casing

/-- The lower case of a character on its own. -/
def lowerChar (c : Char) : List Char :=
  if c = 'İ' then ['i', '\u0307'] else [Char.ofNat (lowerCode c.toNat capitals)]

/-- Whether the nearest character is a cased letter, case-ignorable characters passed over. -/
def meetsCased (cs : List Char) : Bool :=
  match cs.dropWhile isCaseIgnorable with
  | [] => false
  | c :: _ => isCased c

/-- The lower case of a text, given the characters before it, nearest first. A capital sigma is
final when a cased letter comes before it and none comes after. -/
def lowerAfter (before : List Char) : List Char → List Char
  | [] => []
  | c :: rest =>
    let lowered :=
      if c = 'Σ' then
        if meetsCased before && !meetsCased rest then ['ς'] else ['σ']
      else lowerChar c
    lowered ++ lowerAfter (c :: before) rest

/-- The lower case of a text. -/
def lower (cs : List Char) : List Char :=
  lowerAfter [] cs

end ChatCommands.Text
