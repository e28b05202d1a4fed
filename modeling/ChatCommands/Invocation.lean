import ChatCommands.Text.Casing
import ChatCommands.Text.Blank

/-!
# Invocations

What makes a message a command: it starts with a sigil that the guild has configured, or with a
mention of the bot, and a key follows. `Invocation.ofText?` finds the sigil, the key and the text
of the arguments.
-/

namespace ChatCommands

open Text

/-- The two ways in which a user can be mentioned. -/
structure Mentions where
  plain : String
  nickname : String
  deriving DecidableEq, Repr

/-- The mentions of the user with the given number. -/
def Mentions.ofUser (user : Nat) : Mentions :=
  { plain := s!"<@{user}>", nickname := s!"<@!{user}>" }

/-- A command as it was typed. `sigil` is what introduced it, `key` is in lower case, and
`remainder` has no blanks at its ends. -/
structure Invocation where
  sigil : String
  key : String
  remainder : String
  deriving DecidableEq, Repr

namespace Invocation

/-- Everything that can introduce a command, in the order in which it is tried. -/
def introductions (sigils : List String) (mentions : Mentions) : List String :=
  (sigils ++ [mentions.nickname, mentions.plain]).filter (!·.isEmpty)

/-- The first introduction that the text starts with, and what follows it. -/
def introduced? (text : List Char) : List String → Option (String × List Char)
  | [] => none
  | sigil :: sigils =>
    match after? sigil.toList text with
    | some rest => some (sigil, rest)
    | none => introduced? text sigils

/-- The invocation that a text is, if it is one. Only the first introduction that fits counts,
whether or not a key follows it. -/
def ofText? (text : String) (sigils : List String) (mentions : Mentions) : Option Invocation :=
  match introduced? text.toList (introductions sigils mentions) with
  | none => none
  | some (sigil, rest) =>
    let rest := trim rest
    if rest.isEmpty then none
    else some {
      sigil
      key := String.ofList (lower (word rest))
      remainder := String.ofList (trimStart (afterWord rest)) }

end Invocation

end ChatCommands
