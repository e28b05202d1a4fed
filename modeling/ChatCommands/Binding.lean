import ChatCommands.Pattern

/-!
# Bindings

How the text after a command key is shared out among the parameters of the command: a word each,
and for a variadic parameter all that is left.
-/

namespace ChatCommands

open Text

/-- Why arguments do not fit the parameters. -/
inductive BindingError where
  | tooFewArguments
  | tooManyArguments
  deriving DecidableEq, Repr

def BindingError.message : BindingError → String
  | .tooFewArguments => "too few arguments"
  | .tooManyArguments => "too many arguments"

/-- A parameter with the text given for it. -/
structure Argument where
  parameter : Parameter
  value : String
  deriving DecidableEq, Repr

/-- The arguments of one invocation, in the order of the parameters. Parameters that were given
nothing do not appear. -/
abbrev Binding := List Argument

namespace Binding

/-- The value given for the first parameter of that name. -/
def get? (b : Binding) (name : String) : Option String :=
  (b.find? (·.parameter.name == name)).map Argument.value

/-- The value at a position. -/
def at? (b : Binding) (index : Nat) : Option String :=
  b[index]?.map Argument.value

/-- The values in order. -/
def values (b : Binding) : List String :=
  b.map Argument.value

/-! ## Binding -/

/-- Whether the arguments may end with this parameter: it is optional, or nothing required comes
after it. `rest` holds the parameters that follow. -/
def mayEnd (p : Parameter) (rest : List Parameter) : Bool :=
  p.optional || rest.head?.all Parameter.optional

/-- The arguments that a text gives to parameters. `satisfied` tells whether the arguments might
have ended before, and `mayBeEmpty` whether they may end although they never might have.

The last word of the text is refused while a required parameter is still to come. A text that
ends in blanks after such a word is judged by `mayBeEmpty` instead. -/
def bindFrom (mayBeEmpty satisfied : Bool) (parameters : List Parameter) (text : List Char) :
    Except BindingError Binding :=
  let text := trimStart text
  match parameters with
  | [] =>
    if !text.isEmpty then .error .tooManyArguments
    else if satisfied || mayBeEmpty then .ok []
    else .error .tooFewArguments
  | p :: rest =>
    if text.isEmpty then
      if satisfied || mayBeEmpty then .ok [] else .error .tooFewArguments
    else
      let satisfied := satisfied || mayEnd p rest
      if p.variadic then
        if satisfied || mayBeEmpty then .ok [⟨p, String.ofList (trimEnd text)⟩]
        else .error .tooFewArguments
      else if (afterWord text).isEmpty then
        if satisfied then .ok [⟨p, String.ofList text⟩] else .error .tooFewArguments
      else match bindFrom mayBeEmpty satisfied rest (afterWord text) with
        | .error e => .error e
        | .ok arguments => .ok (⟨p, String.ofList (word text)⟩ :: arguments)

/-- The arguments that a text gives to parameters. They may be missing altogether if the first
parameter is not required, or if something else stands in for it (`implicitFirst`). -/
def ofText (parameters : List Parameter) (text : String) (implicitFirst : Bool) :
    Except BindingError Binding :=
  bindFrom (implicitFirst || parameters.head?.all Parameter.optional) false parameters text.toList

end Binding

/-- Whether the text after a key asks for help about the command. -/
def isHelpRequest (remainder : String) : Bool :=
  let cs := trim remainder.toList
  eqIgnoringAsciiCase cs ['h', 'e', 'l', 'p'] || cs == ['?']

end ChatCommands
