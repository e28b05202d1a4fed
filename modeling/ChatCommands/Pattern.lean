import ChatCommands.Text.Blank

/-!
# Parameter patterns

The parameters of a command and the pattern that declares them, such as
`<user> [reason...]`: angle brackets for a required parameter, square brackets for an optional
one, and three dots after the name of one that takes the rest of the text.

A pattern is cut into tokens by `Pattern.split`, and `Pattern.compile` turns the tokens into
parameters or names the first token that breaks a rule. `Pattern.render` writes parameters as a
pattern again.
-/

namespace ChatCommands

/-- A parameter of a command. A variadic one takes all the text that is left. -/
structure Parameter where
  name : String
  optional : Bool
  variadic : Bool
  deriving DecidableEq, Repr

namespace Parameter

/-- A parameter that needs a value. -/
def mandatory (name : String) : Parameter :=
  { name, optional := false, variadic := false }

/-- A parameter that may go without a value. -/
def omissible (name : String) : Parameter :=
  { name, optional := true, variadic := false }

/-- The same parameter, taking the rest of the text. -/
def collecting (p : Parameter) : Parameter :=
  { p with variadic := true }

end Parameter

/-- Why a pattern declares no parameters. Each cause names the token at fault. -/
inductive PatternError where
  /-- The token is not a bracketed name. -/
  | malformed (token : String)
  /-- A required parameter stands after an optional one. -/
  | requiredAfterOptional (token : String)
  /-- A variadic parameter is not the last. -/
  | variadicNotLast (token : String)
  deriving DecidableEq, Repr

namespace PatternError

def token : PatternError → String
  | malformed token => token
  | requiredAfterOptional token => token
  | variadicNotLast token => token

def message : PatternError → String
  | malformed token => s!"malformed parameter '{token}'"
  | requiredAfterOptional token =>
    s!"invalid parameter grammar at '{token}': required parameter after an optional parameter"
  | variadicNotLast token =>
    s!"invalid parameter grammar at '{token}': variadic parameter must be the last parameter"

end PatternError

namespace Pattern

open Text

/-! ## Tokens -/

/-- Whether a token can end here; the token is given in reverse. -/
def closes : List Char → Bool
  | c :: _ => c == ']' || c == '>'
  | [] => false

/-- Whether a token can start with this character. -/
def opens (c : Char) : Bool :=
  c == '[' || c == '<'

/-- The tokens of a pattern, given the token that is being read and the blanks after it, both in
reverse. Blanks cut only between a closing and an opening bracket; elsewhere they belong to the
token. -/
def splitFrom (token gap : List Char) : List Char → List (List Char)
  | [] => [(gap ++ token).reverse]
  | c :: cs =>
    if isAsciiBlank c then splitFrom token (c :: gap) cs
    else if !gap.isEmpty && closes token && opens c then token.reverse :: splitFrom [c] [] cs
    else splitFrom (c :: (gap ++ token)) [] cs

/-- The tokens of a pattern; a blank pattern has none. -/
def tokens (pattern : List Char) : List (List Char) :=
  match trim pattern with
  | [] => []
  | cs => splitFrom [] [] cs

/-- The tokens of a pattern. -/
def split (pattern : String) : List String :=
  (tokens pattern.toList).map String.ofList

/-! ## Compilation -/

/-- What marks a variadic parameter, after its name. -/
def marker : List Char := ['.', '.', '.']

/-- The brackets of a token and what they enclose, which is not empty. `true` stands for the
square brackets of an optional parameter. -/
def unwrap? : List Char → Option (Bool × List Char)
  | [] => none
  | c :: cs =>
    if cs.length < 2 then none
    else if c = '<' ∧ cs.getLast? = some '>' then some (false, cs.dropLast)
    else if c = '[' ∧ cs.getLast? = some ']' then some (true, cs.dropLast)
    else none

/-- A name without the variadic marker at its end, if it has one. -/
def unmark? (name : List Char) : Option (List Char) :=
  (after? marker.reverse name.reverse).map List.reverse

/-- The parameters that tokens declare. `optionalSeen` tells whether an optional parameter came
before them. -/
def compileTokens (optionalSeen : Bool) : List (List Char) → Except PatternError (List Parameter)
  | [] => .ok []
  | token :: rest =>
    match unwrap? token with
    | none => .error (.malformed (String.ofList token))
    | some (optional, inner) =>
      let name := (unmark? inner).getD inner
      let variadic := (unmark? inner).isSome
      if !optional && optionalSeen then .error (.requiredAfterOptional (String.ofList token))
      else if variadic && !rest.isEmpty then .error (.variadicNotLast (String.ofList token))
      else if isBlankText name then .error (.malformed (String.ofList token))
      else match compileTokens (optionalSeen || optional) rest with
        | .error e => .error e
        | .ok parameters => .ok ({ name := String.ofList name, optional, variadic } :: parameters)

/-- The parameters that a pattern declares. Required ones come first, and only the last can be
variadic. -/
def compile (pattern : String) : Except PatternError (List Parameter) :=
  compileTokens false (tokens pattern.toList)

/-! ## Rendering -/

/-- The token that declares a parameter. -/
def tokenOf (p : Parameter) : List Char :=
  let name := p.name.toList ++ if p.variadic then marker else []
  if p.optional then '[' :: (name ++ [']']) else '<' :: (name ++ ['>'])

/-- The pattern that declares parameters, with one space between tokens. -/
def render (parameters : List Parameter) : String :=
  String.ofList (List.intercalate [' '] (parameters.map tokenOf))

end Pattern

end ChatCommands
