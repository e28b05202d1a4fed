import ChatCommands.Declaration
import ChatCommands.Pattern
import ChatCommands.Text.Casing

/-!
# Commands

A declaration that has been checked. Keys are in lower case, the pattern has become a list of
parameters, and the permissions are a set, kept in increasing order.
-/

namespace ChatCommands

open Text

/-- Why a declaration makes no command. -/
inductive CommandError where
  /-- A key or alias is empty or has a blank in it. -/
  | invalidKey (key : String)
  | invalidPattern (error : PatternError)
  deriving DecidableEq, Repr

def CommandError.message : CommandError → String
  | .invalidKey key => s!"invalid command key '{key}'"
  | .invalidPattern error => error.message

namespace Capability

/-- A capability added to a set in increasing order. -/
def insert (c : Capability) : List Capability → List Capability
  | [] => [c]
  | d :: ds => if c < d then c :: d :: ds else if c = d then d :: ds else d :: insert c ds

/-- The capabilities of a list as a set: in increasing order, each once. -/
def setOf (cs : List Capability) : List Capability :=
  cs.foldr insert []

end Capability

/-- A command that can be invoked. `paramText` is the declared pattern without the blanks around
it, which is also the key of a template for showing it. -/
structure Command where
  key : String
  aliases : List String
  paramText : String
  parameters : List Parameter
  description : String
  capabilities : List Capability
  deriving DecidableEq, Repr

namespace Command

/-- The key that a declared one stands for: its lower case. -/
def foldKey (raw : String) : Except CommandError String :=
  if raw.toList.isEmpty || raw.toList.any isBlank then .error (.invalidKey raw)
  else .ok (String.ofList (lower raw.toList))

/-- The keys that declared ones stand for, or the first that is not a key. -/
def foldKeys : List String → Except CommandError (List String)
  | [] => .ok []
  | raw :: rest => do return (← foldKey raw) :: (← foldKeys rest)

/-- The command that a declaration makes. The key is checked first, then the aliases, then the
pattern. -/
def ofDeclaration (d : Declaration) : Except CommandError Command := do
  let key ← foldKey d.key
  let aliases ← foldKeys d.aliases
  let parameters ← (Pattern.compile d.params).mapError .invalidPattern
  return {
    key, aliases, parameters
    paramText := String.ofList (trim d.params.toList)
    description := d.description
    capabilities := Capability.setOf d.permissions }

/-- The commands that declarations make, or the error of the first that makes none. -/
def ofDeclarations : List Declaration → Except CommandError (List Command)
  | [] => .ok []
  | d :: ds => do return (← ofDeclaration d) :: (← ofDeclarations ds)

/-- Every name of the command, the key first. -/
def keys (c : Command) : List String :=
  c.key :: c.aliases

/-- The pattern of the command, written from its parameters. -/
def usagePattern (c : Command) : String :=
  Pattern.render c.parameters

end Command

end ChatCommands
