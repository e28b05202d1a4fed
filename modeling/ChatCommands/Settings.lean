import ChatCommands.Catalog

/-!
# Settings

What can be configured: for each guild the sigils that introduce a command and the locale of the
answers, and for the whole bot when to suggest a command, how long an edit can repair one, and
what a reply stands for. Settings are read from JSON, in which every field has a default, and are
then checked by `Settings.violation?`.
-/

namespace ChatCommands

/-- The settings of one guild. Sigils are tried in order, and the first one is shown to users. -/
structure GuildSettings where
  sigils : List String := ["!"]
  locale : String := defaultLocale
  deriving DecidableEq, Repr

/-- The sigil that is shown to users. -/
def GuildSettings.primarySigil (g : GuildSettings) : String :=
  g.sigils.headD "!"

/-- The settings of a bot. -/
structure Settings where
  /-- Settings of the guilds that have none of their own. -/
  defaults : GuildSettings := {}
  /-- A command is suggested if it is nearer than this. -/
  maxDistance : Nat := 3
  /-- For how many seconds a faulty command can be repaired by an edit, if there is a limit. -/
  editLifetime : Option Nat := some 600
  /-- Whether a reply stands for the first argument. -/
  replyIsFirstArgument : Bool := true
  /-- Settings of single guilds, by guild number. -/
  guilds : Dictionary Nat GuildSettings := .empty
  deriving DecidableEq, Repr

/-- The settings that hold in a guild. -/
def Settings.guild (s : Settings) (guild : Nat) : GuildSettings :=
  (s.guilds.get? guild).getD s.defaults

/-! ## Reading -/

open Json

def GuildSettings.ofJson? (json : Json) : Option GuildSettings := do
  let [sigils, locale] ← json.fields? ["prefixes", "locale"] | none
  return {
    sigils := ← optional? ["!"] (list? text?) sigils
    locale := ← optional? defaultLocale text? locale }

namespace Settings

/-- A record of a single field. -/
def single? {α : Type} (name : String) (absent : α) (read : Json → Option α) (json : Json) :
    Option α := do
  let [field] ← json.fields? [name] | none
  optional? absent read field

/-- The guild number that a member is named by: the digits of a number, as JSON writes it. -/
def guildNumber? (raw : List Char) : Option Nat :=
  if isNumeral raw then Text.ofDigits? Text.maxWord64 raw else none

/-- Settings by guild number; of a repeated number the last counts. -/
def guilds? : Json → Option (Dictionary Nat GuildSettings)
  | .object members => do
    let guilds ← members.mapM fun (raw, value) => do
      return (← guildNumber? raw, ← GuildSettings.ofJson? value)
    return .ofList guilds
  | _ => none

def ofJson? (json : Json) : Option Settings := do
  let [defaults, suggestion, editRetry, replyIsFirst, guilds] ← json.fields?
    ["defaults", "suggestion", "edit_retry", "reply_satisfies_first_argument", "guilds"] | none
  return {
    defaults := ← optional? {} GuildSettings.ofJson? defaults
    maxDistance := ← optional? 3 (single? "max_distance" 3 word64?) suggestion
    editLifetime :=
      ← optional? (some 600) (single? "ttl_secs" (some 600) (nullable? word64?)) editRetry
    replyIsFirstArgument := ← optional? true bool? replyIsFirst
    guilds := ← optional? .empty guilds? guilds }

/-- The settings in a JSON text, not yet checked. -/
def ofText? (text : String) : Option Settings :=
  (Json.ofText? text).bind ofJson?

end Settings

/-! ## Checking -/

/-- A part of the settings that holds settings of a guild. -/
inductive SettingsBlock where
  | defaults
  | guild (id : Nat)
  deriving DecidableEq, Repr

def SettingsBlock.path : SettingsBlock → String
  | .defaults => "defaults"
  | .guild id => s!"guilds.{id}"

/-- What can be wrong with settings. -/
inductive Violation where
  | noSigils (block : SettingsBlock)
  | blankSigil (block : SettingsBlock) (index : Nat)
  /-- A sigil that starts with a blank. -/
  | indentedSigil (block : SettingsBlock) (index : Nat)
  | blankLocale (block : SettingsBlock)
  | zeroDistance
  deriving DecidableEq, Repr

namespace Violation

/-- The path of the field at fault. -/
def field : Violation → String
  | noSigils block => s!"{block.path}.prefixes"
  | blankSigil block index => s!"{block.path}.prefixes[{index}]"
  | indentedSigil block index => s!"{block.path}.prefixes[{index}]"
  | blankLocale block => s!"{block.path}.locale"
  | zeroDistance => "suggestion.max_distance"

def reason : Violation → String
  | noSigils _ => "must not be empty"
  | blankSigil .. => "must not be blank"
  | indentedSigil .. => "must not start with whitespace"
  | blankLocale _ => "must not be blank"
  | zeroDistance => "must be at least 1 (0 would never suggest anything)"

def message (v : Violation) : String :=
  s!"invalid {v.field}: {v.reason}"

end Violation

/-- What is wrong with one sigil. -/
def sigilViolation? (block : SettingsBlock) (sigil : String) (index : Nat) : Option Violation :=
  if Text.isBlankText sigil.toList then some (.blankSigil block index)
  else if sigil.toList.head?.any Text.isBlank then some (.indentedSigil block index)
  else none

/-- The first thing that is wrong with the settings of a guild. -/
def GuildSettings.violation? (g : GuildSettings) (block : SettingsBlock) : Option Violation :=
  if g.sigils.isEmpty then some (.noSigils block)
  else (g.sigils.zipIdx.findSome? fun (sigil, index) => sigilViolation? block sigil index).or
    (if Text.isBlankText g.locale.toList then some (.blankLocale block) else none)

/-- The first thing that is wrong with settings: the defaults come first, then the guilds by
number, then the distance. -/
def Settings.violation? (s : Settings) : Option Violation :=
  ((s.defaults.violation? .defaults).or
    (s.guilds.entries.findSome? fun (id, g) => g.violation? (.guild id))).or
    (if s.maxDistance = 0 then some .zeroDistance else none)

/-- Why settings are not loaded. -/
inductive SettingsError where
  | malformed
  | invalid (violation : Violation)
  deriving DecidableEq, Repr

/-- The text of an error. For malformed settings it is a fixed one, in place of what a reader of
JSON would say about them. -/
def SettingsError.message : SettingsError → String
  | .malformed => "invalid settings JSON: not a settings document"
  | .invalid violation => violation.message

/-- The settings in a JSON text, if nothing is wrong with them. -/
def Settings.load (text : String) : Except SettingsError Settings :=
  match Settings.ofText? text with
  | none => .error .malformed
  | some settings =>
    match settings.violation? with
    | some violation => .error (.invalid violation)
    | none => .ok settings

end ChatCommands
