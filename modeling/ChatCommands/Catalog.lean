import ChatCommands.Dictionary
import ChatCommands.Json.Reader
import ChatCommands.Json.Record
import ChatCommands.Template
import ChatCommands.Text.Blank

/-!
# Catalogs

Templates by locale and key. Bundles of one locale add up, a later message replacing an earlier
one of the same key. A key that a locale lacks is looked up in the default locale, and one that is
nowhere renders as itself.
-/

namespace ChatCommands

/-- The locale that every other one falls back to. -/
def defaultLocale : String := "en"

/-- The messages of one locale. -/
structure Bundle where
  locale : String
  messages : Dictionary String String
  deriving DecidableEq, Repr

namespace Bundle

open Json

/-- The messages of a JSON object; of a repeated key the last counts. -/
def messages? (json : Json) : Option (Dictionary String String) := do
  let members ← members? json
  let messages ← members.mapM fun (key, value) => (text? value).map (key, ·)
  return .ofList messages

/-- A bundle as a record of its two fields. -/
def ofJson? (json : Json) : Option Bundle := do
  let [locale, messages] ← json.fields? ["locale", "messages"] | none
  return {
    locale := ← required? text? locale
    messages := ← required? messages? messages }

def ofText? (text : String) : Option Bundle :=
  (Json.ofText? text).bind ofJson?

end Bundle

/-- Why a bundle is not loaded. -/
inductive BundleError where
  | malformed
  | emptyLocale
  deriving DecidableEq, Repr

/-- The text of an error. For a malformed bundle it is a fixed one, in place of what a reader of
JSON would say about it. -/
def BundleError.message : BundleError → String
  | .malformed => "invalid bundle JSON: not a bundle"
  | .emptyLocale => "bundle has an empty locale tag"

/-- The messages of every locale. -/
structure Catalog where
  bundles : Dictionary String (Dictionary String String)
  deriving DecidableEq, Repr

namespace Catalog

def empty : Catalog := ⟨.empty⟩

/-- The catalog with the messages of one more bundle. -/
def insert (c : Catalog) (bundle : Bundle) : Catalog :=
  let known := (c.bundles.get? bundle.locale).getD .empty
  ⟨c.bundles.put bundle.locale (known.putAll bundle.messages.entries)⟩

/-- The catalog with the bundle that a text holds. Its locale must not be blank. -/
def load (c : Catalog) (text : String) : Except BundleError Catalog :=
  match Bundle.ofText? text with
  | none => .error .malformed
  | some bundle =>
    if Text.isBlankText bundle.locale.toList then .error .emptyLocale
    else .ok (c.insert bundle)

/-- The locales that have a bundle, in increasing order. -/
def locales (c : Catalog) : List String :=
  c.bundles.keys

/-- The message that a locale itself has for a key. -/
def message? (c : Catalog) (locale key : String) : Option String :=
  (c.bundles.get? locale).bind (·.get? key)

/-- The template for a key: that of the locale, or else that of the default locale. -/
def template? (c : Catalog) (locale key : String) : Option String :=
  (c.message? locale key).or (c.message? defaultLocale key)

/-- The text for a key, with arguments filled in. -/
def render (c : Catalog) (locale key : String) (args : List String) : String :=
  match c.template? locale key with
  | some template => Template.fill template args
  | none => key

end Catalog

end ChatCommands
