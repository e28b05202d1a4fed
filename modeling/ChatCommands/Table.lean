import ChatCommands.Action
import ChatCommands.Table.Draft

/-!
# The command table

All commands of a bot, in the order of their registration. No key or alias belongs to two commands
or appears twice in one, so a key leads to at most one command: to the one at the position that the
index has for the key. `Table.ofEntries` builds a table or names the first key that is taken.
-/

namespace ChatCommands

/-- A command with what it does. A command without a precondition can always be used, and one
without help of its own gets the usual one. -/
structure Entry where
  command : Command
  precondition : Option (Context → Bool) := none
  handler : Context → Binding → Action
  help : Option (Context → Action) := none

namespace Entry

/-- Whether the command can be used in a context. -/
def applies (e : Entry) (ctx : Context) : Bool :=
  e.precondition.all (· ctx)

/-- The evaluation of the precondition, if there is one. -/
def checks (e : Entry) (ctx : Context) : List Effect :=
  e.precondition.toList.map fun p => .check e.command ctx (p ctx)

end Entry

/-- The commands of a bot. -/
structure Table where
  entries : List Entry
  index : Dictionary String Nat
  distinct : (Command.allKeys (entries.map Entry.command)).Nodup
  indexed : ∀ key, index.get? key = entries.findIdx? (·.command.keys.contains key)

namespace Table

/-- The table of entries in order, or the first conflict among their keys. -/
def ofEntries (entries : List Entry) : Except DuplicateKey Table :=
  match h : Draft.assemble (entries.map Entry.command) with
  | .error conflict => .error conflict
  | .ok draft => .ok {
      entries
      index := draft.index
      distinct := Draft.nodup_of_assemble h
      indexed := fun key => by
        rw [Draft.index_of_assemble h, List.findIdx?_map]
        rfl }

/-- What building a table comes to: the first conflict or, without one, a table of these entries. -/
theorem ofEntries_cases (entries : List Entry) :
    (∃ conflict, Command.firstConflict? [] (entries.map Entry.command) = some conflict ∧
      ofEntries entries = .error conflict) ∨
    (Command.firstConflict? [] (entries.map Entry.command) = none ∧
      ∃ t, ofEntries entries = .ok t ∧ t.entries = entries) := by
  rcases Draft.assemble_cases (entries.map Entry.command) with
    ⟨conflict, hconflict, hfault⟩ | ⟨hnone, draft, hdone, -⟩
  · refine Or.inl ⟨conflict, hconflict, ?_⟩
    rw [ofEntries]
    split <;> simp_all
  · refine Or.inr ⟨hnone, ?_⟩
    rw [ofEntries]
    split
    · simp_all
    · exact ⟨_, rfl, rfl⟩

theorem entries_of_ofEntries {entries : List Entry} {t : Table} (h : ofEntries entries = .ok t) :
    t.entries = entries := by
  rcases ofEntries_cases entries with ⟨conflict, -, hfault⟩ | ⟨-, t', hdone, hentries⟩
  · rw [h] at hfault
    cases hfault
  · rw [h] at hdone
    cases hdone
    exact hentries

def commands (t : Table) : List Command :=
  t.entries.map Entry.command

/-- Every key and alias, in order of registration. -/
def keys (t : Table) : List String :=
  Command.allKeys t.commands

/-- The entry that has a key or alias: the one at the position in the index. -/
def find? (t : Table) (key : String) : Option Entry :=
  (t.index.get? key).bind fun position => t.entries[position]?

/-- The index leads to the entry that a search would find. -/
theorem find?_eq (t : Table) (key : String) :
    t.find? key = t.entries.find? (·.command.keys.contains key) := by
  rw [find?, t.indexed, List.find?_eq_bind_findIdx?_getElem?]

/-- The commands that can be used in a context. -/
def applicable (t : Table) (ctx : Context) : List Command :=
  (t.entries.filter (·.applies ctx)).map Entry.command

/-- The evaluations of all preconditions in a context. -/
def checks (t : Table) (ctx : Context) : List Effect :=
  t.entries.flatMap (·.checks ctx)

/-! ## Performing actions -/

/-- Carries out an action on a platform: how it ends, and what happens meanwhile. -/
def perform (t : Table) (p : Platform) (ctx : Context) : Action → Except String Unit × List Effect
  | .finish result => (result, [])
  | .send channel message next =>
    let answer := p.send channel message
    let (result, effects) := t.perform p ctx (next answer)
    (result, .send channel message answer :: effects)
  | .sendToOwner guild message next =>
    let answer := p.sendToOwner guild message
    let (result, effects) := t.perform p ctx (next answer)
    (result, .sendToOwner guild message answer :: effects)
  | .permissions channel next =>
    let answer := p.permissions channel
    let (result, effects) := t.perform p ctx (next answer)
    (result, .lookup channel answer :: effects)
  | .applicable next =>
    let (result, effects) := t.perform p ctx (next (t.applicable ctx))
    (result, t.checks ctx ++ effects)

end Table

end ChatCommands
