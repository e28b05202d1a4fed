import ChatCommands.Demo
import ChatCommands.Proofs.Pattern.Grammar
import Mathlib.Data.List.Nodup
import Mathlib.Data.List.Pairwise

/-!
# Looking up commands

A key leads to the one entry that has it (`Table.find?_eq_some_iff`), because no two entries share
a key (`Table.eq_of_mem_keys`). Commands are only ever made from declarations; of a table that is
built from such commands (`Table.Declared`), every entry has parameters that keep the grammar of
patterns.
-/

namespace ChatCommands

/-- What a command has from its declaration: the key and the aliases in lower case, and the
parameters that the pattern declares. -/
theorem Command.parts_of_ofDeclaration {declaration : Declaration} {c : Command}
    (h : Command.ofDeclaration declaration = .ok c) :
    Command.foldKey declaration.key = .ok c.key ∧
      Command.foldKeys declaration.aliases = .ok c.aliases ∧
      Pattern.compile declaration.params = .ok c.parameters := by
  rw [Command.ofDeclaration] at h
  cases hkey : Command.foldKey declaration.key with
  | error e =>
    rw [hkey] at h
    cases h
  | ok key =>
    cases haliases : Command.foldKeys declaration.aliases with
    | error e =>
      rw [hkey, haliases] at h
      cases h
    | ok aliases =>
      cases hparams : Pattern.compile declaration.params with
      | error e =>
        rw [hkey, haliases, hparams] at h
        cases h
      | ok parameters =>
        rw [hkey, haliases, hparams] at h
        cases h
        exact ⟨rfl, rfl, rfl⟩

namespace Table

/-- Every command of the table was made from a declaration. -/
def Declared (t : Table) : Prop :=
  ∀ e ∈ t.entries, ∃ declaration, Command.ofDeclaration declaration = .ok e.command

theorem Declared.grammatical {t : Table} {e : Entry} (h : t.Declared) (he : e ∈ t.entries) :
    Pattern.Grammatical e.command.parameters := by
  obtain ⟨declaration, hcommand⟩ := h e he
  obtain ⟨-, -, hcompile⟩ := Command.parts_of_ofDeclaration hcommand
  exact (Pattern.compile_eq_ok_iff.1 hcompile).2

/-- No two entries share a key. -/
theorem eq_of_mem_keys {t : Table} {e e' : Entry} {key : String} (he : e ∈ t.entries)
    (he' : e' ∈ t.entries) (hkey : key ∈ e.command.keys) (hkey' : key ∈ e'.command.keys) :
    e = e' := by
  have hdistinct := t.distinct
  rw [Command.allKeys, List.flatMap_map, List.nodup_flatMap] at hdistinct
  by_contra hne
  have hsymm : Std.Symm (Function.onFun List.Disjoint fun e : Entry => e.command.keys) :=
    ⟨fun _ _ => List.disjoint_symm⟩
  exact hdistinct.2.forall he he' hne hkey hkey'

theorem find?_eq_some_iff {t : Table} {key : String} {e : Entry} :
    t.find? key = some e ↔ e ∈ t.entries ∧ key ∈ e.command.keys := by
  rw [find?_eq]
  constructor
  · intro h
    refine ⟨List.mem_of_find?_eq_some h, ?_⟩
    have hkeys := List.find?_some h
    simpa using hkeys
  · rintro ⟨he, hkey⟩
    have hsome : (t.entries.find? (·.command.keys.contains key)).isSome := by
      rw [List.find?_isSome]
      exact ⟨e, he, by simpa using hkey⟩
    obtain ⟨e', he'⟩ := Option.isSome_iff_exists.1 hsome
    have hkey' : key ∈ e'.command.keys := by
      have hkeys := List.find?_some he'
      simpa using hkeys
    rw [he', eq_of_mem_keys (List.mem_of_find?_eq_some he') he hkey' hkey]

theorem mem_keys_iff {t : Table} {key : String} :
    key ∈ t.keys ↔ ∃ e ∈ t.entries, key ∈ e.command.keys := by
  rw [keys, Command.allKeys, commands, List.flatMap_map, List.mem_flatMap]

/-- A text leads to no entry exactly if it is no key of the table. -/
theorem find?_eq_none_iff {t : Table} {key : String} : t.find? key = none ↔ key ∉ t.keys := by
  rw [mem_keys_iff, Option.eq_none_iff_forall_not_mem]
  simp only [Option.mem_def, find?_eq_some_iff, not_exists, not_and]

end Table

/-- Every demonstration command has its handler and nothing else of its own. -/
theorem Demo.exists_of_mem {entry : Entry} (h : entry ∈ Demo.table.entries) :
    ∃ declaration handler command, (declaration, handler) ∈ Demo.declarations ∧
      Command.ofDeclaration declaration = .ok command ∧ entry = { command, handler } := by
  rw [Demo.entries_table] at h
  obtain ⟨⟨declaration, handler⟩, hmem, hentry⟩ := List.mem_filterMap.1 h
  obtain ⟨command, hcommand, rfl⟩ := Option.map_eq_some_iff.1 hentry
  refine ⟨declaration, handler, command, hmem, ?_, rfl⟩
  cases hmade : Command.ofDeclaration declaration with
  | error error =>
    rw [hmade] at hcommand
    cases hcommand
  | ok made =>
    rw [hmade] at hcommand
    cases hcommand
    rfl

theorem Demo.declared_table : Demo.table.Declared := by
  intro e he
  obtain ⟨declaration, handler, command, -, hcommand, rfl⟩ := Demo.exists_of_mem he
  exact ⟨declaration, hcommand⟩

/-- The command `purge` is among the demonstration commands. -/
theorem Demo.exists_purge : ∃ entry ∈ Demo.table.entries, "purge" ∈ entry.command.keys ∧
    entry.command.parameters =
      [.mandatory "count", (Parameter.omissible "reason").collecting] ∧
    entry.command.capabilities = ["manage_messages"] ∧ entry.precondition = none := by
  have hany : (Demo.table.entries.any fun entry => entry.command.keys.contains "purge" &&
      entry.command.parameters ==
        [.mandatory "count", (Parameter.omissible "reason").collecting] &&
      entry.command.capabilities == ["manage_messages"] && entry.precondition.isNone) = true := by
    decide +kernel
  simpa [and_assoc] using hany

end ChatCommands
