import ChatCommands.Proofs.Dispatcher.Gate
import ChatCommands.Proofs.Invocation.Typed

/-!
# From a typed command to its handler

A command that is typed as it should be runs with what was typed: `typed_command_runs`. Every stage
on the way gives back the part that it is responsible for, the sigil and the key
(`Invocation.ofText?_of_typed`), the entry (`Table.find?_eq_some_iff`) and the values
(`Binding.ofText_spaced`).
-/

namespace ChatCommands.Dispatcher

open Text

/-- What a typed command gets to see: its key in lower case, and the sigil of the guild. -/
def typedContext (d : Dispatcher) (m : InboundMessage) (t : TypedCommand) : Context where
  message := m
  key := String.ofList (lower t.key)
  sigil := (d.settings.guild m.guild).primarySigil
  locale := (d.settings.guild m.guild).locale
  catalog := d.catalog
  commands := d.table.commands

/-- A typed command is ready to be executed with the values that were typed. -/
theorem interpret_of_typed {d : Dispatcher} {m : InboundMessage} {entry : Entry}
    {t : TypedCommand} {block : SettingsBlock}
    (hentry : entry ∈ d.table.entries) (hps : Pattern.Grammatical entry.command.parameters)
    (hchecked : (d.settings.guild m.guild).violation? block = none)
    (hkey : String.ofList (lower t.key) ∈ entry.command.keys)
    (ht : t.WellTyped entry.command.parameters)
    (htext : m.content.toList = (d.settings.guild m.guild).primarySigil.toList ++ t.afterSigil)
    (hhelp : isHelpRequest (String.ofList t.afterKey) = false) :
    d.interpret m =
      .ready entry (d.typedContext m t) (t.arguments entry.command.parameters) := by
  obtain ⟨hsigil, sigils, hsigils⟩ := GuildSettings.sigils_of_violation?_eq_none hchecked
  have hshown : shownSigil (d.settings.guild m.guild) (d.settings.guild m.guild).primarySigil =
      (d.settings.guild m.guild).primarySigil :=
    shownSigil_of_mem (GuildSettings.primarySigil_mem hchecked)
  refine interpret_eq_ready_iff.2
    ⟨t.invocation (d.settings.guild m.guild).primarySigil, ?_, ?_, ?_, ?_, ?_⟩
  · rw [hsigils]
    exact Invocation.ofText?_of_typed ht hps hsigil htext sigils d.mentions
  · exact Table.find?_eq_some_iff.2 ⟨hentry, hkey⟩
  · rw [ht.isHelpRequest_remainder]
    exact hhelp
  · exact Binding.ofText_spaced hps ht.filled _
  · rw [typedContext, context, TypedCommand.invocation, hshown]

/-- **A typed command runs**: when a message is a command of the table that is typed after the
first sigil of its guild, with a value for every required parameter and none too many, does not
ask for help, and passes the checks before the handler, then the handler of that command starts
exactly once, sees the key in lower case and the sigil, and gets exactly the values typed, whatever
blanks stand between them. -/
theorem typed_command_runs {d : Dispatcher} {p : Platform} {m : InboundMessage} {entry : Entry}
    {t : TypedCommand} {pattern : String} {block : SettingsBlock} {granted : List Capability}
    (registered : entry ∈ d.table.entries)
    (compiled : Pattern.compile pattern = .ok entry.command.parameters)
    (checked : (d.settings.guild m.guild).violation? block = none)
    (named : String.ofList (lower t.key) ∈ entry.command.keys)
    (wellTyped : t.WellTyped entry.command.parameters)
    (typed : m.content.toList = (d.settings.guild m.guild).primarySigil.toList ++ t.afterSigil)
    (notHelp : isHelpRequest (String.ofList t.afterKey) = false)
    (cleared : Cleared p entry (d.typedContext m t) granted) (now : Nat) (awaiting : Awaiting) :
    let arguments := t.arguments entry.command.parameters
    let effects := (d.handle p now awaiting m).effects
    effects = d.executionEffects p entry (d.typedContext m t) granted arguments ∧
      executions effects =
        [{ command := entry.command, ctx := d.typedContext m t, arguments }] ∧
      arguments.length = t.given.length := by
  intro arguments effects
  obtain ⟨-, hps⟩ := Pattern.compile_eq_ok_iff.1 compiled
  have hready : d.interpret m = .ready entry (d.typedContext m t) arguments :=
    interpret_of_typed registered hps checked named wellTyped typed notHelp
  have heffects : effects =
      d.executionEffects p entry (d.typedContext m t) granted arguments := by
    show (d.handle p now awaiting m).effects = _
    rw [handle, hready]
    exact d.execute_of_cleared cleared arguments
  refine ⟨heffects, ?_, wellTyped.length_arguments⟩
  rw [heffects]
  exact executions_executionEffects d p entry _ granted arguments

theorem typed_command_runs_purge :
    let d := CommandLine.dispatcher {}
    let p := Console.platform ["manage_messages"] false
    let m : InboundMessage := {
      id := 1, guild := 1, channel := 1, author := 2
      content := "! PuRGE  5 \t spam  and more " }
    let t : TypedCommand := {
      lead := [' '], key := "PuRGE".toList, trail := [' ']
      given := [⟨"  ".toList, "5".toList⟩, ⟨" \t ".toList, "spam  and more".toList⟩] }
    ∃ entry ∈ d.table.entries,
      Pattern.compile "<count> [reason...]" = .ok entry.command.parameters ∧
      (∃ block, (d.settings.guild m.guild).violation? block = none) ∧
      String.ofList (lower t.key) ∈ entry.command.keys ∧
      t.WellTyped entry.command.parameters ∧
      m.content.toList = (d.settings.guild m.guild).primarySigil.toList ++ t.afterSigil ∧
      isHelpRequest (String.ofList t.afterKey) = false ∧
      Cleared p entry (d.typedContext m t) ["manage_messages"] ∧
      executions (d.handle p 0 d.initialAwaiting m).effects =
        [{ command := entry.command, ctx := d.typedContext m t
           arguments := [⟨.mandatory "count", "5"⟩,
             ⟨(Parameter.omissible "reason").collecting, "spam  and more"⟩] }] := by
  intro d p m t
  obtain ⟨entry, registered, hkey, hparameters, hcapabilities, hprecondition⟩ :=
    Demo.exists_purge
  have compiled : Pattern.compile "<count> [reason...]" = .ok entry.command.parameters := by
    rw [hparameters]
    decide +kernel
  obtain ⟨block, checked⟩ :=
    Settings.violation?_guild_eq_none (show d.settings.violation? = none by decide) m.guild
  have named : String.ofList (lower t.key) ∈ entry.command.keys := by
    rw [show String.ofList (lower t.key) = "purge" by decide +kernel]
    exact hkey
  have wellTyped : t.WellTyped entry.command.parameters := by
    have hkeyWord : t.key.all (fun c => !isBlank c) = true := by decide
    have hcountWord : "5".toList.all (fun c => !isBlank c) = true := by decide
    rw [hparameters]
    refine ⟨by decide, by decide, by simpa using hkeyWord,
      ⟨by decide, by decide, by decide, ?_⟩, by decide⟩
    intro pg hpg
    rcases List.mem_cons.1 hpg with rfl | hpg
    · exact ⟨by decide, by decide, by decide, by decide, by decide,
        fun _ => by simpa using hcountWord⟩
    · obtain rfl := List.mem_singleton.1 hpg
      exact ⟨by decide, by decide, by decide, by decide, by decide, nofun⟩
  have typed : m.content.toList =
      (d.settings.guild m.guild).primarySigil.toList ++ t.afterSigil := by decide
  have notHelp : isHelpRequest (String.ofList t.afterKey) = false := by decide
  have cleared : Cleared p entry (d.typedContext m t) ["manage_messages"] := by
    refine ⟨rfl, by simp [hcapabilities], ?_⟩
    rw [Entry.applies, hprecondition]
    rfl
  obtain ⟨-, hruns, -⟩ := typed_command_runs registered compiled checked named wellTyped typed
    notHelp cleared 0 d.initialAwaiting
  refine ⟨entry, registered, compiled, ⟨block, checked⟩, named, wellTyped, typed, notHelp, cleared,
    ?_⟩
  rw [hruns, hparameters]
  rfl

end ChatCommands.Dispatcher
