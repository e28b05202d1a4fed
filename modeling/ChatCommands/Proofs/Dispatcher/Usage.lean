import ChatCommands.Proofs.Dispatcher.Suggested
import ChatCommands.Proofs.Invocation.Quoted

/-!
# Usage that can be typed

Who gets the arguments of a command wrong is told how to invoke it, with a sigil and the key that
was used (`Dispatcher.usageNotice`). The sigil is always one of the guild, and what is typed as the
notice quotes it leads to the same command again, unless a sigil that the guild lists earlier fits
the text as well (`Dispatcher.usage_read_back`). That can happen when one sigil starts with another
and a blank used to keep them apart (`Dispatcher.usage_misread_overlapping`).
-/

namespace ChatCommands.Dispatcher

/-- The notice that arguments are wrong, with the sigil and the key that it quotes. -/
def usageNotice (catalog : Catalog) (locale : String) (c : Command) (error : BindingError)
    (sigil key : String) : OutboundMessage :=
  let title := match error with
    | .tooFewArguments => TemplateKey.fewArgumentsTitle
    | .tooManyArguments => TemplateKey.manyArgumentsTitle
  let body :=
    if c.paramText.isEmpty then
      catalog.render locale TemplateKey.incorrectArgumentsEmpty [sigil, key]
    else
      catalog.render locale TemplateKey.incorrectArguments
        [sigil, key, catalog.render locale c.paramText []]
  .titledError (catalog.render locale title []) body

theorem misuseNotice_eq (ctx : Context) (c : Command) (error : BindingError) :
    misuseNotice ctx c error =
      usageNotice ctx.catalog ctx.locale c error ctx.sigil ctx.key :=
  rfl

/-- The sigil that users are shown is one of the guild. -/
theorem shownSigil_mem {g : GuildSettings} {block : SettingsBlock}
    (checked : g.violation? block = none) (used : String) : shownSigil g used ∈ g.sigils := by
  rw [shownSigil]
  split
  · next hused => exact List.contains_iff_mem.1 hused
  · exact GuildSettings.primarySigil_mem checked

variable {d : Dispatcher} {m : InboundMessage} {key : String} {error : BindingError}

/-- Only a message that invokes a command with wrong arguments ends in that. -/
theorem EndsIn.misused (h : d.EndsIn m (.wrongArguments key error)) :
    ∃ invocation entry,
      Invocation.ofText? m.content (d.settings.guild m.guild).sigils d.mentions =
        some invocation ∧
      d.table.find? invocation.key = some entry ∧ key = invocation.key ∧
      d.interpret m = .misused entry (d.context m invocation) error := by
  obtain ⟨p, effects, hcourse⟩ := h.course
  cases hcourse with
  | misused asked =>
    obtain ⟨invocation, hparsed, hfind, rfl⟩ :=
      invoked?_interpret_iff.1 (congrArg Request.invoked? asked)
    exact ⟨invocation, _, hparsed, hfind, rfl, asked⟩

/-- A message whose arguments are wrong has one effect, the notice, also as an edit that was
awaited. -/
theorem effects_of_misused {entry : Entry} {ctx : Context}
    (h : d.interpret m = .misused entry ctx error) (p : Platform) (now : Nat)
    (awaiting : Awaiting) :
    let notice := usageNotice ctx.catalog ctx.locale entry.command error ctx.sigil ctx.key
    (d.handle p now awaiting m).effects = [notify p m.channel notice] ∧
      (awaiting.isAwaiting now m.id = true →
        (d.handleEdit p now awaiting m).effects = [notify p m.channel notice]) := by
  intro notice
  have hnotice : misuseNotice ctx entry.command error = notice := misuseNotice_eq ctx _ error
  have heffects : ∀ awaiting,
      (d.handle p now awaiting m).effects = [notify p m.channel notice] := by
    intro awaiting
    rw [handle, h, ← hnotice]
  refine ⟨heffects awaiting, fun hawaited => ?_⟩
  rw [handleEdit_of_isAwaiting hawaited]
  exact heffects (awaiting.clear m.id)

/-- **Quoted usage**: when a message ends in wrong arguments, all that happens is a notice that
quotes a sigil of the guild and the key. Whoever types these, a blank and some arguments invokes the
same command by the same sigil with these arguments, exactly if no sigil that is listed before the
quoted one fits what is typed. -/
theorem usage_read_back {block : SettingsBlock}
    (checked : (d.settings.guild m.guild).violation? block = none)
    (ended : d.EndsIn m (.wrongArguments key error)) :
    let guild := d.settings.guild m.guild
    ∃ invocation entry,
      Invocation.ofText? m.content guild.sigils d.mentions = some invocation ∧
      entry ∈ d.table.entries ∧ key ∈ entry.command.keys ∧
      let sigil := shownSigil guild invocation.sigil
      let notice := usageNotice d.catalog guild.locale entry.command error sigil key
      sigil ∈ guild.sigils ∧
      (∀ p now awaiting, (d.handle p now awaiting m).effects = [notify p m.channel notice] ∧
        (awaiting.isAwaiting now m.id = true →
          (d.handleEdit p now awaiting m).effects = [notify p m.channel notice])) ∧
      ∀ arguments : String,
        Invocation.ofText? (Invocation.quoted sigil key arguments) guild.sigils d.mentions =
            some { sigil, key, remainder := String.ofList (Text.trim arguments.toList) } ↔
          ∀ s ∈ guild.sigils.takeWhile (· != sigil),
            ¬ s.toList <+: (Invocation.quoted sigil key arguments).toList := by
  intro guild
  obtain ⟨invocation, entry, hparsed, hfind, rfl, hmisused⟩ := ended.misused
  obtain ⟨hentry, hkey⟩ := Table.find?_eq_some_iff.1 hfind
  have hsigil : shownSigil guild invocation.sigil ∈ guild.sigils := shownSigil_mem checked _
  refine ⟨invocation, entry, hparsed, hentry, hkey, hsigil, ?_, ?_⟩
  · intro p now awaiting
    exact effects_of_misused hmisused p now awaiting
  · intro arguments
    exact Invocation.ofText?_quoted_iff hsigil
      (fun _ => guild.ne_empty_of_mem_sigils checked) (Invocation.readsBack_key hparsed) arguments
      d.mentions

theorem usage_read_back_mention :
    let guild : GuildSettings := { sigils := ["bot ", "b"] }
    let d := CommandLine.dispatcher { defaults := guild }
    let m : InboundMessage :=
      { id := 1, guild := 1, channel := 5, author := 2, content := "<@!1>PING now" }
    guild.violation? .defaults = none ∧ d.EndsIn m (.wrongArguments "ping" .tooManyArguments) ∧
      (∃ entry ∈ d.table.entries, "ping" ∈ entry.command.keys ∧
        ∀ p now awaiting, (d.handle p now awaiting m).effects =
          [notify p 5
            (usageNotice .bundled "en" entry.command .tooManyArguments "bot " "ping")]) ∧
      Invocation.ofText? "bot ping  once more " guild.sigils d.mentions =
        some { sigil := "bot ", key := "ping", remainder := "once more" } := by
  intro guild d m
  have checked : guild.violation? .defaults = none := by decide +kernel
  have ended : d.EndsIn m (.wrongArguments "ping" .tooManyArguments) :=
    ⟨Console.platform [] false, 0, d.initialAwaiting, Or.inl (by decide +kernel)⟩
  have parsed : Invocation.ofText? m.content guild.sigils d.mentions =
      some { sigil := "<@!1>", key := "ping", remainder := "now" } := by decide +kernel
  obtain ⟨invocation, entry, hparsed, hentry, hkey, -, hnotice, hread⟩ :=
    usage_read_back (d := d) (m := m) checked ended
  obtain rfl := Option.some.inj (parsed.symm.trans hparsed)
  refine ⟨checked, ended, ⟨entry, hentry, hkey, fun p now awaiting => (hnotice p now awaiting).1⟩,
    ?_⟩
  exact (hread " once more ").2 (List.forall_mem_nil _)

/-- A blank after the sigil keeps it apart from a longer one, but the notice does not quote it. -/
theorem usage_misread_overlapping :
    let guild : GuildSettings := { sigils := ["!p", "!"] }
    let d := CommandLine.dispatcher { defaults := guild }
    let m : InboundMessage :=
      { id := 1, guild := 1, channel := 5, author := 2, content := "! ping x" }
    guild.violation? .defaults = none ∧ d.EndsIn m (.wrongArguments "ping" .tooManyArguments) ∧
      (∃ entry ∈ d.table.entries, ∀ p now awaiting, (d.handle p now awaiting m).effects =
        [notify p 5 (usageNotice .bundled "en" entry.command .tooManyArguments "!" "ping")]) ∧
      Invocation.ofText? (Invocation.quoted "!" "ping" "x") guild.sigils d.mentions =
        some { sigil := "!p", key := "ing", remainder := "x" } := by
  intro guild d m
  have ended : d.EndsIn m (.wrongArguments "ping" .tooManyArguments) :=
    ⟨Console.platform [] false, 0, d.initialAwaiting, Or.inl (by decide +kernel)⟩
  have parsed : Invocation.ofText? m.content guild.sigils d.mentions =
      some { sigil := "!", key := "ping", remainder := "x" } := by decide +kernel
  obtain ⟨invocation, entry, hparsed, hfind, -, hmisused⟩ := ended.misused
  obtain rfl := Option.some.inj (parsed.symm.trans hparsed)
  obtain ⟨hentry, -⟩ := Table.find?_eq_some_iff.1 hfind
  refine ⟨by decide +kernel, ended, ⟨entry, hentry, ?_⟩, by decide +kernel⟩
  intro p now awaiting
  exact (effects_of_misused hmisused p now awaiting).1

end ChatCommands.Dispatcher
