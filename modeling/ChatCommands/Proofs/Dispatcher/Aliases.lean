import ChatCommands.Proofs.Dispatcher.Usage

/-!
# Aliases

A command does the same whichever of its keys it is invoked by (`Dispatcher.alias_transparent`).
What differs is the wording: the key, in results and in what a command gets to see, and the text of
the message. Contexts, effects and results are carried over to another wording by `reworded` and
`rekeyed`. A command whose functions look at neither (`Entry.Unworded`) is carried along, from
its action (`Table.perform_reworded`) to the whole of its execution
(`Dispatcher.execute_reworded`). Only the notice about wrong arguments quotes the key.
-/

namespace ChatCommands

/-! ## Another wording -/

/-- The context of the same message in another text, with another key. -/
def Context.reworded (key text : String) (ctx : Context) : Context :=
  { ctx with key, message := { ctx.message with content := text } }

namespace Effect

/-- The same effect in another wording. Only contexts have one. -/
def reworded (key text : String) : Effect → Effect
  | lookup channel answer => lookup channel answer
  | send channel message answer => send channel message answer
  | sendToOwner guild message answer => sendToOwner guild message answer
  | check command ctx passed => check command (ctx.reworded key text) passed
  | run command ctx arguments => run command (ctx.reworded key text) arguments
  | help command ctx => help command (ctx.reworded key text)

end Effect

/-- The same request in another wording. -/
def Request.reworded (key text : String) : Request → Request
  | .nothing => .nothing
  | .unknown sigil locale _ suggestion => .unknown sigil locale key suggestion
  | .help entry ctx => .help entry (ctx.reworded key text)
  | .misused entry ctx error => .misused entry (ctx.reworded key text) error
  | .ready entry ctx arguments => .ready entry (ctx.reworded key text) arguments

/-- The same outcome for another key. -/
def Outcome.rekeyed (key : String) : Outcome → Outcome
  | .notCommand => .notCommand
  | .completed _ => .completed key
  | .unknownCommand _ suggestion => .unknownCommand key suggestion
  | .wrongArguments _ error => .wrongArguments key error
  | .permissionDenied _ missing => .permissionDenied key missing
  | .helpRequested _ shown => .helpRequested key shown
  | .preconditionFailed _ => .preconditionFailed key

/-- The same result for another key. -/
def rekeyed (key : String) : Except DispatchError Outcome → Except DispatchError Outcome
  | .ok outcome => .ok (outcome.rekeyed key)
  | .error (.lookupFailed error) => .error (.lookupFailed error)
  | .error (.commandFailed _ reason) => .error (.commandFailed key reason)

/-! ## What ignores the wording -/

/-- A function of contexts that looks at neither the key nor the text of the message. -/
def IgnoresWording {α : Type} (f : Context → α) : Prop :=
  ∀ key text ctx, f (Context.reworded key text ctx) = f ctx

/-- An action that goes on alike in every wording. The commands that can be used in a context are
found by all the preconditions of the table, so these have to ignore the wording if an action asks
for them. -/
def Action.Unworded (t : Table) : Action → Prop
  | finish _ => True
  | send _ _ next => ∀ answer, (next answer).Unworded t
  | sendToOwner _ _ next => ∀ answer, (next answer).Unworded t
  | permissions _ next => ∀ answer, (next answer).Unworded t
  | applicable next =>
    (∀ e ∈ t.entries, IgnoresWording e.applies) ∧ ∀ commands, (next commands).Unworded t

/-- A command whose precondition, handler and help look at neither the key nor the text of the
message. -/
structure Entry.Unworded (t : Table) (e : Entry) : Prop where
  precondition : IgnoresWording e.applies
  handler : ∀ arguments, IgnoresWording (e.handler · arguments)
  handled : ∀ ctx arguments, (e.handler ctx arguments).Unworded t
  help : ∀ help ∈ e.help, IgnoresWording help
  helped : ∀ help ∈ e.help, ∀ ctx, (help ctx).Unworded t

section Rewording

variable {key text : String} {ctx : Context}

theorem Entry.checks_reworded {e : Entry} (h : IgnoresWording e.applies) :
    e.checks (ctx.reworded key text) = (e.checks ctx).map (Effect.reworded key text) := by
  have happlies : e.applies (ctx.reworded key text) = e.applies ctx := h key text ctx
  rw [applies, applies] at happlies
  rw [checks, checks]
  cases hprecondition : e.precondition with
  | none => rfl
  | some test =>
    rw [hprecondition, Option.all_some, Option.all_some] at happlies
    rw [Option.toList_some, List.map_singleton, List.map_singleton, List.map_singleton, happlies]
    rfl

namespace Table

variable {t : Table}

theorem applicable_reworded (h : ∀ e ∈ t.entries, IgnoresWording e.applies) :
    t.applicable (ctx.reworded key text) = t.applicable ctx := by
  rw [applicable, applicable]
  congr 1
  exact List.filter_congr fun e he => h e he key text ctx

theorem checks_reworded (h : ∀ e ∈ t.entries, IgnoresWording e.applies) :
    t.checks (ctx.reworded key text) = (t.checks ctx).map (Effect.reworded key text) := by
  rw [checks, checks, List.map_flatMap, List.flatMap_congr]
  exact fun e he => Entry.checks_reworded (h e he)

/-- An action ends alike in every wording, and does the same meanwhile. -/
theorem perform_reworded (p : Platform) {action : Action} (h : action.Unworded t) :
    t.perform p (ctx.reworded key text) action =
      ((t.perform p ctx action).1,
        (t.perform p ctx action).2.map (Effect.reworded key text)) := by
  induction action with
  | finish result => rfl
  | send channel message next ih =>
    rw [perform, perform, ih _ (h _)]
    rfl
  | sendToOwner guild message next ih =>
    rw [perform, perform, ih _ (h _)]
    rfl
  | permissions channel next ih =>
    rw [perform, perform, ih _ (h _)]
    rfl
  | applicable next ih =>
    obtain ⟨htests, hnext⟩ := h
    rw [perform, perform, applicable_reworded htests, checks_reworded htests, ih _ (hnext _)]
    simp only [List.map_append]

end Table

namespace Dispatcher

variable {d : Dispatcher} {p : Platform} {entry : Entry}

/-- What is said about missing permissions has no wording. -/
theorem notifyDenial_reworded (missing : List Capability) :
    notifyDenial p (ctx.reworded key text) missing =
      (notifyDenial p ctx missing).map (Effect.reworded key text) := by
  have hsame : notifyDenial p (ctx.reworded key text) missing = notifyDenial p ctx missing := rfl
  rw [hsame, notifyDenial_eq p rfl, List.map_cons, escalation]
  split <;> rfl

theorem showHelp_reworded (h : entry.Unworded d.table) :
    d.showHelp p entry (ctx.reworded key text) =
      (rekeyed key (d.showHelp p entry ctx).1,
        (d.showHelp p entry ctx).2.map (Effect.reworded key text)) := by
  rw [showHelp, showHelp, h.precondition key text ctx,
    Entry.checks_reworded h.precondition]
  cases entry.applies ctx with
  | false => rfl
  | true =>
    simp only [Bool.not_true, Bool.false_eq_true, if_false]
    cases hhelp : entry.help with
    | none =>
      simp only [List.map_append]
      rfl
    | some help =>
      simp only [h.help help hhelp key text ctx, Table.perform_reworded p (h.helped help hhelp ctx)]
      rcases d.table.perform p ctx (help ctx) with ⟨result, effects⟩
      cases result with
      | ok done =>
        simp only [List.map_append]
        rfl
      | error reason =>
        simp only [List.map_append]
        rfl

theorem execute_reworded (h : entry.Unworded d.table) (arguments : Binding) :
    d.execute p entry (ctx.reworded key text) arguments =
      (rekeyed key (d.execute p entry ctx arguments).1,
        (d.execute p entry ctx arguments).2.map (Effect.reworded key text)) := by
  have hchannel : (ctx.reworded key text).message.channel = ctx.message.channel := rfl
  have hhandler : entry.handler (ctx.reworded key text) arguments = entry.handler ctx arguments :=
    h.handler arguments key text ctx
  rw [execute, execute, hchannel, h.precondition key text ctx,
    Entry.checks_reworded h.precondition, hhandler,
    Table.perform_reworded p (h.handled ctx arguments)]
  cases p.permissions ctx.message.channel with
  | error error => rfl
  | ok granted =>
    simp only
    split
    · rw [notifyDenial_reworded]
      rfl
    split
    · rfl
    rcases d.table.perform p ctx (entry.handler ctx arguments) with ⟨result, effects⟩
    cases result with
    | ok done => simp only [List.map_append, List.map_cons]; rfl
    | error reason => simp only [List.map_append, List.map_cons]; rfl

end Dispatcher

end Rewording

/-! ## The demonstration commands -/

theorem Action.unworded_reply (t : Table) (ctx : Context) (message : OutboundMessage) :
    (Action.reply ctx message).Unworded t := by
  intro answer
  cases answer with
  | ok sent => trivial
  | error e => trivial

namespace Demo

theorem ignoresWording_applies {entry : Entry} (h : entry ∈ table.entries) :
    IgnoresWording entry.applies := by
  obtain ⟨-, handler, command, -, -, rfl⟩ := exists_of_mem h
  exact fun _ _ _ => rfl

theorem unworded_help (ctx : Context) (arguments : Binding) :
    (help ctx arguments).Unworded table :=
  ⟨fun _ => ignoresWording_applies, fun _ => Action.unworded_reply table ctx _⟩

theorem unworded_purge (ctx : Context) (arguments : Binding) :
    (purge ctx arguments).Unworded table := by
  rw [purge]
  split
  · exact Action.unworded_reply table ctx _
  · split
    · exact Action.unworded_reply table ctx _
    · exact Action.unworded_reply table ctx _

/-- No demonstration command looks at the key or the text that it is invoked with. -/
theorem unworded_of_mem {entry : Entry} (h : entry ∈ table.entries) : entry.Unworded table := by
  have happlies := ignoresWording_applies h
  obtain ⟨declaration, handler, command, hmem, -, rfl⟩ := exists_of_mem h
  simp only [declarations, List.mem_cons, Prod.mk.injEq, List.not_mem_nil, or_false] at hmem
  refine ⟨happlies, ?_, ?_, nofun, nofun⟩
  · intro arguments key text ctx
    rcases hmem with ⟨-, rfl⟩ | ⟨-, rfl⟩ | ⟨-, rfl⟩ | ⟨-, rfl⟩ <;> rfl
  · intro ctx arguments
    rcases hmem with ⟨-, rfl⟩ | ⟨-, rfl⟩ | ⟨-, rfl⟩ | ⟨-, rfl⟩
    · exact unworded_help ctx arguments
    · exact Action.unworded_reply table ctx _
    · exact Action.unworded_reply table ctx _
    · exact unworded_purge ctx arguments

end Demo

/-! ## Two messages with one command -/

namespace Dispatcher

variable {d : Dispatcher} {m : InboundMessage} {entry : Entry} {key key' : String}
  {block : SettingsBlock}

/-- The message with a command in it: the first sigil of the guild, a key, a blank and arguments. -/
def invoking (d : Dispatcher) (m : InboundMessage) (key arguments : String) : InboundMessage :=
  { m with content := Invocation.quoted (d.settings.guild m.guild).primarySigil key arguments }

/-- The first sigil is read back with what follows it, because no other one is listed before it. -/
theorem ofText?_invoking (checked : (d.settings.guild m.guild).violation? block = none)
    (hkey : ReadsBack key) (arguments : String) :
    Invocation.ofText? (d.invoking m key arguments).content (d.settings.guild m.guild).sigils
        d.mentions =
      some {
        sigil := (d.settings.guild m.guild).primarySigil, key
        remainder := String.ofList (Text.trim arguments.toList) } := by
  obtain ⟨-, sigils, hsigils⟩ := GuildSettings.sigils_of_violation?_eq_none checked
  refine (Invocation.ofText?_quoted_iff (GuildSettings.primarySigil_mem checked)
    (fun _ => GuildSettings.ne_empty_of_mem_sigils checked) hkey arguments d.mentions).2 ?_
  rw [hsigils, List.takeWhile_cons_of_neg (by simp)]
  exact List.forall_mem_nil _

/-- What a command that is invoked by one of its keys gets to see. -/
def invokingContext (d : Dispatcher) (m : InboundMessage) (key arguments : String) : Context where
  message := d.invoking m key arguments
  key
  sigil := (d.settings.guild m.guild).primarySigil
  locale := (d.settings.guild m.guild).locale
  catalog := d.catalog
  commands := d.table.commands

/-- The messages with two keys of a command are about that command, and ask for the same thing in
other words. -/
theorem interpret_invoking (declared : d.table.Declared)
    (checked : (d.settings.guild m.guild).violation? block = none)
    (registered : entry ∈ d.table.entries) (named : key ∈ entry.command.keys)
    (named' : key' ∈ entry.command.keys) (arguments : String) :
    (d.interpret (d.invoking m key arguments)).invoked? =
      some (entry, d.invokingContext m key arguments) ∧
    d.interpret (d.invoking m key' arguments) =
      (d.interpret (d.invoking m key arguments)).reworded key'
        (d.invoking m key' arguments).content := by
  have hreads : ∀ {k}, k ∈ entry.command.keys → ReadsBack k := fun hk =>
    declared.readsBack (Table.mem_keys_iff.2 ⟨entry, registered, hk⟩)
  have hfind : ∀ {k}, k ∈ entry.command.keys → d.table.find? k = some entry := fun hk =>
    Table.find?_eq_some_iff.2 ⟨registered, hk⟩
  have hparsed := ofText?_invoking checked (hreads named) arguments
  have hparsed' := ofText?_invoking checked (hreads named') arguments
  constructor
  · refine invoked?_interpret_iff.2 ⟨_, hparsed, hfind named, ?_⟩
    rw [context, invokingContext, shownSigil_of_mem]
    · rfl
    · exact GuildSettings.primarySigil_mem checked
  · have hstands : ∀ k, d.standsForFirst (d.invoking m k arguments) = d.standsForFirst m :=
      fun _ => rfl
    rw [interpret_of_known hparsed (hfind named), interpret_of_known hparsed' (hfind named'),
      hstands, hstands]
    split
    · rfl
    · cases Binding.ofText entry.command.parameters
          (String.ofList (Text.trim arguments.toList)) (d.standsForFirst m) <;> rfl

/-- What an edit cannot repair is no matter of wrong arguments. -/
theorem ne_wrongArguments_of_isRepairable {result : Except DispatchError Outcome}
    (h : isRepairable result = false) (key : String) (error : BindingError) :
    result ≠ .ok (.wrongArguments key error) := by
  rintro rfl
  cases h

/-- **Aliases are transparent.** Let a message consist of the first sigil of its guild, a key of a
command that ignores the wording, a blank and arguments. With any other key of that command it asks
for the same thing with the same arguments bound, ends in the same result, up to the key, and leaves
the same messages awaited. What happens is the same in the other wording, except that the notice
about wrong arguments quotes the key. -/
theorem alias_transparent (declared : d.table.Declared)
    (checked : (d.settings.guild m.guild).violation? block = none)
    (registered : entry ∈ d.table.entries) (named : key ∈ entry.command.keys)
    (named' : key' ∈ entry.command.keys) (unworded : entry.Unworded d.table) (p : Platform)
    (now : Nat) (awaiting : Awaiting) (arguments : String) :
    let one := d.invoking m key arguments
    let other := d.invoking m key' arguments
    let answer := d.handle p now awaiting one
    let answer' := d.handle p now awaiting other
    d.interpret other = (d.interpret one).reworded key' other.content ∧
    answer'.result = rekeyed key' answer.result ∧
    answer'.awaiting = answer.awaiting ∧
    ((∀ error, answer.result ≠ .ok (.wrongArguments key error)) →
      answer'.effects = answer.effects.map (Effect.reworded key' other.content)) ∧
    ∀ error, answer.result = .ok (.wrongArguments key error) →
      let guild := d.settings.guild m.guild
      let notice := usageNotice d.catalog guild.locale entry.command error guild.primarySigil
      answer.effects = [notify p m.channel (notice key)] ∧
        answer'.effects = [notify p m.channel (notice key')] := by
  intro one other answer answer'
  obtain ⟨hinvoked, hother⟩ :=
    interpret_invoking declared checked registered named named' arguments
  refine ⟨hother, ?_⟩
  have hanswer : answer = d.handle p now awaiting one := rfl
  have hanswer' : answer' = d.handle p now awaiting other := rfl
  rw [handle] at hanswer hanswer'
  rw [hother] at hanswer'
  clear_value answer answer'
  -- the two requests are of one kind, and about the entry if about any
  cases hrequest : d.interpret one with
  | nothing =>
    rw [hrequest] at hinvoked
    cases hinvoked
  | unknown sigil locale key suggestion =>
    rw [hrequest] at hinvoked
    cases hinvoked
  | help found ctx =>
    rw [hrequest] at hinvoked hanswer hanswer'
    cases hinvoked
    simp only [Request.reworded, showHelp_reworded unworded] at hanswer'
    subst hanswer hanswer'
    refine ⟨rfl, rfl, fun _ => rfl, ?_⟩
    have hrepairable := d.isRepairable_showHelp p entry (d.invokingContext m key arguments)
    exact fun error hwrong =>
      absurd hwrong (ne_wrongArguments_of_isRepairable hrepairable key error)
  | misused found ctx error =>
    rw [hrequest] at hinvoked hanswer hanswer'
    cases hinvoked
    subst hanswer hanswer'
    refine ⟨rfl, rfl, fun hnot => absurd rfl (hnot error), ?_⟩
    rintro error ⟨⟩
    exact ⟨rfl, rfl⟩
  | ready found ctx bound =>
    rw [hrequest] at hinvoked hanswer hanswer'
    cases hinvoked
    simp only [Request.reworded, execute_reworded unworded] at hanswer'
    subst hanswer hanswer'
    refine ⟨rfl, rfl, fun _ => rfl, ?_⟩
    have hrepairable := d.isRepairable_execute p entry (d.invokingContext m key arguments) bound
    exact fun error hwrong =>
      absurd hwrong (ne_wrongArguments_of_isRepairable hrepairable key error)

theorem alias_transparent_say :
    let d := CommandLine.dispatcher { defaults := { sigils := ["bot ", "!"] } }
    let m : InboundMessage := { id := 1, guild := 1, channel := 5, author := 2, content := "" }
    let p := Console.platform [] false
    let handle := d.handle p 0 d.initialAwaiting
    d.table.Declared ∧ (d.settings.guild m.guild).violation? .defaults = none ∧
      ∃ entry ∈ d.table.entries, "echo" ∈ entry.command.keys ∧ "say" ∈ entry.command.keys ∧
        entry.Unworded d.table ∧
        (handle (d.invoking m "echo" " two  words")).result = .ok (.completed "echo") ∧
        (handle (d.invoking m "say" " two  words")).result = .ok (.completed "say") ∧
        (handle (d.invoking m "say" " two  words")).effects =
          (handle (d.invoking m "echo" " two  words")).effects.map
            (Effect.reworded "say" "bot say  two  words") := by
  intro d m p handle
  have declared : d.table.Declared := Demo.declared_table
  have checked : (d.settings.guild m.guild).violation? .defaults = none := by decide +kernel
  have hsome : (d.table.entries.any fun entry =>
      decide ("echo" ∈ entry.command.keys ∧ "say" ∈ entry.command.keys)) = true := by
    decide +kernel
  obtain ⟨entry, registered, hkeys⟩ := List.any_eq_true.1 hsome
  obtain ⟨named, named'⟩ := of_decide_eq_true hkeys
  have unworded : entry.Unworded d.table := Demo.unworded_of_mem registered
  have hresult : (handle (d.invoking m "echo" " two  words")).result =
      .ok (.completed "echo") := by
    decide +kernel
  obtain ⟨-, hother, -, heffects, -⟩ := alias_transparent declared checked registered named named'
    unworded p 0 d.initialAwaiting " two  words"
  refine ⟨declared, checked, entry, registered, named, named', unworded, hresult, ?_, ?_⟩
  · rw [show (handle (d.invoking m "say" " two  words")).result = _ from hother,
      show (d.handle p 0 d.initialAwaiting (d.invoking m "echo" " two  words")).result = _
        from hresult]
    rfl
  · exact heffects fun error hwrong => by cases hresult.symm.trans hwrong

end Dispatcher

end ChatCommands
