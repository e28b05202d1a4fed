import ChatCommands.CommandLine
import ChatCommands.Proofs.Binding.Counting
import ChatCommands.Proofs.Dispatcher.Executions
import ChatCommands.Proofs.Invocation.Parts
import ChatCommands.Proofs.Table.Lookup

/-!
# The gate before a handler

A message whose handling executes a command has passed every check before that: `Admitted` lists
what they have established, and `handler_admitted` says that nothing runs without it.

What the arguments cover rests on two facts from before the binding: the text of the arguments
ends in no blank (`Invocation.noTrailingBlank_remainder`), and the parameters of a declared command
keep the grammar of patterns (`Table.Declared.grammatical`).
-/

namespace ChatCommands

open Text

/-! ## What a request says -/

/-- The entry that a request is about, and what that gets to see. -/
def Request.invoked? : Request → Option (Entry × Context)
  | .nothing => none
  | .unknown .. => none
  | .help entry ctx => some (entry, ctx)
  | .misused entry ctx _ => some (entry, ctx)
  | .ready entry ctx _ => some (entry, ctx)

namespace Invocation

variable {text : String} {sigils : List String} {mentions : Mentions} {invocation : Invocation}

/-- The text of the arguments has no blank at its end. -/
theorem noTrailingBlank_remainder (h : ofText? text sigils mentions = some invocation) :
    NoTrailingBlank invocation.remainder.toList := by
  obtain ⟨rest, -, -, -, hremainder⟩ := ofText?_eq_some_iff.1 h
  rw [hremainder]
  -- skipping the key and the blanks after it leaves the end of the text as it is
  exact (noTrailingBlank_trim rest).suffix ((trimStart_suffix _).trans (afterWord_suffix _))

end Invocation

namespace Dispatcher

/-- A configured sigil is shown as it was used. -/
theorem shownSigil_of_mem {g : GuildSettings} {sigil : String} (h : sigil ∈ g.sigils) :
    shownSigil g sigil = sigil := by
  rw [shownSigil, if_pos (by simpa using h)]

/-- The context that a command gets to see when it is invoked. -/
def context (d : Dispatcher) (m : InboundMessage) (invocation : Invocation) : Context where
  message := m
  key := invocation.key
  sigil := shownSigil (d.settings.guild m.guild) invocation.sigil
  locale := (d.settings.guild m.guild).locale
  catalog := d.catalog
  commands := d.table.commands

/-- Whether a message stands for the first argument of the command in it. -/
def standsForFirst (d : Dispatcher) (m : InboundMessage) : Bool :=
  d.settings.replyIsFirstArgument && m.replyTo.isSome

/-- What a message that invokes a known command asks for. -/
theorem interpret_of_known {d : Dispatcher} {m : InboundMessage} {invocation : Invocation}
    {entry : Entry}
    (hparsed : Invocation.ofText? m.content (d.settings.guild m.guild).sigils d.mentions =
      some invocation)
    (hfind : d.table.find? invocation.key = some entry) :
    d.interpret m =
      if isHelpRequest invocation.remainder then .help entry (d.context m invocation)
      else match Binding.ofText entry.command.parameters invocation.remainder
          (d.standsForFirst m) with
        | .error error => .misused entry (d.context m invocation) error
        | .ok arguments => .ready entry (d.context m invocation) arguments := by
  rw [interpret]
  simp only [hparsed, hfind]
  rfl

/-- A message is about an entry exactly if it invokes a command and the key is one of the entry. -/
theorem invoked?_interpret_iff {d : Dispatcher} {m : InboundMessage} {entry : Entry}
    {ctx : Context} :
    (d.interpret m).invoked? = some (entry, ctx) ↔
      ∃ invocation,
        Invocation.ofText? m.content (d.settings.guild m.guild).sigils d.mentions =
          some invocation ∧
        d.table.find? invocation.key = some entry ∧ ctx = d.context m invocation := by
  constructor
  · intro h
    cases hparsed : Invocation.ofText? m.content (d.settings.guild m.guild).sigils d.mentions with
    | none =>
      rw [interpret, hparsed] at h
      cases h
    | some invocation =>
      cases hfind : d.table.find? invocation.key with
      | none =>
        rw [interpret, hparsed] at h
        simp only [hfind] at h
        cases h
      | some found =>
        rw [interpret_of_known hparsed hfind] at h
        refine ⟨invocation, rfl, ?_⟩
        rw [hfind]
        split at h
        · cases h
          exact ⟨rfl, rfl⟩
        · split at h
          · cases h
            exact ⟨rfl, rfl⟩
          · cases h
            exact ⟨rfl, rfl⟩
  · rintro ⟨invocation, hparsed, hfind, rfl⟩
    rw [interpret_of_known hparsed hfind]
    split
    · rfl
    · split <;> rfl

/-- An unknown command has a key that leads to no entry, and the search for a suggestion has gone
over all keys. -/
theorem of_interpret_unknown {d : Dispatcher} {m : InboundMessage} {sigil locale key : String}
    {suggestion : Option String}
    (h : d.interpret m = .unknown sigil locale key suggestion) :
    ∃ invocation,
      Invocation.ofText? m.content (d.settings.guild m.guild).sigils d.mentions =
        some invocation ∧
      d.table.find? invocation.key = none ∧ key = invocation.key ∧
      suggestion = Suggestion.closest d.table.keys invocation.key d.settings.maxDistance := by
  rw [interpret] at h
  split at h
  · cases h
  next invocation hparsed =>
  simp only at h
  split at h
  · next hfind =>
    cases h
    exact ⟨invocation, hparsed, hfind, rfl, rfl⟩
  · split at h
    · cases h
    · split at h <;> cases h

/-- A message is ready to be executed exactly if it invokes a known command, does not ask for help
and gives arguments that bind. -/
theorem interpret_eq_ready_iff {d : Dispatcher} {m : InboundMessage} {entry : Entry}
    {ctx : Context} {arguments : Binding} :
    d.interpret m = .ready entry ctx arguments ↔
      ∃ invocation,
        Invocation.ofText? m.content (d.settings.guild m.guild).sigils d.mentions =
          some invocation ∧
        d.table.find? invocation.key = some entry ∧
        isHelpRequest invocation.remainder = false ∧
        Binding.ofText entry.command.parameters invocation.remainder (d.standsForFirst m) =
          .ok arguments ∧
        ctx = d.context m invocation := by
  constructor
  · intro h
    have hinvoked : (d.interpret m).invoked? = some (entry, ctx) := congrArg Request.invoked? h
    obtain ⟨invocation, hparsed, hfind, rfl⟩ := invoked?_interpret_iff.1 hinvoked
    rw [interpret_of_known hparsed hfind] at h
    split at h
    · cases h
    next hhelp =>
    split at h
    · cases h
    next bound hbound =>
    cases h
    exact ⟨invocation, hparsed, hfind, Bool.not_eq_true _ ▸ hhelp, hbound, rfl⟩
  · rintro ⟨invocation, hparsed, hfind, hhelp, hbound, rfl⟩
    rw [interpret_of_known hparsed hfind, hhelp, hbound]
    rfl

/-! ## What a handler can rely on -/

/-- What has been established when a command is executed for a message. -/
structure Admitted (d : Dispatcher) (p : Platform) (m : InboundMessage) (invocation : Invocation)
    (entry : Entry) (granted : List Capability) (arguments : Binding) : Prop where
  /-- The message is an invocation, and does not ask for help. -/
  parsed : Invocation.ofText? m.content (d.settings.guild m.guild).sigils d.mentions =
    some invocation
  notHelp : isHelpRequest invocation.remainder = false
  /-- The command is the one that the key belongs to. -/
  named : ∀ e, e ∈ d.table.entries ∧ invocation.key ∈ e.command.keys ↔ e = entry
  /-- The permissions in the channel of the message were found and suffice. -/
  answered : p.permissions m.channel = .ok granted
  sufficient : ∀ c ∈ entry.command.capabilities, c ∈ granted
  /-- The precondition, if there is one, holds for this invocation. -/
  applicable : ∀ test ∈ entry.precondition, test (d.context m invocation) = true
  /-- The arguments belong to the first parameters. -/
  leading : arguments.map Argument.parameter = entry.command.parameters.take arguments.length
  /-- Nothing is bound if the message stands for the first argument and gives no others. -/
  bare : d.standsForFirst m = true → invocation.remainder = "" → arguments = []
  /-- Everything required is bound in all other cases. -/
  covered : ¬ (d.standsForFirst m = true ∧ invocation.remainder = "") →
    ∀ q ∈ entry.command.parameters.drop arguments.length, q.optional = true

/-- **The gate**: a message that executes any command executes exactly one, for which it is
admitted, and it does so right after the permissions were found and the precondition held. -/
theorem handler_admitted {d : Dispatcher} {p : Platform} {now : Nat} {awaiting : Awaiting}
    {m : InboundMessage} (declared : d.table.Declared)
    (executed : executions (d.handle p now awaiting m).effects ≠ []) :
    ∃ invocation entry granted arguments, d.Admitted p m invocation entry granted arguments ∧
      (d.handle p now awaiting m).effects =
        d.executionEffects p entry (d.context m invocation) granted arguments ∧
      executions (d.handle p now awaiting m).effects =
        [{ command := entry.command, ctx := d.context m invocation, arguments }] := by
  rcases d.handle_cases p now awaiting m with hnone | ⟨entry, ctx, arguments, hready, heffects⟩
  · exact absurd hnone executed
  rw [heffects] at executed ⊢
  rcases d.execute_cases p entry ctx arguments with hnone | ⟨granted, hcleared, hexecuted⟩
  · exact absurd hnone executed
  obtain ⟨invocation, hparsed, hfind, hhelp, hbound, rfl⟩ := interpret_eq_ready_iff.1 hready
  obtain ⟨hentry, hkey⟩ := Table.find?_eq_some_iff.1 hfind
  -- the two facts from before the binding meet here
  obtain ⟨hleading, hbare, hcovered⟩ := Binding.unbound_of_ofText (declared.grammatical hentry)
    (Invocation.noTrailingBlank_remainder hparsed) hbound
  refine ⟨invocation, entry, granted, arguments, ?_, hexecuted, ?_⟩
  · refine {
      parsed := hparsed
      notHelp := hhelp
      named := ?_
      answered := hcleared.answered
      sufficient := hcleared.sufficient
      applicable := ?_
      leading := hleading
      bare := fun _ => hbare
      covered := hcovered }
    · intro e
      constructor
      · rintro ⟨he, hkey'⟩
        exact Table.eq_of_mem_keys he hentry hkey' hkey
      · rintro rfl
        exact ⟨hentry, hkey⟩
    · intro test htest
      have happlies := hcleared.applicable
      rw [Entry.applies, htest] at happlies
      exact happlies
  · rw [hexecuted]
    exact executions_executionEffects d p entry _ granted arguments

theorem handler_admitted_purge :
    let d := CommandLine.dispatcher {}
    let p := Console.platform ["manage_messages"] false
    let m : InboundMessage :=
      { id := 1, guild := 1, channel := 1, author := 2, content := "!Purge  5" }
    d.table.Declared ∧ executions (d.handle p 0 d.initialAwaiting m).effects ≠ [] ∧
      ∃ invocation entry granted arguments, d.Admitted p m invocation entry granted arguments ∧
        (d.handle p 0 d.initialAwaiting m).effects =
          d.executionEffects p entry (d.context m invocation) granted arguments ∧
        executions (d.handle p 0 d.initialAwaiting m).effects =
          [{ command := entry.command, ctx := d.context m invocation, arguments }] := by
  intro d p m
  have executed : executions (d.handle p 0 d.initialAwaiting m).effects ≠ [] := by
    decide +kernel
  exact ⟨Demo.declared_table, executed, handler_admitted Demo.declared_table executed⟩

end Dispatcher

end ChatCommands
