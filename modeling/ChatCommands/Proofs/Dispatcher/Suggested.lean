import ChatCommands.Proofs.Dispatcher.Course
import ChatCommands.Proofs.Dispatcher.Retry
import ChatCommands.Proofs.Invocation.Typed
import ChatCommands.Proofs.Suggestion.Nearest
import ChatCommands.Proofs.Table.Keys

/-!
# Suggestions that help

A message that ends in an unknown command has a key that no entry has
(`Dispatcher.EndsIn.asked`), so a suggestion is a different one, and whoever follows it gets to
the entry that owns it (`Dispatcher.suggestion_helps`). Three facts come together there: the
suggestion is the first key that takes the fewest edits (`Suggestion.closest_edits`), a key of the
table is read back as itself (`Table.Declared.readsBack`), and it stands right after the first
sigil (`Invocation.ofText?_of_word`).
-/

namespace ChatCommands

open Text Suggestion

namespace Dispatcher

/-- A message, or an edit of it, can end in an outcome: on some platform, at some time, and with
some messages awaited. -/
def EndsIn (d : Dispatcher) (m : InboundMessage) (outcome : Outcome) : Prop :=
  ∃ p now awaiting, (d.handle p now awaiting m).result = .ok outcome ∨
    (d.handleEdit p now awaiting m).result = .ok (some outcome)

variable {d : Dispatcher} {m : InboundMessage} {key : String} {suggestion : Option String}

/-- An edit that ends in an outcome was handled like a new message. -/
theorem EndsIn.handled {outcome : Outcome} (h : d.EndsIn m outcome) :
    ∃ p now awaiting, (d.handle p now awaiting m).result = .ok outcome := by
  obtain ⟨p, now, awaiting, hnew | hedit⟩ := h
  · exact ⟨p, now, awaiting, hnew⟩
  refine ⟨p, now, awaiting.clear m.id, ?_⟩
  cases hawaited : awaiting.isAwaiting now m.id with
  | false =>
    rw [handleEdit, Awaiting.take, hawaited] at hedit
    cases hedit
  | true =>
    rw [handleEdit_of_isAwaiting hawaited, Answer.dispatched] at hedit
    cases hresult : (d.handle p now (awaiting.clear m.id) m).result with
    | error e =>
      simp only [hresult] at hedit
      cases hedit
    | ok found =>
      simp only [hresult] at hedit
      cases hedit
      rfl

/-- A message that ends in an outcome has taken a course to it. -/
theorem EndsIn.course {outcome : Outcome} (h : d.EndsIn m outcome) :
    ∃ p effects, Course d p m (.ok outcome) effects := by
  obtain ⟨p, now, awaiting, hresult⟩ := h.handled
  have hcourse : Course _ _ m _ _ := course_of_answer (rfl : d.handle p now awaiting m = _)
  rw [hresult] at hcourse
  exact ⟨p, _, hcourse⟩

/-- Only a message that asks for an unknown command ends in one. -/
theorem EndsIn.asked (h : d.EndsIn m (.unknownCommand key suggestion)) :
    ∃ sigil locale, d.interpret m = .unknown sigil locale key suggestion := by
  obtain ⟨p, effects, hcourse⟩ := h.course
  cases hcourse with
  | unknown asked => exact ⟨_, _, asked⟩

/-- A key of the table that is typed after the first sigil of the guild leads to its entry, whatever
follows it after a blank. -/
theorem invoked?_of_key {entry : Entry} {trail : List Char} (declared : d.table.Declared)
    (checked : d.settings.violation? = none) (hentry : entry ∈ d.table.entries)
    (hkey : key ∈ entry.command.keys) (htrail : ∀ c ∈ trail.head?, isBlank c = true)
    (htext : m.content.toList =
      (d.settings.guild m.guild).primarySigil.toList ++ (key.toList ++ trail)) :
    ∃ ctx, (d.interpret m).invoked? = some (entry, ctx) := by
  obtain ⟨block, hguild⟩ := Settings.violation?_guild_eq_none checked m.guild
  obtain ⟨hsigil, sigils, hsigils⟩ := GuildSettings.sigils_of_violation?_eq_none hguild
  have hreads : ReadsBack key := declared.readsBack (Table.mem_keys_iff.2 ⟨entry, hentry, hkey⟩)
  obtain ⟨remainder, hparsed⟩ :=
    Invocation.ofText?_of_word hsigil hreads.ne_nil hreads.word htrail htext sigils d.mentions
  rw [← hsigils] at hparsed
  refine ⟨_, invoked?_interpret_iff.2 ⟨_, hparsed, ?_, rfl⟩⟩
  rw [Table.find?_eq_some_iff, hreads.lowered, String.ofList_toList]
  exact ⟨hentry, hkey⟩

/-- **Suggestions help.** When a message ends in an unknown command, a key is suggested exactly if
fewer edits than the bound lead to some key or alias of the table. The suggestion is the first of
the keys and aliases that take the fewest edits, at least one. And whoever in that guild types it
after the first sigil, with nothing or a blank and anything else after it, gets to the entry that
owns it, and so never ends in an unknown command. -/
theorem suggestion_helps (declared : d.table.Declared) (checked : d.settings.violation? = none)
    (ended : d.EndsIn m (.unknownCommand key suggestion)) :
    (suggestion.isSome ↔
      ∃ k ∈ d.table.keys, ∃ n < d.settings.maxDistance, Edits n key.toList k.toList) ∧
    ∀ s, suggestion = some s →
      s ∈ d.table.keys ∧ s ≠ key ∧
      (∃ least, 1 ≤ least ∧ FewestEdits key least d.table.keys s) ∧
      ∃ entry ∈ d.table.entries, s ∈ entry.command.keys ∧
        ∀ (later : InboundMessage) (trail : List Char), later.guild = m.guild →
          (∀ c ∈ trail.head?, isBlank c = true) →
          later.content.toList =
            (d.settings.guild m.guild).primarySigil.toList ++ (s.toList ++ trail) →
          (∃ ctx, (d.interpret later).invoked? = some (entry, ctx)) ∧
            ∀ key suggestion, ¬ d.EndsIn later (.unknownCommand key suggestion) := by
  obtain ⟨sigil, locale, hasked⟩ := ended.asked
  obtain ⟨invocation, -, hfind, hinvoked, hclosest⟩ := of_interpret_unknown hasked
  rw [← hinvoked] at hfind hclosest
  subst hclosest
  have hunknown := Table.find?_eq_none_iff.1 hfind
  obtain ⟨hiff, hfewest⟩ := closest_edits d.table.keys key d.settings.maxDistance
  refine ⟨hiff, ?_⟩
  intro s hs
  have hnearest := hfewest s hs
  have hmem : s ∈ d.table.keys := mem_of_closest hs
  have hne : key ≠ s := fun heq => hunknown (heq ▸ hmem)
  obtain ⟨entry, hentry, hkey⟩ := Table.mem_keys_iff.1 hmem
  refine ⟨hmem, hne.symm, ⟨_, hnearest.one_le hne, hnearest⟩, entry, hentry, hkey, ?_⟩
  intro later trail hguild htrail htext
  rw [← hguild] at htext
  obtain ⟨ctx, hfound⟩ := invoked?_of_key declared checked hentry hkey htrail htext
  refine ⟨⟨ctx, hfound⟩, ?_⟩
  intro key suggestion hended
  obtain ⟨sigil, locale, hasked⟩ := hended.asked
  rw [hasked] at hfound
  cases hfound

theorem suggestion_helps_ping :
    let d := CommandLine.dispatcher {}
    let m : InboundMessage :=
      { id := 1, guild := 1, channel := 1, author := 2, content := "!PNIG now" }
    d.EndsIn m (.unknownCommand "pnig" (some "ping")) ∧
      ∃ entry ∈ d.table.entries, "ping" ∈ entry.command.keys ∧
        ∃ ctx, (d.interpret { m with id := 2, content := "!ping\tnow" }).invoked? =
          some (entry, ctx) := by
  intro d m
  have declared : d.table.Declared := Demo.declared_table
  have ended : d.EndsIn m (.unknownCommand "pnig" (some "ping")) :=
    ⟨Console.platform [] false, 0, d.initialAwaiting, Or.inl (by decide +kernel)⟩
  obtain ⟨-, hsuggested⟩ := suggestion_helps declared (by decide) ended
  obtain ⟨-, -, -, entry, hentry, hkey, hlater⟩ := hsuggested "ping" rfl
  refine ⟨ended, entry, hentry, hkey, ?_⟩
  have hblank : ∀ c ∈ "\tnow".toList.head?, isBlank c = true := by
    rintro c ⟨⟩
    rfl
  exact (hlater { m with id := 2, content := "!ping\tnow" } "\tnow".toList rfl hblank
    (by decide)).1

end Dispatcher

end ChatCommands
