import ChatCommands.Proofs.Console.Protocol
import ChatCommands.Proofs.Dispatcher.Course
import ChatCommands.Proofs.Suggestion.Nearest
import ChatCommands.Proofs.Table.Keys

/-!
# Labels are single lines

What a console session says about a message on standard error is one line
(`CommandLine.oneLine_shown`), so the lines there can be told apart again. No text in a result has
a line feed (`CommandLine.oneLine_texts`): a key is a word, a suggestion is a key of the table, the
capabilities are those of the demonstration commands, and these fail only with what the console
says about a locked channel.
-/

namespace ChatCommands

open Text

/-- A text without a line feed. -/
def OneLine (s : String) : Prop :=
  '\n' ∉ s.toList

instance (s : String) : Decidable (OneLine s) :=
  inferInstanceAs (Decidable ('\n' ∉ s.toList))

theorem OneLine.append {s t : String} (hs : OneLine s) (ht : OneLine t) : OneLine (s ++ t) := by
  rw [OneLine, String.toList_append, List.mem_append, not_or]
  exact ⟨hs, ht⟩

/-- A word has no line feed. -/
theorem oneLine_of_word {s : String} (h : ∀ c ∈ s.toList, isBlank c = false) : OneLine s := by
  intro hfeed
  have hblank := h '\n' hfeed
  cases hblank

/-- A numeral has no line feed. -/
theorem oneLine_toString (n : Nat) : OneLine (toString n) := by
  have hdigits : (toString n).toList = Nat.toDigits 10 n := Nat.toList_repr
  intro hfeed
  rw [hdigits] at hfeed
  have hdigit := Nat.isDigit_of_mem_toDigits (by decide) (by decide) hfeed
  cases hdigit

/-! ## Labels of texts without line feeds -/

/-- The texts that an outcome is about. -/
def Outcome.texts : Outcome → List String
  | notCommand => []
  | completed key => [key]
  | unknownCommand key suggestion => key :: suggestion.toList
  | wrongArguments key _ => [key]
  | permissionDenied key missing => key :: missing
  | helpRequested key _ => [key]
  | preconditionFailed key => [key]

theorem oneLine_intercalate {missing : List String} (h : ∀ s ∈ missing, OneLine s) :
    OneLine (", ".intercalate missing) := by
  induction missing with
  | nil =>
    rw [String.intercalate_nil]
    decide
  | cons first rest ih =>
    have hfirst : OneLine first := h first List.mem_cons_self
    cases rest with
    | nil =>
      rw [String.intercalate_singleton]
      exact hfirst
    | cons second rest =>
      rw [String.intercalate_cons_cons]
      have hcomma : OneLine ", " := by decide
      exact (hfirst.append hcomma).append (ih fun s hs => h s (List.mem_cons_of_mem first hs))

theorem Outcome.oneLine_label {o : Outcome} (h : ∀ text ∈ o.texts, OneLine text) :
    OneLine o.label := by
  have hafter : ∀ {key said : String}, key ∈ o.texts → OneLine said → OneLine (key ++ said) :=
    fun hkey hsaid => (h _ hkey).append hsaid
  cases o with
  | notCommand => decide
  | completed key => exact hafter List.mem_cons_self (by decide)
  | unknownCommand key suggestion =>
    cases suggestion with
    | none => exact hafter List.mem_cons_self (by decide)
    | some suggestion =>
      have hstart : OneLine (key ++ ": unknown command (did you mean ") :=
        hafter List.mem_cons_self (by decide)
      have hsuggestion : OneLine suggestion := h suggestion (by simp [texts])
      have hend : OneLine "?)" := by decide
      exact (hstart.append hsuggestion).append hend
  | wrongArguments key error =>
    have hmessage : OneLine error.message := by cases error <;> decide
    have hstart : OneLine (key ++ ": ") := hafter List.mem_cons_self (by decide)
    exact hstart.append hmessage
  | permissionDenied key missing =>
    have hstart : OneLine (key ++ ": missing permissions ") :=
      hafter List.mem_cons_self (by decide)
    exact hstart.append (oneLine_intercalate fun s hs => h s (List.mem_cons_of_mem key hs))
  | helpRequested key shown =>
    cases shown with
    | true => exact hafter List.mem_cons_self (by decide)
    | false => exact hafter List.mem_cons_self (by decide)
  | preconditionFailed key => exact hafter List.mem_cons_self (by decide)

/-- The texts that a failure is about. -/
def DispatchError.texts : DispatchError → List String
  | lookupFailed error => [error.message]
  | commandFailed key reason => [key, reason]

theorem DispatchError.oneLine_message {e : DispatchError} (h : ∀ text ∈ e.texts, OneLine text) :
    OneLine e.message := by
  cases e with
  | lookupFailed error =>
    have hstart : OneLine "permission lookup failed: " := by decide
    exact hstart.append (h error.message List.mem_cons_self)
  | commandFailed key reason =>
    have hstart : OneLine "command '" := by decide
    have hmiddle : OneLine "' failed: " := by decide
    have hkey : OneLine key := h key List.mem_cons_self
    have hreason : OneLine reason := h reason (by simp [texts])
    exact ((hstart.append hkey).append hmiddle).append hreason

/-- The texts that a result is about. -/
def resultTexts : Except DispatchError (Option Outcome) → List String
  | .ok none => []
  | .ok (some outcome) => outcome.texts
  | .error error => error.texts

namespace Console.Event

theorem onError?_ofEffect? {effect : Effect} {event : Event} (h : ofEffect? effect = some event) :
    event.shown.onError? = none := by
  cases event with
  | sent channel message => rfl
  | sentToOwner guild message => rfl
  | handled id outcome => exact absurd (concluded?_ofEffect? h) nofun
  | editIgnored id => exact absurd (concluded?_ofEffect? h) nofun
  | failed id error => exact absurd (concluded?_ofEffect? h) nofun

/-- A line that starts with the number of a message. -/
theorem oneLine_numbered (id : Nat) {said : String} (h : OneLine said) :
    OneLine ("#" ++ toString id ++ said) ∧
      ("#" ++ toString id ++ said).toList.head? = some '#' := by
  have hsharp : OneLine "#" := by decide
  refine ⟨(hsharp.append (oneLine_toString id)).append h, ?_⟩
  rw [String.toList_append, String.toList_append]
  rfl

/-- If the texts in a result are single lines, so is what standard error shows of the answer. -/
theorem oneLine_of_mem_ofEdit {id : Nat} {answer : Answer (Option Outcome)} {event : Event}
    {text : String} (h : ∀ text ∈ resultTexts answer.result, OneLine text)
    (hevent : event ∈ ofEdit id answer) (htext : event.shown.onError? = some text) :
    OneLine text ∧ text.toList.head? = some '#' := by
  rcases List.mem_append.1 hevent with hsent | hown
  · obtain ⟨effect, -, heffect⟩ := List.mem_filterMap.1 hsent
    rw [onError?_ofEffect? heffect] at htext
    cases htext
  rw [List.mem_singleton] at hown
  subst hown
  cases hresult : answer.result with
  | error error =>
    rw [hresult] at h htext
    cases htext
    have hfailed : OneLine " failed: " := by decide
    have hline := oneLine_numbered id (hfailed.append (error.oneLine_message h))
    rwa [← String.append_assoc] at hline
  | ok outcome =>
    cases outcome with
    | none =>
      rw [hresult] at htext
      cases htext
      exact oneLine_numbered id (by decide)
    | some outcome =>
      rw [hresult] at h htext
      cases htext
      have hblank : OneLine " " := by decide
      have hline := oneLine_numbered id (hblank.append (outcome.oneLine_label h))
      rwa [← String.append_assoc] at hline

end Console.Event

/-! ## Keys -/

theorem Invocation.oneLine_key {text : String} {sigils : List String} {mentions : Mentions}
    {invocation : Invocation} (h : ofText? text sigils mentions = some invocation) :
    OneLine invocation.key := by
  obtain ⟨rest, -, -, hkey, -⟩ := ofText?_eq_some_iff.1 h
  refine oneLine_of_word ?_
  intro c hc
  rw [hkey] at hc
  rw [Bool.eq_false_iff]
  intro hblank
  have hword := isBlank_of_mem_word (isBlank_of_mem_lower hc hblank)
  rw [hblank] at hword
  cases hword

namespace Dispatcher

variable {d : Dispatcher} {m : InboundMessage} {entry : Entry} {ctx : Context}

theorem oneLine_key_of_invoked (h : (d.interpret m).invoked? = some (entry, ctx)) :
    OneLine ctx.key := by
  obtain ⟨invocation, hparsed, -, rfl⟩ := invoked?_interpret_iff.1 h
  exact Invocation.oneLine_key hparsed

theorem mem_entries_of_invoked (h : (d.interpret m).invoked? = some (entry, ctx)) :
    entry ∈ d.table.entries := by
  obtain ⟨invocation, -, hfind, -⟩ := invoked?_interpret_iff.1 h
  exact (Table.find?_eq_some_iff.1 hfind).1

end Dispatcher

/-! ## The demonstration commands -/

/-- An action that ends in a reply. -/
def Action.Replies (ctx : Context) (action : Action) : Prop :=
  (∃ message, action = .reply ctx message) ∨
    ∃ message : List Command → OutboundMessage,
      action = .applicable fun commands => .reply ctx (message commands)

namespace Demo

theorem replies_purge (ctx : Context) (arguments : Binding) :
    (purge ctx arguments).Replies ctx := by
  rw [purge]
  split
  · exact Or.inl ⟨_, rfl⟩
  · split
    · exact Or.inl ⟨_, rfl⟩
    · exact Or.inl ⟨_, rfl⟩

/-- Every demonstration command ends in a reply, and leaves help to the dispatcher. -/
theorem replies_of_mem {entry : Entry} (h : entry ∈ table.entries) :
    (∀ ctx arguments, (entry.handler ctx arguments).Replies ctx) ∧ entry.help = none := by
  obtain ⟨declaration, handler, command, hmem, -, rfl⟩ := exists_of_mem h
  refine ⟨?_, rfl⟩
  intro ctx arguments
  simp only [declarations, List.mem_cons, Prod.mk.injEq, List.not_mem_nil, or_false] at hmem
  rcases hmem with ⟨-, rfl⟩ | ⟨-, rfl⟩ | ⟨-, rfl⟩ | ⟨-, rfl⟩
  · exact Or.inr ⟨_, rfl⟩
  · exact Or.inl ⟨_, rfl⟩
  · exact Or.inl ⟨_, rfl⟩
  · exact replies_purge ctx arguments

theorem oneLine_of_mem_capabilities {entry : Entry} (h : entry ∈ table.entries) {c : Capability}
    (hc : c ∈ entry.command.capabilities) : OneLine c := by
  have hall : (table.entries.all fun entry =>
      entry.command.capabilities.all fun c => decide (OneLine c)) = true := by decide +kernel
  have hentry := List.all_eq_true.1 hall entry h
  exact of_decide_eq_true (List.all_eq_true.1 hentry c hc)

end Demo

theorem Table.perform_reply (t : Table) (p : Platform) (ctx : Context)
    (message : OutboundMessage) :
    (t.perform p ctx (.reply ctx message)).1 =
      (p.send ctx.message.channel message).mapError PlatformError.message := by
  rw [Action.reply, perform]
  cases p.send ctx.message.channel message <;> rfl

/-- A command that ends in a reply fails only with what the platform says about the reply. -/
theorem Table.perform_replies {t : Table} {p : Platform} {ctx : Context} {action : Action}
    {reason : String} (h : action.Replies ctx)
    (hfailed : (t.perform p ctx action).1 = .error reason) :
    ∃ message error, p.send ctx.message.channel message = .error error ∧
      reason = error.message := by
  obtain ⟨message, hreply⟩ : ∃ message, (t.perform p ctx action).1 =
      (p.send ctx.message.channel message).mapError PlatformError.message := by
    rcases h with ⟨message, rfl⟩ | ⟨message, rfl⟩
    · exact ⟨message, t.perform_reply p ctx message⟩
    · exact ⟨message (t.applicable ctx), t.perform_reply p ctx _⟩
  refine ⟨message, ?_⟩
  rw [hreply] at hfailed
  cases hsend : p.send ctx.message.channel message with
  | error e =>
    rw [hsend] at hfailed
    cases hfailed
    exact ⟨e, rfl, rfl⟩
  | ok done =>
    rw [hsend] at hfailed
    cases hfailed

namespace CommandLine

/-- What the console says about a locked channel. -/
theorem oneLine_of_send_error {options : RunOptions} {channel : Nat} {message : OutboundMessage}
    {error : PlatformError} (h : (platform options).send channel message = .error error) :
    OneLine error.message := by
  rw [platform, Console.platform] at h
  simp only at h
  split at h
  · cases h
    have hstart : OneLine "missing access: cannot send messages in channel " := by decide
    exact hstart.append (oneLine_toString channel)
  · cases h

/-- No text in the result of a message has a line feed. -/
theorem oneLine_texts (options : RunOptions) (settings : Settings) (now : Nat)
    (awaiting : Awaiting) (m : InboundMessage) :
    let answer := (dispatcher settings).handle (platform options) now awaiting m
    ∀ text ∈ resultTexts answer.dispatched.result, OneLine text := by
  intro answer
  rw [Answer.dispatched]
  have hcourse : Dispatcher.Course _ _ m answer.result answer.effects :=
    Dispatcher.course_of_answer rfl
  generalize answer.result = result at hcourse ⊢
  generalize answer.effects = effects at hcourse
  have hkey : ∀ {entry ctx}, ((dispatcher settings).interpret m).invoked? = some (entry, ctx) →
      ∀ text ∈ [ctx.key], OneLine text := by
    intro entry ctx hinvoked text htext
    rw [List.mem_singleton.1 htext]
    exact Dispatcher.oneLine_key_of_invoked hinvoked
  cases hcourse with
  | ignored asked => exact List.forall_mem_nil _
  | unknown asked notice =>
    obtain ⟨invocation, hparsed, -, rfl, rfl⟩ := Dispatcher.of_interpret_unknown asked
    intro text htext
    rcases List.mem_cons.1 htext with rfl | hsuggestion
    · exact Invocation.oneLine_key hparsed
    · have hmem := Suggestion.mem_of_closest (Option.mem_toList.1 hsuggestion)
      exact oneLine_of_word (Demo.declared_table.readsBack hmem).word
  | misused asked notice => exact hkey (congrArg Request.invoked? asked)
  | helpHidden asked unusable => exact hkey (congrArg Request.invoked? asked)
  | helpShown asked usable usual notice => exact hkey (congrArg Request.invoked? asked)
  | helpGiven asked usable own done => exact hkey (congrArg Request.invoked? asked)
  | helpFailed asked usable own failed =>
    -- no demonstration command has help of its own
    have hinvoked := congrArg Request.invoked? asked
    have hnone := (Demo.replies_of_mem (Dispatcher.mem_entries_of_invoked hinvoked)).2
    rw [own] at hnone
    cases hnone
  | lookupFailed asked unanswered => cases unanswered
  | denied asked answered lack lacking notice direct =>
    have hinvoked := congrArg Request.invoked? asked
    intro text htext
    rcases List.mem_cons.1 htext with rfl | hmissing
    · exact Dispatcher.oneLine_key_of_invoked hinvoked
    · exact Demo.oneLine_of_mem_capabilities (Dispatcher.mem_entries_of_invoked hinvoked)
        ((lacking text).1 hmissing).1
  | refused asked answered sufficient unusable => exact hkey (congrArg Request.invoked? asked)
  | completed asked cleared done => exact hkey (congrArg Request.invoked? asked)
  | failed asked cleared failure =>
    have hinvoked := congrArg Request.invoked? asked
    have hreplies := (Demo.replies_of_mem (Dispatcher.mem_entries_of_invoked hinvoked)).1
    obtain ⟨message, error, hsend, rfl⟩ :=
      Table.perform_replies (hreplies _ _) (congrArg Prod.fst failure)
    intro text htext
    rcases List.mem_cons.1 htext with rfl | hreason
    · exact Dispatcher.oneLine_key_of_invoked hinvoked
    · rw [List.mem_singleton.1 hreason]
      exact oneLine_of_send_error hsend

/-- What is shown on standard error of the session is one line for each event. -/
theorem oneLine_shown {options : RunOptions} {settings : Settings} {clock : Nat → Nat}
    {input : String} {event : Console.Event} {text : String}
    (hevent : event ∈ (sessionRecords options settings clock input).flatMap Record.events)
    (htext : event.shown.onError? = some text) :
    OneLine text ∧ text.toList.head? = some '#' := by
  obtain ⟨r, hr, hevent⟩ := List.mem_flatMap.1 hevent
  obtain ⟨s, hs, awaiting, rfl⟩ := exists_of_mem_run hr
  refine Console.Event.oneLine_of_mem_ofEdit ?_ hevent htext
  obtain ⟨hdispatcher, hplatform⟩ := Console.Turn.of_mem_steps hs
  rcases s.serve_cases awaiting with ⟨-, hserve⟩ | ⟨-, -, hserve⟩ | ⟨-, hserve⟩
  · rw [hserve]
    exact List.forall_mem_nil _
  · rw [hserve, hdispatcher, hplatform]
    exact oneLine_texts options settings s.now _ s.message
  · rw [hserve, hdispatcher, hplatform]
    exact oneLine_texts options settings s.now _ s.message

end CommandLine

end ChatCommands
