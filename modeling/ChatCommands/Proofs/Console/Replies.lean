import ChatCommands.CommandLine
import ChatCommands.Proofs.Dispatcher.Gate

/-!
# Edits of replies

A session keeps its guild and the number of its next message, and nothing else about the messages
that were posted (`State.guild_after`, `State.nextId_le_after`). So an edit comes in with the number
and the guild of the message that it names, but not with what that message replied to. The edit of a
reply is the message that its text would have been if it had been posted by itself
(`Console.edit_of_reply`), and a dispatcher handles such a message as if no reply ever stood for a
first argument (`Dispatcher.handleEdit_withoutReplies`).
-/

namespace ChatCommands

/-! ## Messages that are not replies -/

namespace Dispatcher

/-- The dispatcher for which no reply stands for a first argument. -/
def withoutReplies (d : Dispatcher) : Dispatcher :=
  { d with settings := { d.settings with replyIsFirstArgument := false } }

variable {d : Dispatcher} {m : InboundMessage}

theorem standsForFirst_of_not_reply (h : m.replyTo = none) : d.standsForFirst m = false := by
  rw [standsForFirst, h, Option.isSome_none, Bool.and_false]

theorem interpret_withoutReplies (h : m.replyTo = none) :
    d.withoutReplies.interpret m = d.interpret m := by
  simp only [interpret, h, Option.isSome_none, Bool.and_false]
  rfl

/-- What a message asks for is the one thing about it that replies have a say in. -/
theorem handle_withoutReplies (h : m.replyTo = none) (p : Platform) (now : Nat) (a : Awaiting) :
    d.withoutReplies.handle p now a m = d.handle p now a m := by
  simp only [handle, interpret_withoutReplies h]
  cases d.interpret m <;> rfl

theorem handleEdit_withoutReplies (h : m.replyTo = none) (p : Platform) (now : Nat)
    (a : Awaiting) : d.withoutReplies.handleEdit p now a m = d.handleEdit p now a m := by
  simp only [handleEdit, handle_withoutReplies h]

end Dispatcher

namespace Console

/-! ## What a session keeps -/

namespace State

variable {d : Dispatcher} {p : Platform}

/-- The state after directives, each of which stands with the time at which it comes in. -/
def after (d : Dispatcher) (p : Platform) (state : State) (history : List (Nat × Directive)) :
    State :=
  history.foldl (fun state (now, directive) => (state.step d p now directive).1) state

theorem guild_step (now : Nat) (state : State) (directive : Directive) :
    (state.step d p now directive).1.session.guild = state.session.guild := by
  cases directive <;> rfl

/-- Numbers are not used again. -/
theorem nextId_le_step (now : Nat) (state : State) (directive : Directive) :
    state.session.nextId ≤ (state.step d p now directive).1.session.nextId := by
  cases directive with
  | message text => exact Nat.le_succ _
  | reply target text => exact Nat.le_succ _
  | edit id text => exact Nat.le_refl _
  | quit => exact Nat.le_refl _
  | blank => exact Nat.le_refl _

theorem guild_after (state : State) (history : List (Nat × Directive)) :
    (state.after d p history).session.guild = state.session.guild := by
  induction history generalizing state with
  | nil => rfl
  | cons first rest ih => exact (ih _).trans (guild_step first.1 state first.2)

theorem nextId_le_after (state : State) (history : List (Nat × Directive)) :
    state.session.nextId ≤ (state.after d p history).session.nextId := by
  induction history generalizing state with
  | nil => exact Nat.le_refl _
  | cons first rest ih => exact (nextId_le_step first.1 state first.2).trans (ih _)

end State

/-! ## The edit of a reply -/

/-- **The edit of a reply is not a reply.** A reply is posted with the next number, which no later
message gets. Whatever happens in between, an edit with that number comes in as the message that its
text would have been as a reply in that place, except that it replies to nothing, which is the
message that its text would have been by itself. So while the reply stood for a first argument if
the settings let it, the edit does not: it is served as if replies never did. -/
theorem edit_of_reply (d : Dispatcher) (p : Platform) (start : State)
    (history later : List (Nat × Directive)) (target posted edited : Nat) (text newText : String) :
    let s := start.after d p history
    let id := s.session.nextId
    let reply := (s.session.post text (some target)).1
    let renewed := (s.session.post newText (some target)).1
    let s' := s.after d p ((posted, .reply target text) :: later)
    let edit := s'.session.edit id newText
    let answer := d.withoutReplies.handleEdit p edited s'.awaiting edit
    reply.id = id ∧ id < s'.session.nextId ∧
    (s.step d p posted (.reply target text)).2 =
      Event.ofMessage id (d.handle p posted s.awaiting reply) ∧
    edit = { renewed with replyTo := none } ∧ edit = (s.session.post newText none).1 ∧
    d.standsForFirst reply = d.settings.replyIsFirstArgument ∧ d.standsForFirst edit = false ∧
    d.handleEdit p edited s'.awaiting edit = answer ∧
    s'.step d p edited (.edit id newText) =
      ({ s' with awaiting := answer.awaiting }, Event.ofEdit id answer) := by
  intro s id reply renewed s' edit answer
  have hguild : s'.session.guild = s.session.guild := s.guild_after _
  have hid : id < s'.session.nextId :=
    (s.step d p posted (.reply target text)).1.nextId_le_after later
  have hedit : edit = { renewed with replyTo := none } := by
    show s'.session.message id newText none = s.session.message id newText none
    rw [Session.message, Session.message, hguild]
  have hanswer : d.handleEdit p edited s'.awaiting edit = answer :=
    (Dispatcher.handleEdit_withoutReplies rfl p edited s'.awaiting).symm
  refine ⟨rfl, hid, rfl, hedit, hedit, ?_, ?_, hanswer, ?_⟩
  · exact Bool.and_true _
  · exact Dispatcher.standsForFirst_of_not_reply rfl
  · rw [← hanswer]
    rfl

/-- A reply that misspells `echo` is edited: the edit is not the reply that it would have been in
the first place, and while that one stands for the text to say, the edit says too little. -/
theorem not_edited_as_reply :
    let d := CommandLine.dispatcher {}
    let p := CommandLine.platform {}
    let start := CommandLine.initialState {} {}
    let s := start.after d p [(0, .reply 7 "!ehco")]
    (start.session.post "!ehco" (some 7)).1.id = 1 ∧
    s.session.edit 1 "!echo" ≠ (start.session.post "!echo" (some 7)).1 ∧
    (s.session.edit 1 "!echo").replyTo = none ∧
    .handled 1 (.wrongArguments "echo" .tooFewArguments) ∈ (s.step d p 0 (.edit 1 "!echo")).2 ∧
    .handled 1 (.completed "echo") ∈ (start.step d p 0 (.reply 7 "!echo")).2 := by
  decide +kernel

end Console

end ChatCommands
