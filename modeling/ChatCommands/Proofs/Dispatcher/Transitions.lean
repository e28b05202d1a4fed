import ChatCommands.Proofs.Dispatcher.Decision
import ChatCommands.Proofs.Dispatcher.Retry

/-!
# Transitions of the awaiting set

What handling a message or an edit of it does to the set of awaited messages, told by the result
(`awaiting_transitions`): other messages stay as they are, and `awaitedAfter` says for every result
whether its own message is awaited then. A failed command has two readings. If its handler was
started, the mark was taken away before; if its help was started, nothing was done to the mark.

The law is about a time during which no mark runs out (`Awaiting.Lasting`).
-/

namespace ChatCommands

namespace Awaiting

/-- Until a time `t` no mark runs out, neither one that counts now nor one that is made now. -/
structure Lasting (a : Awaiting) (now t : Nat) : Prop where
  later : now ≤ t
  fresh : a.isLive t now = true
  kept : ∀ mark ∈ a.marks, a.isLive now mark.2 = true → a.isLive t mark.2 = true

variable {a : Awaiting} {now t : Nat}

/-- Meanwhile the same messages are awaited, unless something is done to their marks. -/
theorem Lasting.isAwaiting_eq (h : a.Lasting now t) (id : Nat) :
    a.isAwaiting t id = a.isAwaiting now id := by
  rw [Bool.eq_iff_iff, isAwaiting_iff, isAwaiting_iff]
  refine exists_congr fun time => and_congr_right fun hmem => ?_
  exact ⟨isLive_of_le h.later, h.kept (id, time) hmem⟩

theorem Lasting.clear (h : a.Lasting now t) (id : Nat) : (a.clear id).Lasting now t where
  later := h.later
  fresh := h.fresh
  kept mark hmark := h.kept mark (mem_clear_iff.1 hmark).1

/-- Taking away the mark of a message that has none changes nothing. -/
theorem clear_of_not_marked {id : Nat} (h : ¬ a.Marked id) : a.clear id = a := by
  have hmarks : a.marks.filter (·.1 != id) = a.marks := by
    rw [List.filter_eq_self]
    rintro ⟨id', time⟩ hmem
    rw [bne_iff_ne]
    rintro rfl
    exact h ⟨time, hmem⟩
  exact Awaiting.ext rfl hmarks rfl

end Awaiting

/-- Whether a message is awaited after it was handled, by the result and by what was started.
`before` tells whether it was awaited until then. -/
def awaitedAfter (before : Bool) (effects : List Effect) : Except DispatchError Outcome → Bool
  | .ok (.unknownCommand ..) => true
  | .ok (.wrongArguments ..) => true
  | .ok (.permissionDenied ..) => false
  | .ok (.preconditionFailed _) => false
  | .ok (.completed _) => false
  | .ok .notCommand => before
  | .ok (.helpRequested ..) => before
  | .error (.lookupFailed _) => false
  | .error (.commandFailed ..) =>
    match starts effects with
    | [.help ..] => before
    | _ => false

/-- Of a message that was not awaited before, only a mark that is made for it counts. -/
theorem awaitedAfter_false (effects : List Effect) (result : Except DispatchError Outcome) :
    awaitedAfter false effects result = isRepairable result := by
  unfold awaitedAfter
  split <;> first | rfl | (split <;> rfl)

/-- Help, given or not, leaves the mark of the message alone. -/
theorem awaitedAfter_of_help {before : Bool} {entry : Entry} {ctx : Context}
    {result : Except DispatchError Outcome} {effects : List Effect}
    (h : (Decision.ofHelp entry ctx).LeadsTo result effects) :
    awaitedAfter before effects result = before := by
  rcases Decision.ofHelp_cases entry ctx with ⟨shown, hsettle⟩ | hstart
  · rw [hsettle] at h
    cases h
    rfl
  · rw [hstart] at h
    cases h with
    | finished once => rfl
    | failed once => rw [awaitedAfter, once]

/-- A message that was ready to be executed is not awaited, whatever came of it. -/
theorem awaitedAfter_of_ready {before : Bool} {answer : Except PlatformError (List Capability)}
    {entry : Entry} {ctx : Context} {arguments : Binding} {result : Except DispatchError Outcome}
    {effects : List Effect}
    (h : (Decision.ofReady answer entry ctx arguments).LeadsTo result effects) :
    awaitedAfter before effects result = false := by
  rcases Decision.ofReady_cases answer entry ctx arguments with
    ⟨error, hfailed⟩ | ⟨missing, hdenied⟩ | hrefused | hstart
  · rw [hfailed] at h
    cases h
    rfl
  · rw [hdenied] at h
    cases h
    rfl
  · rw [hrefused] at h
    cases h
    rfl
  · rw [hstart] at h
    cases h with
    | finished once => rfl
    | failed once => rw [awaitedAfter, once]

namespace Dispatcher

/-- If a command failed, its help was started or its handler was, and nothing else. -/
theorem started_of_commandFailed {d : Dispatcher} {p : Platform} {now : Nat} {a : Awaiting}
    {m : InboundMessage} {key reason : String}
    (h : (d.handle p now a m).result = .error (.commandFailed key reason)) :
    ∃ command ctx, starts (d.handle p now a m).effects = [.help command ctx] ∨
      ∃ arguments, starts (d.handle p now a m).effects = [.run command ctx arguments] := by
  have hleads := d.leadsTo_handle p now a m
  rw [h] at hleads
  obtain ⟨effect, honce⟩ :=
    hleads.started_of_commandFailed (Decision.ofRequest_ne_commandFailed _ _)
  have hmem : effect ∈ starts (d.handle p now a m).effects := by
    rw [honce]
    exact List.mem_singleton_self effect
  have hstart : effect.isStart = true := (List.mem_filter.1 hmem).2
  cases effect with
  | help command ctx => exact ⟨command, ctx, Or.inl honce⟩
  | run command ctx arguments => exact ⟨command, ctx, Or.inr ⟨arguments, honce⟩⟩
  | lookup channel answer => cases hstart
  | send channel message answer => cases hstart
  | sendToOwner guild message answer => cases hstart
  | check command ctx passed => cases hstart

/-- Whether a message is awaited after it was handled goes by the result. -/
theorem isAwaiting_handle {d : Dispatcher} {p : Platform} {now t : Nat} {a : Awaiting}
    {m : InboundMessage} (lasting : a.Lasting now t) :
    (d.handle p now a m).awaiting.isAwaiting t m.id =
      awaitedAfter (a.isAwaiting t m.id) (d.handle p now a m).effects
        (d.handle p now a m).result := by
  rw [handle]
  cases d.interpret m with
  | nothing => rfl
  | unknown sigil locale key suggestion =>
    show (a.mark now m.id).isAwaiting t m.id = true
    rw [Awaiting.isAwaiting_mark a lasting.later, if_pos rfl, lasting.fresh]
  | help entry ctx => exact (awaitedAfter_of_help (d.leadsTo_showHelp p entry ctx)).symm
  | misused entry ctx error =>
    show (a.mark now m.id).isAwaiting t m.id = true
    rw [Awaiting.isAwaiting_mark a lasting.later, if_pos rfl, lasting.fresh]
  | ready entry ctx arguments =>
    show (a.clear m.id).isAwaiting t m.id =
      awaitedAfter _ (d.execute p entry ctx arguments).2 (d.execute p entry ctx arguments).1
    rw [Awaiting.isAwaiting_clear, bne_self_eq_false, Bool.false_and,
      awaitedAfter_of_ready (d.leadsTo_execute p entry ctx arguments)]

theorem handleEdit_of_not_isAwaiting {d : Dispatcher} {p : Platform} {now : Nat} {a : Awaiting}
    {m : InboundMessage} (h : a.isAwaiting now m.id = false) :
    d.handleEdit p now a m = { result := .ok none, effects := [], awaiting := a.clear m.id } := by
  rw [handleEdit, Awaiting.take, h]
  rfl

theorem handleEdit_result_eq_none_iff {d : Dispatcher} {p : Platform} {now : Nat} {a : Awaiting}
    {m : InboundMessage} :
    (d.handleEdit p now a m).result = .ok none ↔ a.isAwaiting now m.id = false := by
  cases hawaited : a.isAwaiting now m.id with
  | false => simp [handleEdit_of_not_isAwaiting hawaited]
  | true =>
    rw [handleEdit_of_isAwaiting hawaited, Answer.dispatched]
    cases (d.handle p now (a.clear m.id) m).result <;> simp [Except.map]

/-- An edit that is not awaited has no effect and changes nothing: at most it takes away a mark that
does not count any more. -/
theorem handleEdit_changes_nothing {d : Dispatcher} {p : Platform} {now t : Nat} {a : Awaiting}
    {m : InboundMessage} (lasting : a.Lasting now t)
    (h : a.isAwaiting now m.id = false) :
    let edited := d.handleEdit p now a m
    edited.effects = [] ∧ (∀ id, edited.awaiting.isAwaiting t id = a.isAwaiting now id) ∧
      ((∀ mark ∈ a.marks, a.isLive now mark.2 = true) → edited.awaiting = a) := by
  intro edited
  have hedited : edited = { result := .ok none, effects := [], awaiting := a.clear m.id } :=
    handleEdit_of_not_isAwaiting h
  rw [hedited]
  refine ⟨rfl, ?_, ?_⟩
  · intro id
    rw [Awaiting.isAwaiting_clear, lasting.isAwaiting_eq]
    by_cases hid : id = m.id
    · rw [hid, h, Bool.and_false]
    · rw [bne_iff_ne.2 hid, Bool.true_and]
  · intro hlive
    refine Awaiting.clear_of_not_marked fun hmarked => ?_
    rw [(Awaiting.isAwaiting_iff_marked hlive).2 hmarked] at h
    cases h

/-- Whether a message is awaited after an edit of it that was awaited goes by the result, too: only
a result that an edit can repair leaves it awaited. -/
theorem isAwaiting_handleEdit {d : Dispatcher} {p : Platform} {now t : Nat} {a : Awaiting}
    {m : InboundMessage} (lasting : a.Lasting now t)
    (awaited : a.isAwaiting now m.id = true) :
    (d.handleEdit p now a m).awaiting.isAwaiting t m.id =
      isFaulty (d.handleEdit p now a m).result := by
  rw [handleEdit_of_isAwaiting awaited]
  show (d.handle p now (a.clear m.id) m).awaiting.isAwaiting t m.id = isFaulty (Except.map some _)
  rw [isAwaiting_handle (lasting.clear m.id), Awaiting.isAwaiting_clear, bne_self_eq_false,
    Bool.false_and, awaitedAfter_false, isFaulty_map_some]

/-- Neither a message nor an edit has a say in whether another message is awaited. -/
theorem isAwaiting_other {d : Dispatcher} {p : Platform} {now t id : Nat} {a : Awaiting}
    {m : InboundMessage} (hle : now ≤ t) (hne : id ≠ m.id) :
    (d.handle p now a m).awaiting.isAwaiting t id = a.isAwaiting t id ∧
      (d.handleEdit p now a m).awaiting.isAwaiting t id = a.isAwaiting t id := by
  let s : Step := { dispatcher := d, platform := p, now, edited := true, message := m }
  have hedit : Awaiting.Agree now id (s.serve a).awaiting a :=
    s.agree_serve_other a hne
  exact ⟨(d.agree_handle_other p now m a hne).awaited t hle, hedit.awaited t hle⟩

/-- **The transition law** of the awaiting set, while no mark runs out. A message or an edit changes
nothing about other messages. A message that was handled is awaited as its result says. An edit
gives no result exactly if it was not awaited, and then it has no effect and changes nothing; if it
was awaited, its message is awaited afterwards exactly if the edit, too, can be repaired by another
one, and so not after an error. -/
theorem awaiting_transitions {d : Dispatcher} {p : Platform} {now t : Nat} {a : Awaiting}
    {m : InboundMessage} (lasting : a.Lasting now t) :
    let handled := d.handle p now a m
    let edited := d.handleEdit p now a m
    (∀ id, id ≠ m.id → handled.awaiting.isAwaiting t id = a.isAwaiting now id ∧
      edited.awaiting.isAwaiting t id = a.isAwaiting now id) ∧
    handled.awaiting.isAwaiting t m.id =
      awaitedAfter (a.isAwaiting now m.id) handled.effects handled.result ∧
    (∀ key reason, handled.result = .error (.commandFailed key reason) →
      ∃ command ctx, starts handled.effects = [.help command ctx] ∨
        ∃ arguments, starts handled.effects = [.run command ctx arguments]) ∧
    (edited.result = .ok none ↔ a.isAwaiting now m.id = false) ∧
    (edited.result = .ok none → edited.effects = [] ∧
      (∀ id, edited.awaiting.isAwaiting t id = a.isAwaiting now id) ∧
      ((∀ mark ∈ a.marks, a.isLive now mark.2 = true) → edited.awaiting = a)) ∧
    (a.isAwaiting now m.id = true →
      edited.awaiting.isAwaiting t m.id = isFaulty edited.result ∧
      ∀ error, edited.result = .error error → edited.awaiting.isAwaiting t m.id = false) := by
  intro handled edited
  have hothers : ∀ id, id ≠ m.id → handled.awaiting.isAwaiting t id = a.isAwaiting now id ∧
      edited.awaiting.isAwaiting t id = a.isAwaiting now id := by
    intro id hne
    rw [← lasting.isAwaiting_eq]
    exact isAwaiting_other lasting.later hne
  refine ⟨hothers, ?_, fun key reason => started_of_commandFailed, handleEdit_result_eq_none_iff,
    ?_, ?_⟩
  · rw [← lasting.isAwaiting_eq]
    exact isAwaiting_handle lasting
  · intro hnone
    exact handleEdit_changes_nothing lasting (handleEdit_result_eq_none_iff.1 hnone)
  · intro hawaited
    have hfaulty : edited.awaiting.isAwaiting t m.id = isFaulty edited.result :=
      isAwaiting_handleEdit lasting hawaited
    refine ⟨hfaulty, ?_⟩
    intro error herror
    exact hfaulty.trans (congrArg isFaulty herror)

theorem awaiting_transitions_swept :
    let d := CommandLine.dispatcher {}
    let p := Console.platform ["manage_messages"] false
    let m : InboundMessage :=
      { id := 1, guild := 1, channel := 1, author := 2, content := "!porge 5" }
    let a : Awaiting := { lifetime := some 600000, marks := [(7, 650000), (8, 100)], made := 63 }
    a.Lasting 700100 700200 ∧
      (d.handle p 700100 a m).awaiting.isAwaiting 700200 1 = true ∧
      (d.handle p 700100 a m).awaiting.isAwaiting 700200 7 = true ∧
      (d.handle p 700100 a m).awaiting.size = 2 ∧
      (d.handleEdit p 700100 a m).result = .ok none := by
  intro d p m a
  have lasting : a.Lasting 700100 700200 := ⟨by decide, by decide, by decide⟩
  obtain ⟨hothers, hself, -, hnone, -, -⟩ :=
    awaiting_transitions (d := d) (p := p) (m := m) lasting
  refine ⟨lasting, ?_, ?_, by decide +kernel, hnone.2 (by decide)⟩
  · exact hself.trans (by decide +kernel)
  · exact (hothers 7 (by decide)).1.trans (by decide)

end Dispatcher

end ChatCommands
