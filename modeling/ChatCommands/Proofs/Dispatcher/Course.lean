import ChatCommands.Proofs.Dispatcher.Gate

/-!
# What happens on the way to a result

`Dispatcher.Course` lists the ways in which a message can be handled: the result of each, and
exactly what happens until then, in order. `Dispatcher.course_of_handle` says that there are no
others. So the result tells how often permissions were asked for, notices were sent, the
precondition was evaluated, and help or a handler was started; in particular that a notice is never
sent twice, and that the owner of a guild hears of missing permissions exactly if the channel is
closed to the bot.

What a handler, or help of its own, does once it is started is the doing of the command. It stands
at the end of a course, as what its action does (`Table.perform`).
-/

namespace ChatCommands.Dispatcher

/-- The attempt to reach the owner of a guild with what could not be said in the channel: it is
made exactly if the bot may not write there. -/
def escalation (p : Platform) (m : InboundMessage) (notice direct : OutboundMessage) :
    List Effect :=
  match p.send m.channel notice with
  | .error (.missingAccess _) => [.sendToOwner m.guild direct (p.sendToOwner m.guild direct)]
  | _ => []

/-- How a message is handled: what it asks for and what is found out, the result, and all that
happens on the way to it. Every question to the platform stands with the answer that the platform
gives to it. -/
inductive Course (d : Dispatcher) (p : Platform) (m : InboundMessage) :
    Except DispatchError Outcome → List Effect → Prop where
  | ignored (asked : d.interpret m = .nothing) : Course d p m (.ok .notCommand) []
  | unknown {sigil locale key : String} {suggestion : Option String}
    (asked : d.interpret m = .unknown sigil locale key suggestion) (notice : OutboundMessage) :
    Course d p m (.ok (.unknownCommand key suggestion)) [notify p m.channel notice]
  | misused {entry : Entry} {ctx : Context} {error : BindingError}
    (asked : d.interpret m = .misused entry ctx error) (notice : OutboundMessage) :
    Course d p m (.ok (.wrongArguments ctx.key error)) [notify p m.channel notice]
  | helpHidden {entry : Entry} {ctx : Context} (asked : d.interpret m = .help entry ctx)
    (unusable : entry.applies ctx = false) :
    Course d p m (.ok (.helpRequested ctx.key false)) [.check entry.command ctx false]
  | helpShown {entry : Entry} {ctx : Context} (asked : d.interpret m = .help entry ctx)
    (usable : entry.applies ctx = true) (usual : entry.help = none) (notice : OutboundMessage) :
    Course d p m (.ok (.helpRequested ctx.key true))
      (entry.checks ctx ++ [notify p m.channel notice])
  | helpGiven {entry : Entry} {ctx : Context} {help : Context → Action} {effects : List Effect}
    (asked : d.interpret m = .help entry ctx) (usable : entry.applies ctx = true)
    (own : entry.help = some help) (done : d.table.perform p ctx (help ctx) = (.ok (), effects)) :
    Course d p m (.ok (.helpRequested ctx.key true))
      (entry.checks ctx ++ .help entry.command ctx :: effects)
  | helpFailed {entry : Entry} {ctx : Context} {help : Context → Action} {reason : String}
    {effects : List Effect} (asked : d.interpret m = .help entry ctx)
    (usable : entry.applies ctx = true) (own : entry.help = some help)
    (failed : d.table.perform p ctx (help ctx) = (.error reason, effects)) :
    Course d p m (.error (.commandFailed ctx.key reason))
      (entry.checks ctx ++ .help entry.command ctx :: effects)
  | lookupFailed {entry : Entry} {ctx : Context} {arguments : Binding} {error : PlatformError}
    (asked : d.interpret m = .ready entry ctx arguments)
    (unanswered : p.permissions m.channel = .error error) :
    Course d p m (.error (.lookupFailed error)) [.lookup m.channel (.error error)]
  | denied {entry : Entry} {ctx : Context} {arguments : Binding} {granted missing : List Capability}
    (asked : d.interpret m = .ready entry ctx arguments)
    (answered : p.permissions m.channel = .ok granted) (lack : missing ≠ [])
    (lacking : ∀ c, c ∈ missing ↔ c ∈ entry.command.capabilities ∧ c ∉ granted)
    (notice direct : OutboundMessage) :
    Course d p m (.ok (.permissionDenied ctx.key missing))
      (.lookup m.channel (.ok granted) :: notify p m.channel notice ::
        escalation p m notice direct)
  | refused {entry : Entry} {ctx : Context} {arguments : Binding} {granted : List Capability}
    (asked : d.interpret m = .ready entry ctx arguments)
    (answered : p.permissions m.channel = .ok granted)
    (sufficient : ∀ c ∈ entry.command.capabilities, c ∈ granted)
    (unusable : entry.applies ctx = false) :
    Course d p m (.ok (.preconditionFailed ctx.key))
      [.lookup m.channel (.ok granted), .check entry.command ctx false]
  | completed {entry : Entry} {ctx : Context} {arguments : Binding} {granted : List Capability}
    {effects : List Effect} (asked : d.interpret m = .ready entry ctx arguments)
    (cleared : Cleared p entry ctx granted)
    (done : d.table.perform p ctx (entry.handler ctx arguments) = (.ok (), effects)) :
    Course d p m (.ok (.completed ctx.key))
      (.lookup m.channel (.ok granted) ::
        (entry.checks ctx ++ .run entry.command ctx arguments :: effects))
  | failed {entry : Entry} {ctx : Context} {arguments : Binding} {granted : List Capability}
    {reason : String} {effects : List Effect} (asked : d.interpret m = .ready entry ctx arguments)
    (cleared : Cleared p entry ctx granted)
    (failure : d.table.perform p ctx (entry.handler ctx arguments) = (.error reason, effects)) :
    Course d p m (.error (.commandFailed ctx.key reason))
      (.lookup m.channel (.ok granted) ::
        (entry.checks ctx ++ .run entry.command ctx arguments :: effects))

variable {d : Dispatcher} {p : Platform} {m : InboundMessage} {entry : Entry} {ctx : Context}

/-! ## The stages -/

theorem message_of_interpret_help (h : d.interpret m = .help entry ctx) : ctx.message = m := by
  obtain ⟨invocation, -, -, rfl⟩ := invoked?_interpret_iff.1 (congrArg Request.invoked? h)
  rfl

theorem message_of_interpret_ready {arguments : Binding}
    (h : d.interpret m = .ready entry ctx arguments) : ctx.message = m := by
  obtain ⟨invocation, -, -, -, -, rfl⟩ := interpret_eq_ready_iff.1 h
  rfl

/-- A command that cannot be used has a precondition, which is evaluated once. -/
theorem checks_of_not_applies (h : entry.applies ctx = false) :
    entry.checks ctx = [.check entry.command ctx false] := by
  rw [Entry.applies] at h
  rw [Entry.checks]
  cases hprecondition : entry.precondition with
  | none =>
    rw [hprecondition] at h
    cases h
  | some test =>
    have hfails : test ctx = false := by rwa [hprecondition, Option.all_some] at h
    rw [Option.toList_some, List.map_singleton, hfails]

/-- Saying that permissions are missing: one notice, and its escalation. -/
theorem notifyDenial_eq (p : Platform) {missing : List Capability} {title body : String}
    (h : denial ctx missing = (title, body)) :
    notifyDenial p ctx missing = notify p ctx.message.channel (.titledError title body) ::
      escalation p ctx.message (.titledError title body) (.info title body) := by
  rw [notifyDenial, h]
  simp only
  rw [escalation, notify]
  -- of all failures only missing access has a second notice
  cases p.send ctx.message.channel (.titledError title body) with
  | ok sent => rfl
  | error e => cases e <;> rfl

theorem course_showHelp (h : d.interpret m = .help entry ctx) :
    Course d p m (d.showHelp p entry ctx).1 (d.showHelp p entry ctx).2 := by
  rw [showHelp, message_of_interpret_help h]
  cases happlies : entry.applies ctx with
  | false =>
    rw [Bool.not_false, if_pos rfl, checks_of_not_applies happlies]
    exact .helpHidden h happlies
  | true =>
    cases hhelp : entry.help with
    | none => exact .helpShown h happlies hhelp _
    | some help =>
      simp only [Bool.not_true, Bool.false_eq_true, if_false]
      rcases hperform : d.table.perform p ctx (help ctx) with ⟨result, effects⟩
      cases result with
      | ok done => exact .helpGiven h happlies hhelp hperform
      | error reason => exact .helpFailed h happlies hhelp hperform

theorem course_execute {arguments : Binding} (h : d.interpret m = .ready entry ctx arguments) :
    Course d p m (d.execute p entry ctx arguments).1 (d.execute p entry ctx arguments).2 := by
  have hmessage : ctx.message = m := message_of_interpret_ready h
  rw [execute, hmessage]
  cases hanswer : p.permissions m.channel with
  | error error =>
    -- without an answer nothing else is tried
    exact .lookupFailed h hanswer
  | ok granted =>
    simp only
    generalize hmissing :
      (entry.command.capabilities.filter fun c => !granted.contains c) = missing
    by_cases hnone : missing = []
    · subst hnone
      have hsufficient := missing_eq_nil_iff.1 hmissing
      simp only [List.isEmpty_nil, Bool.not_true, Bool.false_eq_true, if_false]
      cases happlies : entry.applies ctx with
      | false =>
        rw [Bool.not_false, if_pos rfl, checks_of_not_applies happlies]
        exact .refused h hanswer hsufficient happlies
      | true =>
        have hcleared : Cleared p entry ctx granted :=
          ⟨hmessage ▸ hanswer, hsufficient, happlies⟩
        rcases hperform : d.table.perform p ctx (entry.handler ctx arguments)
          with ⟨result, effects⟩
        cases result with
        | ok done => exact .completed h hcleared hperform
        | error reason => exact .failed h hcleared hperform
    · rw [if_pos (by simpa using hnone), notifyDenial_eq p rfl, hmessage]
      refine .denied h hanswer hnone ?_ _ _
      intro c
      rw [← hmissing, List.mem_filter]
      simp

/-- Every answer to a message is the end of a course. -/
theorem course_of_answer {now : Nat} {awaiting : Awaiting} {answer : Answer Outcome}
    (h : d.handle p now awaiting m = answer) : Course d p m answer.result answer.effects := by
  rw [← h, handle]
  cases hrequest : d.interpret m with
  | nothing => exact .ignored hrequest
  | unknown sigil locale key suggestion => exact .unknown hrequest _
  | help entry ctx => exact course_showHelp hrequest
  | misused entry ctx error => exact .misused hrequest _
  | ready entry ctx arguments => exact course_execute hrequest

/-- **Effects by result**: handling a message takes one of the courses, whatever is awaited and
whatever fails on the platform. -/
theorem course_of_handle (d : Dispatcher) (p : Platform) (now : Nat) (awaiting : Awaiting)
    (m : InboundMessage) :
    Course d p m (d.handle p now awaiting m).result (d.handle p now awaiting m).effects :=
  course_of_answer rfl

end ChatCommands.Dispatcher
