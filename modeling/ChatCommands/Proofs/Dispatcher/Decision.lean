import ChatCommands.CommandLine
import ChatCommands.Proofs.Dispatcher.Course

/-!
# What is decided about a message

What becomes of a message is decided by what it asks for and, if it is ready to be executed, by the
permissions in its channel (`Decision.ofRequest`). Either there is a result at once, or a handler or
help is started and has the last word. All that the dispatcher does on the way is to carry the
decision out (`Dispatcher.leadsTo_handle`). Whether its notices arrive has no part in the decision,
so failures of delivery change neither what is started nor which messages are awaited nor any
result that is the dispatcher's own (`Dispatcher.delivery_decides_nothing`).
-/

namespace ChatCommands

/-- What is decided about a message. -/
inductive Decision where
  /-- Nothing is started, and this is the result. -/
  | settle (result : Except DispatchError Outcome)
  /-- A handler or help is started for a key. It fails, or this is the outcome. -/
  | start (effect : Effect) (key : String) (outcome : Outcome)

namespace Decision

/-- The decision about a message that asks for help. -/
def ofHelp (entry : Entry) (ctx : Context) : Decision :=
  if !entry.applies ctx then .settle (.ok (.helpRequested ctx.key false))
  else if entry.help.isNone then .settle (.ok (.helpRequested ctx.key true))
  else .start (.help entry.command ctx) ctx.key (.helpRequested ctx.key true)

/-- The decision about a message that is ready to be executed, by the answer to the question for
permissions. -/
def ofReady (answer : Except PlatformError (List Capability)) (entry : Entry) (ctx : Context)
    (arguments : Binding) : Decision :=
  match answer with
  | .error error => .settle (.error (.lookupFailed error))
  | .ok granted =>
    let missing := entry.command.capabilities.filter fun c => !granted.contains c
    if !missing.isEmpty then .settle (.ok (.permissionDenied ctx.key missing))
    else if !entry.applies ctx then .settle (.ok (.preconditionFailed ctx.key))
    else .start (.run entry.command ctx arguments) ctx.key (.completed ctx.key)

/-- The decision about what a message asks for. -/
def ofRequest (answer : Except PlatformError (List Capability)) : Request → Decision
  | .nothing => .settle (.ok .notCommand)
  | .unknown _ _ key suggestion => .settle (.ok (.unknownCommand key suggestion))
  | .help entry ctx => ofHelp entry ctx
  | .misused _ ctx error => .settle (.ok (.wrongArguments ctx.key error))
  | .ready entry ctx arguments => ofReady answer entry ctx arguments

/-- A decision is carried out with a result and effects. -/
inductive LeadsTo : Decision → Except DispatchError Outcome → List Effect → Prop
  | settled {result : Except DispatchError Outcome} {effects : List Effect}
    (nothing : starts effects = []) : LeadsTo (.settle result) result effects
  | finished {effect : Effect} {key : String} {outcome : Outcome} {effects : List Effect}
    (once : starts effects = [effect]) : LeadsTo (.start effect key outcome) (.ok outcome) effects
  | failed {effect : Effect} {key reason : String} {outcome : Outcome} {effects : List Effect}
    (once : starts effects = [effect]) :
    LeadsTo (.start effect key outcome) (.error (.commandFailed key reason)) effects

/-- Two ways to carry out one decision start the same and, if that is nothing, have the same
result. -/
theorem LeadsTo.agree {decision : Decision} {result result' : Except DispatchError Outcome}
    {effects effects' : List Effect} (h : decision.LeadsTo result effects)
    (h' : decision.LeadsTo result' effects') :
    starts effects = starts effects' ∧ (starts effects = [] → result = result') := by
  have hstarted {effect : Effect} (honce : starts effects = [effect])
      (honce' : starts effects' = [effect]) :
      starts effects = starts effects' ∧ (starts effects = [] → result = result') := by
    refine ⟨honce.trans honce'.symm, ?_⟩
    intro hnone
    rw [honce] at hnone
    cases hnone
  cases h with
  | settled hnone =>
    cases h' with
    | settled hnone' => exact ⟨hnone.trans hnone'.symm, fun _ => rfl⟩
  | finished honce =>
    cases h' with
    | finished honce' => exact hstarted honce honce'
    | failed honce' => exact hstarted honce honce'
  | failed honce =>
    cases h' with
    | finished honce' => exact hstarted honce honce'
    | failed honce' => exact hstarted honce honce'

/-- Only a start can end in the failure of a command. -/
theorem LeadsTo.started_of_commandFailed {decision : Decision} {key reason : String}
    {effects : List Effect} (h : decision.LeadsTo (.error (.commandFailed key reason)) effects)
    (hne : decision ≠ .settle (.error (.commandFailed key reason))) :
    ∃ effect, starts effects = [effect] := by
  cases h with
  | settled => exact absurd rfl hne
  | failed once => exact ⟨_, once⟩

theorem ofHelp_cases (entry : Entry) (ctx : Context) :
    (∃ shown, ofHelp entry ctx = .settle (.ok (.helpRequested ctx.key shown))) ∨
    ofHelp entry ctx = .start (.help entry.command ctx) ctx.key (.helpRequested ctx.key true) := by
  unfold ofHelp
  split
  · exact Or.inl ⟨false, rfl⟩
  split
  · exact Or.inl ⟨true, rfl⟩
  · exact Or.inr rfl

theorem ofReady_cases (answer : Except PlatformError (List Capability)) (entry : Entry)
    (ctx : Context) (arguments : Binding) :
    (∃ error, ofReady answer entry ctx arguments = .settle (.error (.lookupFailed error))) ∨
    (∃ missing,
      ofReady answer entry ctx arguments = .settle (.ok (.permissionDenied ctx.key missing))) ∨
    ofReady answer entry ctx arguments = .settle (.ok (.preconditionFailed ctx.key)) ∨
    ofReady answer entry ctx arguments =
      .start (.run entry.command ctx arguments) ctx.key (.completed ctx.key) := by
  cases answer with
  | error error => exact Or.inl ⟨error, rfl⟩
  | ok granted =>
    simp only [ofReady]
    split
    · exact Or.inr (Or.inl ⟨_, rfl⟩)
    split
    · exact Or.inr (Or.inr (Or.inl rfl))
    · exact Or.inr (Or.inr (Or.inr rfl))

/-- The failure of a command is never decided. -/
theorem ofRequest_ne_commandFailed (answer : Except PlatformError (List Capability))
    (request : Request) {key reason : String} :
    ofRequest answer request ≠ .settle (.error (.commandFailed key reason)) := by
  intro h
  cases request with
  | nothing => cases h
  | unknown => cases h
  | misused => cases h
  | help entry ctx =>
    rw [ofRequest] at h
    rcases ofHelp_cases entry ctx with ⟨shown, hsettle⟩ | hstart
    · cases hsettle.symm.trans h
    · cases hstart.symm.trans h
  | ready entry ctx arguments =>
    rw [ofRequest] at h
    rcases ofReady_cases answer entry ctx arguments with
      ⟨error, hfailed⟩ | ⟨missing, hdenied⟩ | hrefused | hstart
    · cases hfailed.symm.trans h
    · cases hdenied.symm.trans h
    · cases hrefused.symm.trans h
    · cases hstart.symm.trans h

end Decision

namespace Dispatcher

open Decision (LeadsTo)

variable (d : Dispatcher) (p : Platform)

theorem leadsTo_showHelp (entry : Entry) (ctx : Context) :
    (Decision.ofHelp entry ctx).LeadsTo (d.showHelp p entry ctx).1 (d.showHelp p entry ctx).2 := by
  have hstarts := d.starts_showHelp p entry ctx
  rw [showHelp] at hstarts ⊢
  rw [Decision.ofHelp]
  cases happlies : entry.applies ctx with
  | false => exact .settled (starts_checks entry ctx)
  | true =>
    cases hhelp : entry.help with
    | none =>
      simp only [happlies, hhelp] at hstarts
      exact .settled hstarts
    | some help =>
      simp only [happlies, hhelp, Bool.not_true, Bool.false_eq_true, if_false] at hstarts ⊢
      rcases hperform : d.table.perform p ctx (help ctx) with ⟨result, effects⟩
      rw [hperform] at hstarts
      cases result with
      | ok done => exact .finished hstarts
      | error reason => exact .failed hstarts

theorem leadsTo_execute (entry : Entry) (ctx : Context) (arguments : Binding) :
    (Decision.ofReady (p.permissions ctx.message.channel) entry ctx arguments).LeadsTo
      (d.execute p entry ctx arguments).1 (d.execute p entry ctx arguments).2 := by
  unfold execute Decision.ofReady
  cases p.permissions ctx.message.channel with
  | error error => exact .settled rfl
  | ok granted =>
    simp only
    split
    · refine .settled ?_
      rw [starts_cons_of_not_isStart rfl, starts_notifyDenial]
    split
    · refine .settled ?_
      rw [starts_cons_of_not_isStart rfl, starts_checks]
    have hstarts : starts (.lookup ctx.message.channel (.ok granted) :: (entry.checks ctx ++
        .run entry.command ctx arguments ::
          (d.table.perform p ctx (entry.handler ctx arguments)).2)) =
        [.run entry.command ctx arguments] := by
      rw [starts_cons_of_not_isStart rfl, starts_append, starts_cons_of_isStart rfl, starts_checks,
        Table.starts_perform, List.nil_append]
    rcases hperform : d.table.perform p ctx (entry.handler ctx arguments) with ⟨result, effects⟩
    rw [hperform] at hstarts
    cases result with
    | ok done => exact .finished hstarts
    | error reason => exact .failed hstarts

/-- **Handling a message carries out the decision about it.** -/
theorem leadsTo_handle (now : Nat) (awaiting : Awaiting) (m : InboundMessage) :
    (Decision.ofRequest (p.permissions m.channel) (d.interpret m)).LeadsTo
      (d.handle p now awaiting m).result (d.handle p now awaiting m).effects := by
  rw [handle]
  cases hrequest : d.interpret m with
  | nothing => exact .settled rfl
  | unknown sigil locale key suggestion => exact .settled rfl
  | help entry ctx => exact d.leadsTo_showHelp p entry ctx
  | misused entry ctx error => exact .settled rfl
  | ready entry ctx arguments =>
    have hexecute := d.leadsTo_execute p entry ctx arguments
    rwa [message_of_interpret_ready hrequest] at hexecute

/-- The platform has no say in which messages are awaited. -/
theorem awaiting_handle_congr (q : Platform) (now : Nat) (awaiting : Awaiting)
    (m : InboundMessage) :
    (d.handle p now awaiting m).awaiting = (d.handle q now awaiting m).awaiting := by
  rw [handle, handle]
  cases d.interpret m <;> rfl

/-- **Failures of delivery decide nothing**: on platforms that give the same answer about the
permissions in the channel of a message, whatever they answer to notices, handling it starts the
same handler or help in the same context with the same arguments, or nothing, and leaves the same
messages awaited. If nothing is started, the result is the same. -/
theorem delivery_decides_nothing {d : Dispatcher} {p q : Platform} {m : InboundMessage}
    (same : p.permissions m.channel = q.permissions m.channel) (now : Nat) (awaiting : Awaiting) :
    let on (platform : Platform) := d.handle platform now awaiting m
    starts (on p).effects = starts (on q).effects ∧ (on p).awaiting = (on q).awaiting ∧
      (starts (on p).effects = [] → (on p).result = (on q).result) := by
  intro on
  have hp := d.leadsTo_handle p now awaiting m
  have hq := d.leadsTo_handle q now awaiting m
  rw [← same] at hq
  obtain ⟨hstarts, hresult⟩ := hp.agree hq
  exact ⟨hstarts, d.awaiting_handle_congr p q now awaiting m, hresult⟩

theorem delivery_decides_nothing_locked :
    let d := CommandLine.dispatcher {}
    let m : InboundMessage :=
      { id := 1, guild := 1, channel := 1, author := 2, content := "!purge 5" }
    let on (platform : Platform) := d.handle platform 0 d.initialAwaiting m
    let opened := Console.platform [] false
    let locked := Console.platform [] true
    opened.permissions m.channel = locked.permissions m.channel ∧
      (on opened).effects.length = 2 ∧ (on locked).effects.length = 3 ∧
      starts (on opened).effects = [] ∧ (on opened).result = (on locked).result := by
  intro d m on opened locked
  have same : opened.permissions m.channel = locked.permissions m.channel := rfl
  have hnone : (starts (on opened).effects).isEmpty = true := by decide +kernel
  have hstarts : starts (on opened).effects = [] := List.isEmpty_iff.1 hnone
  refine ⟨same, by decide +kernel, by decide +kernel, hstarts, ?_⟩
  exact (delivery_decides_nothing same 0 d.initialAwaiting).2.2 hstarts

end Dispatcher

end ChatCommands
