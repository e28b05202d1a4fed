import ChatCommands.Dispatcher

/-!
# What a dispatcher starts

The effects that start a handler or help of a command, among all effects of handling a message.
Evaluations of preconditions, notices and the doings of actions start nothing
(`Table.starts_perform`), so what is started is only what the dispatcher starts itself.
-/

namespace ChatCommands

/-- Whether an effect is the start of a handler or of help that a command gives itself. -/
def Effect.isStart : Effect → Bool
  | .run .. => true
  | .help .. => true
  | _ => false

/-- The starts among effects, in order. -/
def starts (effects : List Effect) : List Effect :=
  effects.filter Effect.isStart

@[simp] theorem starts_append (before after : List Effect) :
    starts (before ++ after) = starts before ++ starts after :=
  List.filter_append before after

theorem starts_cons_of_isStart {e : Effect} (h : e.isStart = true) (effects : List Effect) :
    starts (e :: effects) = e :: starts effects :=
  List.filter_cons_of_pos h

theorem starts_cons_of_not_isStart {e : Effect} (h : e.isStart = false) (effects : List Effect) :
    starts (e :: effects) = starts effects :=
  List.filter_cons_of_neg (by simp [h])

@[simp] theorem starts_checks (e : Entry) (ctx : Context) : starts (e.checks ctx) = [] := by
  rw [Entry.checks]
  cases e.precondition <;> rfl

@[simp] theorem Table.starts_checks (t : Table) (ctx : Context) : starts (t.checks ctx) = [] := by
  rw [Table.checks]
  induction t.entries with
  | nil => rfl
  | cons e entries ih =>
    rw [List.flatMap_cons, starts_append, ih, ChatCommands.starts_checks, List.append_nil]

/-- An action starts nothing: induction over what it asks for. -/
@[simp] theorem Table.starts_perform (t : Table) (p : Platform) (ctx : Context) (action : Action) :
    starts (t.perform p ctx action).2 = [] := by
  induction action with
  | finish result => rfl
  | send channel message next ih =>
    exact (starts_cons_of_not_isStart rfl _).trans (ih (p.send channel message))
  | sendToOwner guild message next ih =>
    exact (starts_cons_of_not_isStart rfl _).trans (ih (p.sendToOwner guild message))
  | permissions channel next ih =>
    exact (starts_cons_of_not_isStart rfl _).trans (ih (p.permissions channel))
  | applicable next ih =>
    show starts (t.checks ctx ++ (t.perform p ctx (next (t.applicable ctx))).2) = []
    rw [starts_append, ih, Table.starts_checks, List.append_nil]

namespace Dispatcher

@[simp] theorem starts_notify (p : Platform) (channel : Nat) (message : OutboundMessage) :
    starts [notify p channel message] = [] := rfl

@[simp] theorem starts_notifyDenial (p : Platform) (ctx : Context) (missing : List Capability) :
    starts (notifyDenial p ctx missing) = [] := by
  rw [notifyDenial]
  simp only
  split <;> rfl

/-- Help starts exactly if the command can be used and gives help itself. -/
theorem starts_showHelp (d : Dispatcher) (p : Platform) (entry : Entry) (ctx : Context) :
    starts (d.showHelp p entry ctx).2 =
      if entry.applies ctx && entry.help.isSome then [.help entry.command ctx] else [] := by
  rw [showHelp]
  cases happlies : entry.applies ctx with
  | false => exact ChatCommands.starts_checks entry ctx
  | true =>
    cases entry.help with
    | none =>
      show starts (entry.checks ctx ++
        [notify p ctx.message.channel (helpNotice ctx entry.command)]) = []
      rw [starts_append, ChatCommands.starts_checks, starts_notify, List.append_nil]
    | some help =>
      have hhelp : starts (entry.checks ctx ++ Effect.help entry.command ctx ::
          (d.table.perform p ctx (help ctx)).2) = [.help entry.command ctx] := by
        rw [starts_append, starts_cons_of_isStart rfl, ChatCommands.starts_checks,
          Table.starts_perform, List.nil_append]
      simp only
      cases (d.table.perform p ctx (help ctx)).1 with
      | ok done => exact hhelp
      | error reason => exact hhelp

end Dispatcher

end ChatCommands
