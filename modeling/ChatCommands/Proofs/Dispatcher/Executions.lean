import ChatCommands.Proofs.Dispatcher.Starts

/-!
# Executions among effects

Which of the effects of handling a message are executions of a command. What starts nothing executes
nothing, and help is no execution; only `Dispatcher.execute` executes commands, at most once, and
`Dispatcher.execute_cases` says all that has happened by then.
-/

namespace ChatCommands

/-- A start of the handler of a command. -/
structure Execution where
  command : Command
  ctx : Context
  arguments : Binding
  deriving DecidableEq, Repr

/-- The execution that an effect is, if it is one. -/
def Effect.execution? : Effect → Option Execution
  | .run command ctx arguments => some { command, ctx, arguments }
  | _ => none

/-- The executions among effects, in order. -/
def executions (effects : List Effect) : List Execution :=
  effects.filterMap Effect.execution?

@[simp] theorem executions_nil : executions [] = [] := rfl

@[simp] theorem executions_append (before after : List Effect) :
    executions (before ++ after) = executions before ++ executions after :=
  List.filterMap_append

theorem executions_cons (e : Effect) (effects : List Effect) :
    executions (e :: effects) = e.execution?.toList ++ executions effects := by
  rw [executions, List.filterMap_cons]
  cases e.execution? <;> rfl

/-! ## What executes nothing -/

/-- Executions are among the starts. -/
theorem executions_starts (effects : List Effect) :
    executions (starts effects) = executions effects := by
  induction effects with
  | nil => rfl
  | cons e effects ih =>
    cases hstart : e.isStart with
    | true => rw [starts_cons_of_isStart hstart, executions_cons, executions_cons, ih]
    | false =>
      have hnone : e.execution? = none := by
        cases e <;> first | rfl | cases hstart
      rw [starts_cons_of_not_isStart hstart, executions_cons, hnone, ih]
      rfl

theorem executions_eq_nil_of_starts {effects : List Effect} (h : starts effects = []) :
    executions effects = [] := by
  rw [← executions_starts, h, executions_nil]

@[simp] theorem executions_checks (e : Entry) (ctx : Context) : executions (e.checks ctx) = [] :=
  executions_eq_nil_of_starts (starts_checks e ctx)

@[simp] theorem Table.executions_perform (t : Table) (p : Platform) (ctx : Context)
    (action : Action) : executions (t.perform p ctx action).2 = [] :=
  executions_eq_nil_of_starts (t.starts_perform p ctx action)

namespace Dispatcher

@[simp] theorem executions_notifyDenial (p : Platform) (ctx : Context)
    (missing : List Capability) : executions (notifyDenial p ctx missing) = [] :=
  executions_eq_nil_of_starts (starts_notifyDenial p ctx missing)

@[simp] theorem executions_showHelp (d : Dispatcher) (p : Platform) (entry : Entry)
    (ctx : Context) : executions (d.showHelp p entry ctx).2 = [] := by
  rw [← executions_starts, starts_showHelp]
  split <;> rfl

/-! ## What executes a command -/

/-- The permissions were asked for and suffice, and the command can be used here. -/
structure Cleared (p : Platform) (entry : Entry) (ctx : Context) (granted : List Capability) :
    Prop where
  answered : p.permissions ctx.message.channel = .ok granted
  sufficient : ∀ c ∈ entry.command.capabilities, c ∈ granted
  applicable : entry.applies ctx = true

/-- What happens when a command is executed: the question for permissions, the precondition, the
execution, and what its handler does. -/
def executionEffects (d : Dispatcher) (p : Platform) (entry : Entry) (ctx : Context)
    (granted : List Capability) (arguments : Binding) : List Effect :=
  .lookup ctx.message.channel (.ok granted) :: (entry.checks ctx ++
    .run entry.command ctx arguments ::
      (d.table.perform p ctx (entry.handler ctx arguments)).2)

theorem executions_executionEffects (d : Dispatcher) (p : Platform) (entry : Entry) (ctx : Context)
    (granted : List Capability) (arguments : Binding) :
    executions (d.executionEffects p entry ctx granted arguments) =
      [{ command := entry.command, ctx, arguments }] := by
  rw [executionEffects, executions_cons, executions_append, executions_cons,
    ChatCommands.executions_checks, Table.executions_perform]
  rfl

/-- No permission is missing exactly if all that are required were granted. -/
theorem missing_eq_nil_iff {required granted : List Capability} :
    (required.filter fun c => !granted.contains c) = [] ↔ ∀ c ∈ required, c ∈ granted := by
  rw [List.filter_eq_nil_iff]
  simp

theorem execute_of_cleared (d : Dispatcher) {p : Platform} {entry : Entry} {ctx : Context}
    {granted : List Capability} (h : Cleared p entry ctx granted) (arguments : Binding) :
    (d.execute p entry ctx arguments).2 = d.executionEffects p entry ctx granted arguments := by
  rw [execute, h.answered, executionEffects]
  simp only [missing_eq_nil_iff.2 h.sufficient, h.applicable, List.isEmpty_nil, Bool.not_true,
    Bool.false_eq_true, if_false]
  cases d.table.perform p ctx (entry.handler ctx arguments) with
  | mk result effects => cases result <;> rfl

/-- Either no command is executed, or all that it takes was found before. -/
theorem execute_cases (d : Dispatcher) (p : Platform) (entry : Entry) (ctx : Context)
    (arguments : Binding) :
    executions (d.execute p entry ctx arguments).2 = [] ∨
      ∃ granted, Cleared p entry ctx granted ∧
        (d.execute p entry ctx arguments).2 =
          d.executionEffects p entry ctx granted arguments := by
  cases hanswer : p.permissions ctx.message.channel with
  | error e =>
    -- without an answer nothing else is tried
    left
    rw [execute, hanswer]
    rfl
  | ok granted =>
    by_cases hmissing :
        (entry.command.capabilities.filter fun c => !granted.contains c) = []
    · by_cases happlies : entry.applies ctx = true
      · right
        have hcleared : Cleared p entry ctx granted :=
          ⟨hanswer, missing_eq_nil_iff.1 hmissing, happlies⟩
        exact ⟨granted, hcleared, d.execute_of_cleared hcleared arguments⟩
      · left
        rw [execute, hanswer]
        simp only [hmissing, happlies, List.isEmpty_nil, Bool.not_true, Bool.false_eq_true,
          Bool.not_false, if_false, if_true]
        rw [executions_cons, ChatCommands.executions_checks]
        rfl
    · -- permissions are missing, which is only said
      left
      rw [execute, hanswer]
      simp only
      rw [if_pos (by simpa using hmissing), executions_cons, executions_notifyDenial]
      rfl

/-- A message executes nothing unless its arguments are bound. -/
theorem handle_cases (d : Dispatcher) (p : Platform) (now : Nat) (awaiting : Awaiting)
    (m : InboundMessage) :
    executions (d.handle p now awaiting m).effects = [] ∨
      ∃ entry ctx arguments, d.interpret m = .ready entry ctx arguments ∧
        (d.handle p now awaiting m).effects = (d.execute p entry ctx arguments).2 := by
  rw [handle]
  cases d.interpret m with
  | nothing => exact Or.inl rfl
  | unknown sigil locale key suggestion => exact Or.inl rfl
  | help entry ctx => exact Or.inl (d.executions_showHelp p entry ctx)
  | misused entry ctx error => exact Or.inl rfl
  | ready entry ctx arguments => exact Or.inr ⟨entry, ctx, arguments, rfl, rfl⟩

end Dispatcher

end ChatCommands
