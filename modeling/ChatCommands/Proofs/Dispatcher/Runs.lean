import ChatCommands.Proofs.Awaiting.Marks
import ChatCommands.Proofs.Dispatcher.Executions

/-!
# Runs of a dispatcher

New messages and edits in any order, each with the dispatcher, the platform and the time it meets:
`run` serves them one after the other and records the answers. Settings, permissions and whatever
preconditions and handlers depend on can change from one step to the next.

`handle_marks` says what handling a message does to the set of awaiting messages and what its
answer has to do with that; `serve_cases` says the same for a step.
-/

namespace ChatCommands

/-- Whether an edit can repair what became of a message. -/
def Outcome.isRepairable : Outcome → Bool
  | .unknownCommand .. => true
  | .wrongArguments .. => true
  | _ => false

/-- Whether an edit can repair the result of handling a message. -/
def isRepairable : Except DispatchError Outcome → Bool
  | .ok outcome => outcome.isRepairable
  | .error _ => false

/-- Whether a message was handled with a result that no edit can repair. -/
def settles : Except DispatchError (Option Outcome) → Bool
  | .ok none => false
  | .ok (some outcome) => !outcome.isRepairable
  | .error _ => true

namespace Dispatcher

/-- Nothing about running a command can be repaired by an edit. -/
theorem isRepairable_execute (d : Dispatcher) (p : Platform) (entry : Entry) (ctx : Context)
    (arguments : Binding) : isRepairable (d.execute p entry ctx arguments).1 = false := by
  rw [execute]
  cases p.permissions ctx.message.channel with
  | error e => rfl
  | ok granted =>
    simp only
    split
    · rfl
    split
    · rfl
    cases (d.table.perform p ctx (entry.handler ctx arguments)).1 <;> rfl

theorem isRepairable_showHelp (d : Dispatcher) (p : Platform) (entry : Entry) (ctx : Context) :
    isRepairable (d.showHelp p entry ctx).1 = false := by
  rw [showHelp]
  split
  · rfl
  cases entry.help with
  | none => rfl
  | some help =>
    simp only
    cases (d.table.perform p ctx (help ctx)).1 <;> rfl

/-- A message is marked exactly if an edit can repair it, and then it has executed nothing.
Otherwise it keeps its mark or loses it. -/
theorem handle_marks (d : Dispatcher) (p : Platform) (now : Nat) (awaiting : Awaiting)
    (m : InboundMessage) :
    let answer := d.handle p now awaiting m
    (isRepairable answer.result = true ∧ executions answer.effects = [] ∧
      answer.awaiting = awaiting.mark now m.id) ∨
    (isRepairable answer.result = false ∧
      (answer.awaiting = awaiting ∨ answer.awaiting = awaiting.clear m.id)) := by
  rw [handle]
  cases d.interpret m with
  | nothing => exact Or.inr ⟨rfl, Or.inl rfl⟩
  | unknown sigil locale key suggestion => exact Or.inl ⟨rfl, rfl, rfl⟩
  | help entry ctx => exact Or.inr ⟨d.isRepairable_showHelp p entry ctx, Or.inl rfl⟩
  | misused entry ctx error => exact Or.inl ⟨rfl, rfl, rfl⟩
  | ready entry ctx arguments =>
    exact Or.inr ⟨d.isRepairable_execute p entry ctx arguments, Or.inr rfl⟩

/-- A message executes at most one command. -/
theorem length_executions_handle (d : Dispatcher) (p : Platform) (now : Nat) (awaiting : Awaiting)
    (m : InboundMessage) : (executions (d.handle p now awaiting m).effects).length ≤ 1 := by
  rcases d.handle_cases p now awaiting m with hnone | ⟨entry, ctx, arguments, -, heffects⟩
  · rw [hnone, List.length_nil]
    omega
  rw [heffects]
  rcases d.execute_cases p entry ctx arguments with hnone | ⟨granted, -, hexecuted⟩
  · rw [hnone, List.length_nil]
    omega
  · rw [hexecuted, executions_executionEffects]
    exact Nat.le_refl 1

end Dispatcher

/-! ## Steps -/

/-- A message that comes in, new or as an edit of an earlier one, and what it meets. -/
structure Step where
  dispatcher : Dispatcher
  platform : Platform
  now : Nat
  edited : Bool
  message : InboundMessage

/-- The answer to a message that was handled, as the answer to an edit. -/
def Answer.dispatched (answer : Answer Outcome) : Answer (Option Outcome) :=
  { answer with result := answer.result.map some }

/-- The answer to a step. -/
def Step.serve (s : Step) (awaiting : Awaiting) : Answer (Option Outcome) :=
  if s.edited then s.dispatcher.handleEdit s.platform s.now awaiting s.message
  else (s.dispatcher.handle s.platform s.now awaiting s.message).dispatched

/-- A step with the answer to it. -/
structure Record where
  step : Step
  answer : Answer (Option Outcome)

/-- The records of steps that are served in order. -/
def run (awaiting : Awaiting) : List Step → List Record
  | [] => []
  | s :: rest => { step := s, answer := s.serve awaiting } :: run (s.serve awaiting).awaiting rest

/-- The effects that records have for one message, in order. -/
def effectsOf (id : Nat) (records : List Record) : List Effect :=
  (records.filter (·.step.message.id = id)).flatMap (·.answer.effects)

theorem effectsOf_cons (id : Nat) (r : Record) (records : List Record) :
    effectsOf id (r :: records) =
      if r.step.message.id = id then r.answer.effects ++ effectsOf id records
      else effectsOf id records := by
  by_cases hid : r.step.message.id = id
  · rw [if_pos hid, effectsOf, List.filter_cons_of_pos (by simpa using hid), List.flatMap_cons]
    rfl
  · rw [if_neg hid, effectsOf, List.filter_cons_of_neg (by simpa using hid)]
    rfl

theorem effectsOf_eq_nil {id : Nat} {records : List Record}
    (h : ∀ r ∈ records, r.step.message.id = id → r.answer.effects = []) :
    effectsOf id records = [] := by
  rw [effectsOf, List.flatMap_eq_nil_iff]
  intro r hr
  obtain ⟨hmem, hid⟩ := List.mem_filter.1 hr
  exact h r hmem (by simpa using hid)

/-- The messages that steps bring in as new ones. -/
def posted (steps : List Step) : List Nat :=
  (steps.filter (!·.edited)).map (·.message.id)

theorem posted_cons (s : Step) (rest : List Step) :
    posted (s :: rest) = if s.edited then posted rest else s.message.id :: posted rest := by
  cases hedited : s.edited with
  | true =>
    rw [posted, List.filter_cons_of_neg (by simp [hedited])]
    rfl
  | false =>
    rw [posted, List.filter_cons_of_pos (by simp [hedited])]
    rfl

theorem mem_posted_cons {s : Step} {rest : List Step} {id : Nat} :
    id ∈ posted (s :: rest) ↔ s.edited = false ∧ id = s.message.id ∨ id ∈ posted rest := by
  rw [posted_cons]
  cases s.edited <;> simp

theorem nodup_posted_cons {s : Step} {rest : List Step} (h : (posted (s :: rest)).Nodup) :
    (posted rest).Nodup ∧ (s.edited = false → s.message.id ∉ posted rest) := by
  rw [posted_cons] at h
  cases hedited : s.edited with
  | true =>
    rw [hedited, if_pos rfl] at h
    exact ⟨h, fun hnew => by cases hnew⟩
  | false =>
    rw [hedited, if_neg (by simp), List.nodup_cons] at h
    exact ⟨h.2, fun _ => h.1⟩

theorem settles_map_some (result : Except DispatchError Outcome) :
    settles (result.map some) = !isRepairable result := by
  cases result <;> rfl

/-- A message that is handled executes at most one command, and none unless it is settled. -/
theorem executions_dispatched (d : Dispatcher) (p : Platform) (now : Nat) (awaiting : Awaiting)
    (m : InboundMessage) :
    let answer := (d.handle p now awaiting m).dispatched
    (executions answer.effects).length ≤ 1 ∧
      (settles answer.result = false → executions answer.effects = []) := by
  refine ⟨d.length_executions_handle p now awaiting m, ?_⟩
  intro hsettled
  rw [Answer.dispatched, settles_map_some] at hsettled
  rcases d.handle_marks p now awaiting m with ⟨-, hnone, -⟩ | ⟨hrep, -⟩
  · exact hnone
  · rw [hrep] at hsettled
    cases hsettled

/-- An edit that is not awaited does nothing; every other step handles its message, an edit after
its mark is taken away. -/
theorem Step.serve_cases (s : Step) (awaiting : Awaiting) :
    (s.edited = true ∧ s.serve awaiting =
      { result := .ok none, effects := [], awaiting := awaiting.clear s.message.id }) ∨
    (s.edited = true ∧ awaiting.Marked s.message.id ∧ s.serve awaiting =
      (s.dispatcher.handle s.platform s.now (awaiting.clear s.message.id) s.message).dispatched) ∨
    (s.edited = false ∧ s.serve awaiting =
      (s.dispatcher.handle s.platform s.now awaiting s.message).dispatched) := by
  rw [serve]
  cases hedited : s.edited with
  | false => exact Or.inr (Or.inr ⟨rfl, rfl⟩)
  | true =>
    rw [if_pos rfl, Dispatcher.handleEdit, Awaiting.take]
    cases hawaited : awaiting.isAwaiting s.now s.message.id with
    | false => exact Or.inl ⟨rfl, rfl⟩
    | true => exact Or.inr (Or.inl ⟨rfl, Awaiting.marked_of_isAwaiting hawaited, rfl⟩)

end ChatCommands
