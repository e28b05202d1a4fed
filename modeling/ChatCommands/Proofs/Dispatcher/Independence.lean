import ChatCommands.CommandLine
import ChatCommands.Proofs.Awaiting.Awaited
import ChatCommands.Proofs.Dispatcher.Runs

/-!
# Independence of messages

What becomes of a message does not depend on the other messages: a run shows the same results and
effects for it if all that comes in for other messages is left out
(`independent_of_other_messages`). All messages share one set of marks, one count of marks and the
sweeps that this count leads to, so the two runs go through different sets. They agree on the
message all along (`Awaiting.Agree`): its own steps keep the sets in agreement
(`Step.serve_congr`), and the steps of others change nothing about it (`Step.agree_serve_other`).

No lifetime of marks is assumed. It is enough that the clock does not go back.
-/

namespace ChatCommands

open Awaiting (Agree)

namespace Dispatcher

variable (d : Dispatcher) (p : Platform) (now : Nat) (m : InboundMessage)

/-- Which messages are awaited makes no difference to how a message is handled. -/
theorem handle_congr (a b : Awaiting) :
    (d.handle p now a m).result = (d.handle p now b m).result ∧
      (d.handle p now a m).effects = (d.handle p now b m).effects := by
  rw [handle, handle]
  cases d.interpret m with
  | nothing => exact ⟨rfl, rfl⟩
  | unknown sigil locale key suggestion => exact ⟨rfl, rfl⟩
  | help entry ctx => exact ⟨rfl, rfl⟩
  | misused entry ctx error => exact ⟨rfl, rfl⟩
  | ready entry ctx arguments => exact ⟨rfl, rfl⟩

/-- What handling a message does to the set of awaiting messages is the same for all sets: nothing,
or something to the mark of this message. -/
theorem handle_awaiting_cases :
    (∀ a, (d.handle p now a m).awaiting = a) ∨
      (∀ a, (d.handle p now a m).awaiting = a.clear m.id) ∨
      (∀ a, (d.handle p now a m).awaiting = a.mark now m.id) := by
  simp only [handle]
  cases d.interpret m with
  | nothing => exact Or.inl fun _ => rfl
  | unknown sigil locale key suggestion => exact Or.inr (Or.inr fun _ => rfl)
  | help entry ctx => exact Or.inl fun _ => rfl
  | misused entry ctx error => exact Or.inr (Or.inr fun _ => rfl)
  | ready entry ctx arguments => exact Or.inr (Or.inl fun _ => rfl)

/-- Sets that agree on a message still do so when any message has been handled. -/
theorem agree_handle {id : Nat} {a b : Awaiting} (h : Agree now id a b) :
    Agree now id (d.handle p now a m).awaiting (d.handle p now b m).awaiting := by
  rcases d.handle_awaiting_cases p now m with hkept | hcleared | hmarked
  · rw [hkept, hkept]
    exact h
  · rw [hcleared, hcleared]
    exact h.clear m.id
  · rw [hmarked, hmarked]
    exact h.mark m.id

/-- Handling a message changes nothing about another one. -/
theorem agree_handle_other {id : Nat} (a : Awaiting) (hne : id ≠ m.id) :
    Agree now id (d.handle p now a m).awaiting a := by
  rcases d.handle_awaiting_cases p now m with hkept | hcleared | hmarked
  · rw [hkept]
    exact Agree.refl now id a
  · rw [hcleared]
    exact Agree.clear_other a now hne
  · rw [hmarked]
    exact Agree.mark_other a now hne

end Dispatcher

/-! ## One step -/

/-- A step gives the same answer from sets that agree on its message, and leaves them in
agreement. -/
theorem Step.serve_congr {s : Step} {a b : Awaiting} (h : Agree s.now s.message.id a b) :
    (s.serve a).result = (s.serve b).result ∧ (s.serve a).effects = (s.serve b).effects ∧
      Agree s.now s.message.id (s.serve a).awaiting (s.serve b).awaiting := by
  rw [serve, serve]
  cases s.edited with
  | false =>
    obtain ⟨hresult, heffects⟩ := s.dispatcher.handle_congr s.platform s.now s.message a b
    exact ⟨congrArg (Except.map some) hresult, heffects,
      s.dispatcher.agree_handle s.platform s.now s.message h⟩
  | true =>
    -- both sets give the edit the same chance
    rw [if_pos rfl, if_pos rfl, Dispatcher.handleEdit, Dispatcher.handleEdit, Awaiting.take,
      Awaiting.take, h.awaited s.now (Nat.le_refl s.now)]
    cases b.isAwaiting s.now s.message.id with
    | false => exact ⟨rfl, rfl, h.clear s.message.id⟩
    | true =>
      obtain ⟨hresult, heffects⟩ := s.dispatcher.handle_congr s.platform s.now s.message
        (a.clear s.message.id) (b.clear s.message.id)
      exact ⟨congrArg (Except.map some) hresult, heffects,
        s.dispatcher.agree_handle s.platform s.now s.message (h.clear s.message.id)⟩

/-- A step changes nothing about other messages. -/
theorem Step.agree_serve_other {s : Step} {id : Nat} (a : Awaiting)
    (hne : id ≠ s.message.id) : Agree s.now id (s.serve a).awaiting a := by
  rcases s.serve_cases a with ⟨-, hserve⟩ | ⟨-, -, hserve⟩ | ⟨-, hserve⟩
  · rw [hserve]
    exact Agree.clear_other a s.now hne
  · rw [hserve]
    exact (s.dispatcher.agree_handle_other s.platform s.now s.message _ hne).trans
      (Agree.clear_other a s.now hne)
  · rw [hserve]
    exact s.dispatcher.agree_handle_other s.platform s.now s.message a hne

/-! ## Whole runs -/

/-- What records show of one message: the results and effects of its steps, in order. -/
def observations (id : Nat) (records : List Record) :
    List (Except DispatchError (Option Outcome) × List Effect) :=
  (records.filter (·.step.message.id = id)).map fun r => (r.answer.result, r.answer.effects)

theorem observations_cons (id : Nat) (r : Record) (records : List Record) :
    observations id (r :: records) =
      if r.step.message.id = id then (r.answer.result, r.answer.effects) :: observations id records
      else observations id records := by
  by_cases hid : r.step.message.id = id
  · rw [if_pos hid, observations, List.filter_cons_of_pos (by simpa using hid)]
    rfl
  · rw [if_neg hid, observations, List.filter_cons_of_neg (by simpa using hid)]
    rfl

/-- Steps in the order in which they take place. -/
def Chronological (steps : List Step) : Prop :=
  (steps.map Step.now).Pairwise (· ≤ ·)

/-- Steps on other messages can be left out of a run: induction along the steps, with agreement of
the two sets on the message as the invariant. -/
theorem observations_run_filter {now id : Nat} {a b : Awaiting} {steps : List Step}
    (h : Agree now id a b) (later : ∀ s ∈ steps, now ≤ s.now) (ordered : Chronological steps) :
    observations id (run a steps) =
      observations id (run b (steps.filter (·.message.id = id))) := by
  induction steps generalizing now a b with
  | nil => rfl
  | cons s rest ih =>
    obtain ⟨hnext, hrest⟩ := List.pairwise_cons.1 ordered
    have hlater : ∀ s' ∈ rest, s.now ≤ s'.now :=
      fun s' hs' => hnext s'.now (List.mem_map_of_mem hs')
    have hnow : Agree s.now id a b := h.mono (later s List.mem_cons_self)
    by_cases hid : s.message.id = id
    · subst hid
      obtain ⟨hresult, heffects, hagree⟩ := Step.serve_congr hnow
      rw [List.filter_cons_of_pos (by simp), run, run, observations_cons, observations_cons,
        if_pos rfl, if_pos rfl, ih hagree hlater hrest]
      simp only [hresult, heffects]
    · have hother : Agree s.now id (s.serve a).awaiting b :=
        (Step.agree_serve_other a (Ne.symm hid)).trans hnow
      rw [List.filter_cons_of_neg (by simpa using hid), run, observations_cons, if_neg hid]
      exact ih hother hlater hrest

/-! ## Changes between the messages -/

/-- What happens to a bot: the conditions that it works under change, or a message comes in, new or
as an edit. The conditions are its platform with the permissions there, and whatever else settings,
preconditions and handlers go by. -/
inductive Happening where
  | change (dispatcher : Dispatcher) (platform : Platform)
  | arrival (now : Nat) (edited : Bool) (message : InboundMessage)

/-- Whether something that happens concerns a message. Changes concern every message. -/
def Happening.concerns (id : Nat) : Happening → Bool
  | .change .. => true
  | .arrival _ _ message => message.id = id

/-- The steps that are taken, each under the conditions that hold by then. -/
def stepsOf (d : Dispatcher) (p : Platform) : List Happening → List Step
  | [] => []
  | .change d' p' :: rest => stepsOf d' p' rest
  | .arrival now edited message :: rest =>
    { dispatcher := d, platform := p, now, edited, message } :: stepsOf d p rest

/-- Leaving out what happens for other messages leaves every other step under its conditions. -/
theorem stepsOf_filter (d : Dispatcher) (p : Platform) (happenings : List Happening) (id : Nat) :
    stepsOf d p (happenings.filter (·.concerns id)) =
      (stepsOf d p happenings).filter (·.message.id = id) := by
  induction happenings generalizing d p with
  | nil => rfl
  | cons h rest ih =>
    cases h with
    | change d' p' =>
      rw [List.filter_cons_of_pos rfl, stepsOf, stepsOf]
      exact ih d' p'
    | arrival now edited message =>
      by_cases hid : message.id = id
      · rw [List.filter_cons_of_pos (by simpa [Happening.concerns] using hid), stepsOf, stepsOf,
          List.filter_cons_of_pos (by simpa using hid), ih]
      · rw [List.filter_cons_of_neg (by simpa [Happening.concerns] using hid), stepsOf,
          List.filter_cons_of_neg (by simpa using hid), ih]

/-- **Independence of messages**: a run shows the same of a message when all that comes in for
other messages is left out. So runs in which the same happens for this message show the same of
it, whatever and however much comes in for others. -/
theorem independent_of_other_messages {start : Awaiting} {d : Dispatcher} {p : Platform}
    {happenings : List Happening} (ordered : Chronological (stepsOf d p happenings)) (id : Nat) :
    let shown (happenings : List Happening) :=
      observations id (run start (stepsOf d p happenings))
    shown happenings = shown (happenings.filter (·.concerns id)) ∧
      ∀ others : List Happening, Chronological (stepsOf d p others) →
        others.filter (·.concerns id) = happenings.filter (·.concerns id) →
          shown others = shown happenings := by
  intro shown
  have halone : ∀ hs, Chronological (stepsOf d p hs) →
      shown hs = shown (hs.filter (·.concerns id)) := by
    intro hs hordered
    show observations id (run start (stepsOf d p hs)) =
      observations id (run start (stepsOf d p (hs.filter (·.concerns id))))
    rw [stepsOf_filter]
    exact observations_run_filter (Agree.refl 0 id start) (fun s _ => Nat.zero_le s.now) hordered
  refine ⟨halone happenings ordered, ?_⟩
  intro others hothers hsame
  rw [halone others hothers, halone happenings ordered, hsame]

theorem independent_of_other_messages_interleaved :
    let d := CommandLine.dispatcher {}
    let p := Console.platform ["manage_messages"] false
    let arrival (now id : Nat) (edited : Bool) (content : String) : Happening :=
      .arrival now edited { id, guild := id, channel := 1, author := 2, content }
    let happenings := [
      arrival 0 1 false "!purge", arrival 5 2 false "!porge", .change d (Console.platform [] true),
      arrival 5 2 true "!purge 3", arrival 9 1 true "!purge 5"]
    Chronological (stepsOf d p happenings) ∧
      observations 1 (run d.initialAwaiting (stepsOf d p happenings)) =
        observations 1 (run d.initialAwaiting (stepsOf d p [
          arrival 0 1 false "!purge", .change d (Console.platform [] true),
          arrival 9 1 true "!purge 5"])) := by
  intro d p arrival happenings
  have hordered : Chronological (stepsOf d p happenings) := by
    show [0, 5, 5, 9].Pairwise (· ≤ ·)
    decide
  exact ⟨hordered, (independent_of_other_messages hordered 1).1⟩

end ChatCommands
