import ChatCommands.Proofs.Dispatcher.Independence

/-!
# Retries by edit

A message that went wrong in ways that an edit can repair, any number of times, leaves nothing
behind that shows in the retry: the edit that is handled at last gives the same answer as if it had
come in as a new message at once, and the same messages are awaited after it (`retry_transparent`).

Faulty attempts leave their message awaited and change nothing about others (`Pending`). So once
the retry has taken the mark away, the set agrees on every message with the one from before the
first attempt (`Pending.agree_clear`), whatever sweeps there were.
-/

namespace ChatCommands

open Awaiting (Agree)

/-- Whether a message was handled with a result that an edit can repair. -/
def isFaulty : Except DispatchError (Option Outcome) → Bool
  | .ok (some outcome) => outcome.isRepairable
  | _ => false

theorem isFaulty_map_some (result : Except DispatchError Outcome) :
    isFaulty (result.map some) = isRepairable result := by
  cases result <;> rfl

/-- The set of awaiting messages after steps that are served in order. -/
def awaitingAfter (start : Awaiting) (steps : List Step) : Awaiting :=
  steps.foldl (fun awaiting s => (s.serve awaiting).awaiting) start

namespace Dispatcher

/-- A message that an edit can repair has a mark from now on. -/
theorem awaiting_of_isRepairable {d : Dispatcher} {p : Platform} {now t : Nat} {a : Awaiting}
    {m : InboundMessage} (hle : now ≤ t)
    (hrep : isRepairable (d.handle p now a m).result = true) :
    (d.handle p now a m).awaiting.isAwaiting t m.id = a.isLive t now := by
  rcases d.handle_marks p now a m with ⟨-, -, hmark⟩ | ⟨hnot, -⟩
  · rw [hmark, Awaiting.isAwaiting_mark a hle, if_pos rfl]
  · rw [hrep] at hnot
    cases hnot

/-- An edit that is awaited is handled like a new message, without its mark. -/
theorem handleEdit_of_isAwaiting {d : Dispatcher} {p : Platform} {now : Nat} {a : Awaiting}
    {m : InboundMessage} (h : a.isAwaiting now m.id = true) :
    d.handleEdit p now a m = (d.handle p now (a.clear m.id) m).dispatched := by
  rw [handleEdit, Awaiting.take, h]
  rfl

end Dispatcher

/-- A faulty step leaves its message awaited for as long as a mark made now counts. -/
theorem Step.awaiting_of_isFaulty {s : Step} {a : Awaiting} {t : Nat} (hle : s.now ≤ t)
    (hfaulty : isFaulty (s.serve a).result = true) :
    (s.serve a).awaiting.isAwaiting t s.message.id = a.isLive t s.now := by
  rcases s.serve_cases a with ⟨-, hserve⟩ | ⟨-, -, hserve⟩ | ⟨-, hserve⟩
  · -- an edit that is not awaited ends in nothing at all
    rw [hserve] at hfaulty
    cases hfaulty
  · rw [hserve, Answer.dispatched, isFaulty_map_some] at hfaulty
    rw [hserve]
    exact Dispatcher.awaiting_of_isRepairable hle hfaulty
  · rw [hserve, Answer.dispatched, isFaulty_map_some] at hfaulty
    rw [hserve]
    exact Dispatcher.awaiting_of_isRepairable hle hfaulty

theorem Dispatcher.lifetime_handle (d : Dispatcher) (p : Platform) (now : Nat) (m : InboundMessage)
    (a : Awaiting) : (d.handle p now a m).awaiting.lifetime = a.lifetime := by
  rcases d.handle_awaiting_cases p now m with hkept | hcleared | hmarked
  · rw [hkept]
  · rw [hcleared]
    rfl
  · rw [hmarked, Awaiting.lifetime_mark]

theorem Step.lifetime_serve (s : Step) (a : Awaiting) :
    (s.serve a).awaiting.lifetime = a.lifetime := by
  rcases s.serve_cases a with ⟨-, hserve⟩ | ⟨-, -, hserve⟩ | ⟨-, hserve⟩
  · rw [hserve]
    rfl
  · rw [hserve]
    exact s.dispatcher.lifetime_handle s.platform s.now s.message (a.clear s.message.id)
  · rw [hserve]
    exact s.dispatcher.lifetime_handle s.platform s.now s.message a

/-! ## Attempts -/

/-- What attempts at a message leave behind, the last of which was made at a time `last`: the
message is awaited by a mark of that time, and other messages as before. -/
structure Pending (before after : Awaiting) (id last : Nat) : Prop where
  lifetime : after.lifetime = before.lifetime
  awaited : ∀ t, last ≤ t → after.isAwaiting t id = before.isLive t last
  others : ∀ other, other ≠ id → Agree last other after before

theorem Step.pending_of_isFaulty {s : Step} {a : Awaiting}
    (hfaulty : isFaulty (s.serve a).result = true) :
    Pending a (s.serve a).awaiting s.message.id s.now where
  lifetime := s.lifetime_serve a
  awaited _ ht := Step.awaiting_of_isFaulty ht hfaulty
  others _ hne := s.agree_serve_other a hne

namespace Pending

variable {before between after : Awaiting} {id first last now : Nat}

/-- Of attempts one after the other, the last one counts. -/
theorem trans (h : Pending before between id first) (h' : Pending between after id last)
    (hle : first ≤ last) : Pending before after id last where
  lifetime := h'.lifetime.trans h.lifetime
  awaited t ht := by rw [h'.awaited t ht, Awaiting.isLive_congr h.lifetime]
  others other hne := (h'.others other hne).trans ((h.others other hne).mono hle)

/-- Once the mark is taken away, nothing is left of the attempts at a message that was not awaited
before. -/
theorem agree_clear (h : Pending before after id last) (hle : last ≤ now)
    (hnot : before.isAwaiting now id = false) (other : Nat) :
    Agree now other (after.clear id) before := by
  by_cases hid : other = id
  · subst hid
    refine ⟨h.lifetime, ?_⟩
    intro t ht
    rw [Awaiting.isAwaiting_clear, Awaiting.isAwaiting_eq_false_of_le ht hnot,
      bne_self_eq_false, Bool.false_and]
  · exact (Agree.clear_other after now hid).trans ((h.others other hid).mono hle)

end Pending

/-- What faulty attempts at a message leave behind: induction along the attempts. -/
theorem pending_of_attempts {id : Nat} {start : Awaiting} {first : Step} {edits : List Step}
    (same : ∀ s ∈ first :: edits, s.message.id = id)
    (faulty : ∀ r ∈ run start (first :: edits), isFaulty r.answer.result = true)
    (ordered : Chronological (first :: edits)) :
    ∃ last ∈ first :: edits, first.now ≤ last.now ∧
      Pending start (awaitingAfter start (first :: edits)) id last.now := by
  induction edits generalizing start first with
  | nil =>
    obtain rfl : first.message.id = id := same first List.mem_cons_self
    have hfirst : isFaulty (first.serve start).result = true := faulty _ List.mem_cons_self
    exact ⟨first, List.mem_cons_self, Nat.le_refl _, Step.pending_of_isFaulty hfirst⟩
  | cons edit edits ih =>
    obtain rfl : first.message.id = id := same first List.mem_cons_self
    have hfirst : isFaulty (first.serve start).result = true := faulty _ List.mem_cons_self
    obtain ⟨hnext, hrest⟩ := List.pairwise_cons.1 ordered
    have hle : first.now ≤ edit.now := hnext edit.now List.mem_cons_self
    obtain ⟨last, hmem, hlast, hpending⟩ := ih
      (fun s hs => same s (List.mem_cons_of_mem _ hs))
      (fun r hr => faulty r (List.mem_cons_of_mem _ hr)) hrest
    have htotal : first.now ≤ last.now := Nat.le_trans hle hlast
    exact ⟨last, List.mem_cons_of_mem _ hmem, htotal,
      (Step.pending_of_isFaulty hfirst).trans hpending htotal⟩

/-- **Retries are transparent**: after any number of faulty attempts at a message that was not
awaited, the edit that comes next is handled as if it were a new message and nothing had been
tried before. It gives the same result by the same effects, and the same messages are awaited
then and later. The attempts are a new message and edits of it, each under conditions of its own;
it takes that no mark made meanwhile is out of date. -/
theorem retry_transparent {start : Awaiting} {first : Step} {edits : List Step} {d : Dispatcher}
    {p : Platform} {now : Nat} {m : InboundMessage}
    (unmarked : start.isAwaiting first.now m.id = false)
    (same : ∀ s ∈ first :: edits, s.message.id = m.id)
    (faulty : ∀ r ∈ run start (first :: edits), isFaulty r.answer.result = true)
    (ordered : Chronological (first :: edits)) (later : ∀ s ∈ first :: edits, s.now ≤ now)
    (lasting : ∀ lifetime ∈ start.lifetime, now - first.now < lifetime) :
    let retried := d.handleEdit p now (awaitingAfter start (first :: edits)) m
    let direct := d.handle p now start m
    retried.result = direct.result.map some ∧ retried.effects = direct.effects ∧
      ∀ t, now ≤ t → ∀ id, retried.awaiting.isAwaiting t id = direct.awaiting.isAwaiting t id := by
  obtain ⟨last, hmem, hlast, hpending⟩ := pending_of_attempts same faulty ordered
  have hlater : last.now ≤ now := later last hmem
  have hawaited : (awaitingAfter start (first :: edits)).isAwaiting now m.id = true := by
    rw [hpending.awaited now hlater, Awaiting.isLive, Option.all_eq_true]
    intro lifetime hlifetime
    have hlt := lasting lifetime hlifetime
    simp only [decide_eq_true_eq]
    omega
  have hnot : start.isAwaiting now m.id = false :=
    Awaiting.isAwaiting_eq_false_of_le (later first List.mem_cons_self) unmarked
  rw [Dispatcher.handleEdit_of_isAwaiting hawaited]
  obtain ⟨hresult, heffects⟩ := d.handle_congr p now m
    ((awaitingAfter start (first :: edits)).clear m.id) start
  refine ⟨congrArg (Except.map some) hresult, heffects, ?_⟩
  intro t ht id
  have hagree := hpending.agree_clear hlater hnot id
  exact (d.agree_handle p now m hagree).awaited t ht

theorem retry_transparent_swept :
    let d := CommandLine.dispatcher {}
    let p := Console.platform ["manage_messages"] false
    let message (content : String) : InboundMessage :=
      { id := 1, guild := 1, channel := 1, author := 2, content }
    let step (now : Nat) (edited : Bool) (content : String) : Step :=
      { dispatcher := d, platform := p, now, edited, message := message content }
    let start : Awaiting := { lifetime := some 600000, marks := [(7, 0), (8, 650000)], made := 63 }
    let first := step 700000 false "!porge 5"
    let edits := [step 710000 true "!purge", step 720000 true "!purge "]
    let retried := d.handleEdit p 730000 (awaitingAfter start (first :: edits)) (message "!purge 5")
    let direct := d.handle p 730000 start (message "!purge 5")
    start.isAwaiting first.now 1 = false ∧
      (∀ r ∈ run start (first :: edits), isFaulty r.answer.result = true) ∧
      Chronological (first :: edits) ∧ retried.result = direct.result.map some ∧
      retried.effects = direct.effects ∧
      ∀ t, 730000 ≤ t → ∀ id,
        retried.awaiting.isAwaiting t id = direct.awaiting.isAwaiting t id := by
  intro d p message step start first edits retried direct
  have unmarked : start.isAwaiting first.now 1 = false := by decide
  have faulty : ∀ r ∈ run start (first :: edits), isFaulty r.answer.result = true := by
    decide +kernel
  have ordered : Chronological (first :: edits) := by
    show [700000, 710000, 720000].Pairwise (· ≤ ·)
    decide
  exact ⟨unmarked, faulty, ordered,
    retry_transparent unmarked (by decide) faulty ordered (by decide) (by decide)⟩

end ChatCommands
