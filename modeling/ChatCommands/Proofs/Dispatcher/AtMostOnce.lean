import ChatCommands.CommandLine
import ChatCommands.Proofs.Dispatcher.Runs

/-!
# At most one execution of a message

Over any run in which every message comes in as a new one at most once, a message executes at most
one command, and once it is settled nothing that comes in for it has any effect.

The invariant (`Orderly`): what is still to come in as a new message has no mark. So a message that
is settled, and has lost its mark or never had one, can only come in as an edit that is not awaited.
-/

namespace ChatCommands

/-- The new messages among steps are different, and none of them is marked before it comes in. -/
structure Orderly (awaiting : Awaiting) (steps : List Step) : Prop where
  once : (posted steps).Nodup
  unmarked : ∀ id ∈ posted steps, ¬ awaiting.Marked id

/-! ## One step -/

theorem marked_of_handle {d : Dispatcher} {p : Platform} {now : Nat} {awaiting : Awaiting}
    {m : InboundMessage} {id : Nat} (h : (d.handle p now awaiting m).awaiting.Marked id) :
    id = m.id ∨ awaiting.Marked id := by
  rcases d.handle_marks p now awaiting m with ⟨-, -, hmark⟩ | ⟨-, hkept | hcleared⟩
  · rw [hmark] at h
    exact h.of_mark
  · rw [hkept] at h
    exact Or.inr h
  · rw [hcleared] at h
    exact Or.inr h.of_clear

/-- A step marks no message other than a new one that comes in with it. -/
theorem marked_of_serve {s : Step} {awaiting : Awaiting} {id : Nat}
    (h : (s.serve awaiting).awaiting.Marked id) :
    awaiting.Marked id ∨ s.edited = false ∧ id = s.message.id := by
  rcases s.serve_cases awaiting with ⟨-, hserve⟩ | ⟨-, hmarked, hserve⟩ | ⟨hnew, hserve⟩
  · rw [hserve] at h
    exact Or.inl h.of_clear
  · rw [hserve] at h
    rcases marked_of_handle h with rfl | hcleared
    · exact Or.inl hmarked
    · exact Or.inl hcleared.of_clear
  · rw [hserve] at h
    rcases marked_of_handle h with rfl | hbefore
    · exact Or.inr ⟨hnew, rfl⟩
    · exact Or.inl hbefore

/-- Once a message is settled it has no mark, if it had none when it was handled. -/
theorem not_marked_of_settled {d : Dispatcher} {p : Platform} {now : Nat} {awaiting : Awaiting}
    {m : InboundMessage} (hunmarked : ¬ awaiting.Marked m.id)
    (hsettled : settles (d.handle p now awaiting m).dispatched.result = true) :
    ¬ (d.handle p now awaiting m).awaiting.Marked m.id := by
  rw [Answer.dispatched, settles_map_some] at hsettled
  rcases d.handle_marks p now awaiting m with ⟨hrep, -, -⟩ | ⟨-, hkept | hcleared⟩
  · rw [hrep] at hsettled
    cases hsettled
  · rw [hkept]
    exact hunmarked
  · rw [hcleared]
    exact Awaiting.not_marked_clear awaiting m.id

/-- A step that settles its message leaves it without a mark and without a way to get one. -/
theorem Orderly.unmarked_of_settled {awaiting : Awaiting} {s : Step} {rest : List Step}
    (h : Orderly awaiting (s :: rest)) (hsettled : settles (s.serve awaiting).result = true) :
    ¬ (s.serve awaiting).awaiting.Marked s.message.id ∧ s.message.id ∉ posted rest := by
  rcases s.serve_cases awaiting with ⟨-, hserve⟩ | ⟨-, hmarked, hserve⟩ | ⟨hnew, hserve⟩
  · -- an edit that is not awaited settles nothing
    rw [hserve] at hsettled
    cases hsettled
  · -- an edit that is awaited was marked, so its message came in before
    rw [hserve] at hsettled ⊢
    refine ⟨not_marked_of_settled (Awaiting.not_marked_clear awaiting _) hsettled, ?_⟩
    intro hposted
    exact h.unmarked _ (mem_posted_cons.2 (Or.inr hposted)) hmarked
  · -- a new message has no mark yet and does not come in again
    rw [hserve] at hsettled ⊢
    have hmem : s.message.id ∈ posted (s :: rest) := mem_posted_cons.2 (Or.inl ⟨hnew, rfl⟩)
    exact ⟨not_marked_of_settled (h.unmarked _ hmem) hsettled, (nodup_posted_cons h.once).2 hnew⟩

/-- **The invariant is kept** by every step. -/
theorem Orderly.serve {awaiting : Awaiting} {s : Step} {rest : List Step}
    (h : Orderly awaiting (s :: rest)) : Orderly (s.serve awaiting).awaiting rest := by
  obtain ⟨honce, hnew⟩ := nodup_posted_cons h.once
  refine ⟨honce, ?_⟩
  intro id hid hmarked
  rcases marked_of_serve hmarked with hbefore | ⟨hedited, rfl⟩
  · exact h.unmarked id (mem_posted_cons.2 (Or.inr hid)) hbefore
  · exact hnew hedited hid

/-- A step executes at most one command, and none unless it settles its message. -/
theorem executions_serve (s : Step) (awaiting : Awaiting) :
    (executions (s.serve awaiting).effects).length ≤ 1 ∧
      (settles (s.serve awaiting).result = false →
        executions (s.serve awaiting).effects = []) := by
  rcases s.serve_cases awaiting with ⟨-, hserve⟩ | ⟨-, -, hserve⟩ | ⟨-, hserve⟩
  · rw [hserve]
    exact ⟨Nat.zero_le 1, fun _ => rfl⟩
  · rw [hserve]
    exact executions_dispatched s.dispatcher s.platform s.now _ s.message
  · rw [hserve]
    exact executions_dispatched s.dispatcher s.platform s.now awaiting s.message

/-! ## Whole runs -/

/-- A message that has no mark and does not come in as a new one is ignored for the whole run:
induction along the steps, each of which leaves it without a mark. -/
theorem ignored_of_unmarked {awaiting : Awaiting} {steps : List Step} {id : Nat}
    (hunmarked : ¬ awaiting.Marked id) (hposted : id ∉ posted steps) :
    ∀ r ∈ run awaiting steps, r.step.message.id = id →
      r.answer.result = .ok none ∧ r.answer.effects = [] := by
  induction steps generalizing awaiting with
  | nil =>
    intro r hr
    cases hr
  | cons s rest ih =>
    have hrest : id ∉ posted rest := fun hid => hposted (mem_posted_cons.2 (Or.inr hid))
    have hother : ¬ (s.edited = false ∧ id = s.message.id) :=
      fun hnew => hposted (mem_posted_cons.2 (Or.inl hnew))
    have hunmarked' : ¬ (s.serve awaiting).awaiting.Marked id := by
      intro hmarked
      rcases marked_of_serve hmarked with hbefore | hnew
      · exact hunmarked hbefore
      · exact hother hnew
    intro r hr hid
    rcases List.mem_cons.1 hr with rfl | hr
    · subst hid
      rcases s.serve_cases awaiting with ⟨-, hserve⟩ | ⟨-, hmarked, -⟩ | ⟨hnew, -⟩
      · rw [hserve]
        exact ⟨rfl, rfl⟩
      · exact absurd hmarked hunmarked
      · exact absurd ⟨hnew, rfl⟩ hother
    · exact ih hunmarked' hrest r hr hid

/-- After a step that settles its message, everything that comes in for this message is ignored. -/
theorem Orderly.pairwise_run {awaiting : Awaiting} {steps : List Step}
    (h : Orderly awaiting steps) :
    (run awaiting steps).Pairwise fun earlier later =>
      earlier.step.message.id = later.step.message.id → settles earlier.answer.result = true →
        later.answer.result = .ok none ∧ later.answer.effects = [] := by
  induction steps generalizing awaiting with
  | nil => exact List.Pairwise.nil
  | cons s rest ih =>
    refine List.Pairwise.cons ?_ (ih h.serve)
    intro later hlater hid hsettled
    obtain ⟨hunmarked, hposted⟩ := h.unmarked_of_settled hsettled
    exact ignored_of_unmarked hunmarked hposted later hlater hid.symm

/-- A message executes at most one command: as long as steps leave it unsettled they execute none,
and the one that settles it is the last that has an effect for it. -/
theorem Orderly.length_executions {awaiting : Awaiting} {steps : List Step}
    (h : Orderly awaiting steps) (id : Nat) :
    (executions (effectsOf id (run awaiting steps))).length ≤ 1 := by
  induction steps generalizing awaiting with
  | nil => exact Nat.zero_le 1
  | cons s rest ih =>
    have hrest := ih h.serve
    rw [run, effectsOf_cons]
    by_cases hid : s.message.id = id
    · obtain ⟨hone, hnone⟩ := executions_serve s awaiting
      rw [if_pos hid, executions_append]
      cases hsettled : settles (s.serve awaiting).result with
      | false =>
        rw [hnone hsettled, List.nil_append]
        exact hrest
      | true =>
        obtain ⟨hunmarked, hposted⟩ := h.unmarked_of_settled hsettled
        have hignored := ignored_of_unmarked hunmarked hposted
        rw [effectsOf_eq_nil fun r hr hr' => (hignored r hr (hr'.trans hid.symm)).2,
          executions_nil, List.append_nil]
        exact hone
    · rw [if_neg hid]
      exact hrest

/-- **At most one execution**: in a run that starts with no mark and brings every message in as a
new one at most once, every message executes at most one command, and once it has come to a
result that no edit can repair, whatever comes in for it later is ignored and has no effect. -/
theorem executed_at_most_once {start : Awaiting} {steps : List Step} (fresh : start.marks = [])
    (once : (posted steps).Nodup) :
    (∀ id, (executions (effectsOf id (run start steps))).length ≤ 1) ∧
      (run start steps).Pairwise fun earlier later =>
        earlier.step.message.id = later.step.message.id →
          settles earlier.answer.result = true →
            later.answer.result = .ok none ∧ later.answer.effects = [] := by
  have horderly : Orderly start steps :=
    ⟨once, fun id _ => Awaiting.not_marked_of_marks_eq_nil fresh id⟩
  exact ⟨fun id => horderly.length_executions id, horderly.pairwise_run⟩

theorem executed_at_most_once_retried :
    let start := (CommandLine.dispatcher {}).initialAwaiting
    let step (edited : Bool) (content : String) : Step := {
      dispatcher := CommandLine.dispatcher {}
      platform := Console.platform ["manage_messages"] false
      now := 0
      edited
      message := { id := 1, guild := 1, channel := 1, author := 2, content } }
    let steps := [step false "!purge", step true "!purge 5", step true "!purge 6"]
    start.marks = [] ∧ (posted steps).Nodup ∧
      (executions (effectsOf 1 (run start steps))).length = 1 := by
  intro start step steps
  have once : (posted steps).Nodup := by decide
  have hmost := (executed_at_most_once (rfl : start.marks = []) once).1 1
  have hsome : executions (effectsOf 1 (run start steps)) ≠ [] := by decide +kernel
  have hpos := List.length_pos_iff.2 hsome
  exact ⟨rfl, once, by omega⟩

end ChatCommands
