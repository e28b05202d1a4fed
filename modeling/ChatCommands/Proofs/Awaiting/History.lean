import ChatCommands.Proofs.Awaiting.Awaited
import Mathlib.Data.Finset.Card

/-!
# Histories of awaited messages

What any number of operations leave of an empty set (`Awaiting.after`), each at a time of its own,
and what they answer.

As long as no mark runs out, the set is a plain set of messages and sweeps do nothing to it
(`Awaiting.refines_plain_set`). The invariant is that the marked messages are those to which a mark
was done last, with marks made at the times of operations (`Awaiting.Reached`).

If marks run out at once, none is ever awaited, and the sweeps keep the set small
(`Awaiting.expired_marks_bounded`). The invariant is that there is at most one mark more than were
made since the last sweep.
-/

namespace ChatCommands.Awaiting

/-- Something that is done to a set of awaited messages or asked of it. -/
inductive Operation where
  | mark (id : Nat)
  | take (id : Nat)
  | clear (id : Nat)
  | isAwaiting (id : Nat)
  deriving DecidableEq, Repr

namespace Operation

/-- The answer to an operation, and the set that it leaves. -/
def serve (a : Awaiting) (now : Nat) : Operation → Option Bool × Awaiting
  | mark id => (none, a.mark now id)
  | take id => (some (a.take now id).1, (a.take now id).2)
  | clear id => (none, a.clear id)
  | isAwaiting id => (some (a.isAwaiting now id), a)

/-- The message about which an operation gives an answer. -/
def asked? : Operation → Option Nat
  | mark _ => none
  | take id => some id
  | clear _ => none
  | isAwaiting id => some id

/-- Whether an operation makes or takes away the mark of a message. -/
def touches (id : Nat) : Operation → Bool
  | mark id' => id' == id
  | take id' => id' == id
  | clear id' => id' == id
  | isAwaiting _ => false

def isMark : Operation → Bool
  | mark _ => true
  | _ => false

/-- Whoever asks about a message is told whether it is awaited. -/
theorem answer_serve (a : Awaiting) (now : Nat) (operation : Operation) :
    (operation.serve a now).1 = operation.asked?.map (a.isAwaiting now) := by
  cases operation <;> rfl

end Operation

/-- An operation with the time at which it takes place. -/
structure Timed where
  now : Nat
  operation : Operation
  deriving DecidableEq, Repr

def Timed.apply (a : Awaiting) (t : Timed) : Awaiting :=
  (t.operation.serve a t.now).2

/-- The set after operations in order. -/
def after (a : Awaiting) (ops : List Timed) : Awaiting :=
  ops.foldl Timed.apply a

theorem after_concat (a : Awaiting) (ops : List Timed) (t : Timed) :
    after a (ops ++ [t]) = t.apply (after a ops) := by
  rw [after, List.foldl_concat, ← after]

theorem after_append (a : Awaiting) (before rest : List Timed) :
    after a (before ++ rest) = after (after a before) rest :=
  List.foldl_append

/-- What an operation can do: it makes a mark, takes away that of a message it touches, or does
nothing to marks. -/
theorem Timed.apply_cases (a : Awaiting) (t : Timed) :
    (∃ id, t.operation = .mark id ∧ t.apply a = a.mark t.now id) ∨
    (∃ id, t.operation.isMark = false ∧ (∀ id', t.operation.touches id' = (id == id')) ∧
      t.apply a = a.clear id) ∨
    (t.operation.isMark = false ∧ (∀ id', t.operation.touches id' = false) ∧ t.apply a = a) := by
  obtain ⟨now, operation⟩ := t
  cases operation with
  | mark id => exact Or.inl ⟨id, rfl, rfl⟩
  | take id => exact Or.inr (Or.inl ⟨id, rfl, fun _ => rfl, rfl⟩)
  | clear id => exact Or.inr (Or.inl ⟨id, rfl, fun _ => rfl, rfl⟩)
  | isAwaiting id => exact Or.inr (Or.inr ⟨rfl, fun _ => rfl, rfl⟩)

theorem lifetime_apply (a : Awaiting) (t : Timed) : (t.apply a).lifetime = a.lifetime := by
  rcases t.apply_cases a with ⟨id, -, happly⟩ | ⟨id, -, -, happly⟩ | ⟨-, -, happly⟩
  · rw [happly, lifetime_mark]
  · rw [happly]
    rfl
  · rw [happly]

theorem lifetime_after (a : Awaiting) (ops : List Timed) : (after a ops).lifetime = a.lifetime := by
  induction ops generalizing a with
  | nil => rfl
  | cons t rest ih => exact (ih _).trans (lifetime_apply a t)

/-! ## Marks that last -/

/-- What was last done to the mark of a message. -/
def lastOn? (id : Nat) (ops : List Timed) : Option Operation :=
  (ops.map Timed.operation).reverse.find? (·.touches id)

/-- No two operations are as far apart in time as the lifetime, if there is one. -/
def WithinLifetime (lifetime : Option Nat) (ops : List Timed) : Prop :=
  ∀ length, lifetime = some length → ∀ t ∈ ops, ∀ t' ∈ ops, t'.now < t.now + length

theorem lastOn?_concat (id : Nat) (ops : List Timed) (t : Timed) :
    lastOn? id (ops ++ [t]) =
      if t.operation.touches id then some t.operation else lastOn? id ops := by
  rw [lastOn?, List.map_append, List.reverse_append, List.map_singleton, List.reverse_singleton,
    List.singleton_append, List.find?_cons, lastOn?]
  cases t.operation.touches id <;> rfl

/-- A sweep finds nothing to take away while all marks count. -/
theorem sweep_eq_self {a : Awaiting} {now : Nat}
    (live : ∀ mark ∈ a.marks, a.isLive now mark.2 = true) : a.sweep now = a :=
  Awaiting.ext rfl (List.filter_eq_self.2 live) rfl

/-- A mark that no sweep comes before adds its message and changes no other. -/
theorem marked_mark_iff {a : Awaiting} {now id id' : Nat} (hsweep : a.sweep now = a) :
    (a.mark now id).Marked id' ↔ id' = id ∨ a.Marked id' := by
  refine ⟨Marked.of_mark, ?_⟩
  obtain ⟨kept, hkept, hmarks, -⟩ := mark_cases a now id
  rw [hsweep, or_self] at hkept
  subst hkept
  rintro (rfl | hmarked)
  · exact ⟨now, by rw [hmarks]; exact List.mem_cons_self⟩
  by_cases hid : id' = id
  · exact ⟨now, by rw [hmarks, hid]; exact List.mem_cons_self⟩
  · obtain ⟨time, hmem⟩ := marked_clear_iff.2 ⟨hid, hmarked⟩
    exact ⟨time, by rw [hmarks]; exact List.mem_cons_of_mem _ hmem⟩

/-- A message that an operation touches is marked exactly if that was a mark. -/
theorem marked_apply_iff {a : Awaiting} {t : Timed} {id : Nat} (hsweep : a.sweep t.now = a) :
    (t.apply a).Marked id ↔
      if t.operation.touches id then t.operation = .mark id else a.Marked id := by
  rcases t.apply_cases a with
    ⟨id', hop, happly⟩ | ⟨id', hmark, htouches, happly⟩ | ⟨-, htouches, happly⟩
  · rw [happly, marked_mark_iff hsweep, hop]
    by_cases hid : id' = id <;> simp [Operation.touches, hid, eq_comm (a := id)]
  · have hother : t.operation ≠ .mark id := by
      intro hop
      rw [hop] at hmark
      cases hmark
    rw [happly, marked_clear_iff, htouches]
    by_cases hid : id' = id <;> simp [hid, hother, eq_comm (a := id)]
  · rw [happly, htouches, if_neg Bool.false_ne_true]

/-- Every mark was made by an operation on the set, or was there before. -/
theorem mem_marks_apply {a : Awaiting} {t : Timed} {mark : Nat × Nat}
    (h : mark ∈ (t.apply a).marks) : mark.2 = t.now ∨ mark ∈ a.marks := by
  rcases t.apply_cases a with ⟨id, -, happly⟩ | ⟨id, -, -, happly⟩ | ⟨-, -, happly⟩
  · obtain ⟨kept, hkept, hmarks, -⟩ := mark_cases a t.now id
    rw [happly, hmarks] at h
    rcases List.mem_cons.1 h with rfl | hmem
    · exact Or.inl rfl
    · have hmem := (mem_clear_iff.1 hmem).1
      rcases hkept with rfl | rfl
      · exact Or.inr hmem
      · exact Or.inr (mem_sweep_iff.1 hmem).1
  · rw [happly] at h
    exact Or.inr (mem_clear_iff.1 h).1
  · rw [happly] at h
    exact Or.inr h

/-- A set that operations have left whose marks all count: the marked messages are those to which
a mark was done last. -/
structure Reached (lifetime : Option Nat) (ops : List Timed) (a : Awaiting) : Prop where
  lifetime_eq : a.lifetime = lifetime
  marked_iff : ∀ id, a.Marked id ↔ lastOn? id ops = some (.mark id)
  timed : ∀ mark ∈ a.marks, ∃ t ∈ ops, mark.2 = t.now

namespace Reached

variable {lifetime : Option Nat} {ops before : List Timed} {a : Awaiting} {t : Timed}

theorem empty (lifetime : Option Nat) : Reached lifetime [] { lifetime } where
  lifetime_eq := rfl
  marked_iff id := by simp [lastOn?, not_marked_of_marks_eq_nil]
  timed mark hmem := by cases hmem

/-- At the time of any operation, all marks count. -/
theorem live (h : Reached lifetime before a) (lasting : WithinLifetime lifetime ops)
    (hsub : before ⊆ ops) (ht : t ∈ ops) : ∀ mark ∈ a.marks, a.isLive t.now mark.2 = true := by
  intro mark hmem
  obtain ⟨made, hmade, htime⟩ := h.timed mark hmem
  rw [isLive, Option.all_eq_true, h.lifetime_eq, htime]
  intro length hlength
  have hpos := lasting length hlength t ht t ht
  have hlt := lasting length hlength made (hsub hmade) t ht
  rw [decide_eq_true_eq]
  omega

/-- What an operation does to the marks is what it does last to them. -/
theorem step (h : Reached lifetime before a)
    (live : ∀ mark ∈ a.marks, a.isLive t.now mark.2 = true) :
    Reached lifetime (before ++ [t]) (t.apply a) where
  lifetime_eq := (lifetime_apply a t).trans h.lifetime_eq
  marked_iff id := by
    rw [marked_apply_iff (sweep_eq_self live), lastOn?_concat]
    split
    · exact (Option.some_inj).symm
    · exact h.marked_iff id
  timed mark hmem := by
    rcases mem_marks_apply hmem with htime | hmem
    · exact ⟨t, List.mem_append_right before List.mem_cons_self, htime⟩
    · obtain ⟨made, hmade, htime⟩ := h.timed mark hmem
      exact ⟨made, List.mem_append_left [t] hmade, htime⟩

/-- Induction on the operations, of which none outlives a mark. -/
theorem of_after (lasting : WithinLifetime lifetime ops) (hsub : before ⊆ ops) :
    Reached lifetime before (after { lifetime } before) := by
  induction before using List.reverseRecOn with
  | nil => exact empty lifetime
  | append_singleton before t ih =>
    have ht : t ∈ ops := hsub (List.mem_append_right before List.mem_cons_self)
    have hbefore : before ⊆ ops := fun _ hmem => hsub (List.mem_append_left [t] hmem)
    rw [after_concat]
    exact (ih hbefore).step ((ih hbefore).live lasting hbefore ht)

end Reached

/-- There are as many marks as marked messages. -/
theorem exists_size_eq (a : Awaiting) :
    ∃ ids : Finset Nat, (∀ id, id ∈ ids ↔ a.Marked id) ∧ a.size = ids.card := by
  refine ⟨(a.marks.map Prod.fst).toFinset, ?_, ?_⟩
  · intro id
    rw [List.mem_toFinset, List.mem_map]
    constructor
    · rintro ⟨⟨_, time⟩, hmem, rfl⟩
      exact ⟨time, hmem⟩
    · rintro ⟨time, hmem⟩
      exact ⟨(id, time), hmem, rfl⟩
  · rw [List.toFinset_card_of_nodup a.distinct, List.length_map, size]

/-- **A plain set**, as long as no mark runs out: whoever asks about a message is told whether the
last thing done to its mark was to make it, the size is the number of these messages, and whenever
a sweep comes it changes nothing. -/
theorem refines_plain_set {lifetime : Option Nat} {ops : List Timed}
    (lasting : WithinLifetime lifetime ops) :
    (∀ before t rest, ops = before ++ t :: rest →
      let a := after { lifetime } before
      (t.operation.serve a t.now).1 = t.operation.asked?.map
        (fun id => decide (lastOn? id before = some (.mark id))) ∧
      a.sweep t.now = a) ∧
    (∀ before rest, ops = before ++ rest →
      let a := after { lifetime } before
      (∃ ids : Finset Nat, (∀ id, id ∈ ids ↔ lastOn? id before = some (.mark id)) ∧
        a.size = ids.card) ∧
      (a.isEmpty = true ↔ a.size = 0)) := by
  constructor
  · rintro before t rest rfl a
    have hsub : before ⊆ before ++ t :: rest := List.subset_append_left _ _
    have hreached : Reached lifetime before a := .of_after lasting hsub
    have hlive := hreached.live lasting hsub (List.mem_append_right before List.mem_cons_self)
    refine ⟨?_, sweep_eq_self hlive⟩
    rw [Operation.answer_serve]
    refine Option.map_congr fun id _ => ?_
    rw [Bool.eq_iff_iff, isAwaiting_iff_marked hlive, hreached.marked_iff, decide_eq_true_iff]
  · rintro before rest rfl a
    have hreached : Reached lifetime before a :=
      .of_after lasting (List.subset_append_left _ _)
    obtain ⟨ids, hids, hsize⟩ := a.exists_size_eq
    refine ⟨⟨ids, fun id => (hids id).trans (hreached.marked_iff id), hsize⟩, ?_⟩
    rw [isEmpty, List.isEmpty_iff, size, List.length_eq_zero_iff]

theorem refines_plain_set_swept :
    let marks : List Timed := (List.range 66).map fun n => ⟨n / 10, .mark (n % 65)⟩
    let a := after { lifetime := some 8 } marks
    WithinLifetime (some 8) (marks ++ [⟨7, .take 3⟩, ⟨7, .isAwaiting 3⟩]) ∧
      ((Operation.take 3).serve a 7).1 = some true ∧ a.sweep 7 = a ∧
      ((Operation.isAwaiting 3).serve (after a [⟨7, .take 3⟩]) 7).1 = some false := by
  intro marks a
  have lasting : WithinLifetime (some 8) (marks ++ [⟨7, .take 3⟩, ⟨7, .isAwaiting 3⟩]) := by
    rintro _ ⟨⟩
    decide +kernel
  obtain ⟨hanswers, -⟩ := refines_plain_set lasting
  have htaken := hanswers marks ⟨7, .take 3⟩ [⟨7, .isAwaiting 3⟩] rfl
  have hgone := hanswers (marks ++ [⟨7, .take 3⟩]) ⟨7, .isAwaiting 3⟩ [] rfl
  refine ⟨lasting, htaken.1.trans ?_, htaken.2, ?_⟩
  · decide +kernel
  · rw [after_append] at hgone
    exact hgone.1.trans (by decide +kernel)

/-! ## Marks that run out at once -/

/-- The number of marks that operations make. -/
def marksIn (ops : List Timed) : Nat :=
  ops.countP (·.operation.isMark)

theorem marksIn_append (before rest : List Timed) :
    marksIn (before ++ rest) = marksIn before + marksIn rest :=
  List.countP_append

theorem marksIn_cons (t : Timed) (rest : List Timed) :
    marksIn (t :: rest) = marksIn [t] + marksIn rest :=
  marksIn_append [t] rest

theorem marksIn_singleton (t : Timed) : marksIn [t] = if t.operation.isMark then 1 else 0 := by
  rw [marksIn, List.countP_singleton]

theorem made_apply (a : Awaiting) (t : Timed) : (t.apply a).made = a.made + marksIn [t] := by
  rw [marksIn_singleton]
  rcases t.apply_cases a with ⟨id, hop, happly⟩ | ⟨id, hmark, -, happly⟩ | ⟨hmark, -, happly⟩
  · rw [happly, hop]
    rfl
  · rw [happly, hmark]
    rfl
  · rw [happly, hmark]
    rfl

theorem made_after (a : Awaiting) (ops : List Timed) :
    (after a ops).made = a.made + marksIn ops := by
  induction ops generalizing a with
  | nil => rfl
  | cons t rest ih =>
    rw [marksIn_cons, ← Nat.add_assoc, ← made_apply]
    exact ih (t.apply a)

theorem size_clear_le (a : Awaiting) (id : Nat) : (a.clear id).size ≤ a.size :=
  List.length_filter_le _ _

theorem size_mark_le (a : Awaiting) (now id : Nat) : (a.mark now id).size ≤ a.size + 1 := by
  obtain ⟨kept, hkept, hmarks, -⟩ := mark_cases a now id
  have hle : kept.size ≤ a.size := by
    rcases hkept with rfl | rfl
    · exact Nat.le_refl _
    · exact List.length_filter_le _ _
  rw [size, hmarks, List.length_cons]
  exact Nat.succ_le_succ ((size_clear_le kept id).trans hle)

/-- Only marks make the set larger, each by one. -/
theorem size_apply_le (a : Awaiting) (t : Timed) : (t.apply a).size ≤ a.size + marksIn [t] := by
  rw [marksIn_singleton]
  rcases t.apply_cases a with ⟨id, hop, happly⟩ | ⟨id, hmark, -, happly⟩ | ⟨hmark, -, happly⟩
  · rw [happly, hop]
    exact size_mark_le a t.now id
  · rw [happly, hmark]
    exact size_clear_le a id
  · rw [happly, hmark]
    exact Nat.le_refl _

theorem size_after_le (a : Awaiting) (ops : List Timed) :
    (after a ops).size ≤ a.size + marksIn ops := by
  induction ops generalizing a with
  | nil => exact Nat.le_refl _
  | cons t rest ih =>
    have hstep := size_apply_le a t
    have hrest : (after a (t :: rest)).size ≤ (t.apply a).size + marksIn rest := ih _
    rw [marksIn_cons]
    omega

section Expired

variable {a : Awaiting} (expired : a.lifetime = some 0)
include expired

theorem isLive_of_expired (now time : Nat) : a.isLive now time = false := by
  simp [isLive, expired]

theorem isAwaiting_of_expired (now id : Nat) : a.isAwaiting now id = false := by
  rw [isAwaiting, Option.any_eq_false]
  intro time _
  simp [isLive_of_expired expired]

/-- A mark that is due for a sweep is alone after it. -/
theorem size_mark_of_due (due : (a.made + 1) % sweepEvery = 0) (now id : Nat) :
    (a.mark now id).size = 1 := by
  have hswept : (a.sweep now).marks = [] := by
    refine List.filter_eq_nil_iff.2 fun mark _ => ?_
    simp [isLive_of_expired expired]
  have hmarks : (a.mark now id).marks = (id, now) :: ((a.sweep now).clear id).marks := by
    rw [mark]
    simp only [if_pos due]
  have hcleared : ((a.sweep now).clear id).marks = [] :=
    congrArg (List.filter fun mark : Nat × Nat => mark.1 != id) hswept
  rw [size, hmarks, hcleared]
  rfl

theorem size_apply_of_due {t : Timed} (hmark : t.operation.isMark = true)
    (due : (a.made + 1) % sweepEvery = 0) : (t.apply a).size = 1 := by
  rcases t.apply_cases a with ⟨id, -, happly⟩ | ⟨id, hnot, -, -⟩ | ⟨hnot, -, -⟩
  · rw [happly]
    exact size_mark_of_due expired due t.now id
  · rw [hnot] at hmark
    cases hmark
  · rw [hnot] at hmark
    cases hmark

/-- The bound by the marks since the last sweep is kept: a sweep leaves one mark, and until the
next one there is at most one more for each mark that is made. -/
theorem size_apply_le_of_expired (t : Timed) (h : a.size ≤ 1 + a.made % sweepEvery) :
    (t.apply a).size ≤ 1 + (t.apply a).made % sweepEvery := by
  have hsize := size_apply_le a t
  have hmade := made_apply a t
  rw [marksIn_singleton] at hsize hmade
  cases hmark : t.operation.isMark with
  | false =>
    rw [hmark, if_neg Bool.false_ne_true, Nat.add_zero] at hsize hmade
    rw [hmade]
    exact hsize.trans h
  | true =>
    rw [hmark, if_pos rfl] at hsize hmade
    by_cases due : (a.made + 1) % sweepEvery = 0
    · rw [size_apply_of_due expired hmark due]
      exact Nat.le_add_right 1 _
    · rw [hmade]
      unfold sweepEvery at *
      omega

end Expired

theorem size_after_le_of_expired (ops : List Timed) :
    (after { lifetime := some 0 } ops).size ≤ 1 + marksIn ops % sweepEvery := by
  have hmade := made_after { lifetime := some 0 } ops
  rw [Nat.zero_add] at hmade
  rw [← hmade]
  clear hmade
  induction ops using List.reverseRecOn with
  | nil => exact Nat.zero_le _
  | append_singleton before t ih =>
    rw [after_concat]
    exact size_apply_le_of_expired (lifetime_after _ before) t ih

/-- **Few marks that do not count.** If marks run out at once, whoever asks about a message is told
that it is not awaited. There are never more marks than are made from one sweep to the next: a mark
that is the last of so many is alone when it is made, and after that there is at most one more for
each further mark. -/
theorem expired_marks_bounded (ops : List Timed) :
    let reached := after { lifetime := some 0 }
    (∀ t : Timed, (t.operation.serve (reached ops) t.now).1 =
      t.operation.asked?.map fun _ => false) ∧
    (reached ops).size ≤ sweepEvery ∧
    (∀ now id j, marksIn ops + 1 = sweepEvery * j →
      (reached (ops ++ [⟨now, .mark id⟩])).size = 1) ∧
    ∀ before rest j, ops = before ++ rest → marksIn before = sweepEvery * j →
      (reached ops).size ≤ 1 + marksIn rest := by
  intro reached
  have hexpired : (reached ops).lifetime = some 0 := lifetime_after _ ops
  refine ⟨?_, ?_, ?_, ?_⟩
  · intro t
    rw [Operation.answer_serve]
    exact Option.map_congr fun id _ => isAwaiting_of_expired hexpired t.now id
  · have hbound : (reached ops).size ≤ 1 + marksIn ops % sweepEvery := size_after_le_of_expired ops
    have hmod : marksIn ops % sweepEvery < sweepEvery := Nat.mod_lt _ (by decide)
    omega
  · intro now id j hj
    have hmade : (reached ops).made = 0 + marksIn ops := made_after _ ops
    have hdue : ((reached ops).made + 1) % sweepEvery = 0 := by
      rw [hmade, Nat.zero_add, hj, Nat.mul_mod_right]
    show (after _ (ops ++ [_])).size = 1
    rw [after_concat]
    exact size_apply_of_due hexpired rfl hdue
  · rintro before rest j rfl hj
    have hbefore := size_after_le_of_expired before
    rw [hj, Nat.mul_mod_right] at hbefore
    have hrest := size_after_le (reached before) rest
    show (after _ (before ++ rest)).size ≤ _
    rw [after_append]
    exact hrest.trans (Nat.add_le_add_right hbefore _)

end ChatCommands.Awaiting
