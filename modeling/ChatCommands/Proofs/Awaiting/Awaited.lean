import ChatCommands.Proofs.Awaiting.Marks

/-!
# Awaited messages

Which messages are awaited at a time, after each operation on the set. A sweep takes away only what
has stopped counting for good, so no later question can tell that there was one
(`Awaiting.isAwaiting_sweep`), and with it the count of marks that decides about sweeps.

Two sets agree on a message from a time on (`Awaiting.Agree`) if no question about this message
tells them apart at that time or later. Operations on either message keep them in agreement.
-/

namespace ChatCommands.Awaiting

/-! ## Single operations -/

/-- A mark is made in the set as it is or after a sweep, in place of the one that its message
has. -/
theorem mark_cases (a : Awaiting) (now id : Nat) :
    ∃ kept, (kept = a ∨ kept = a.sweep now) ∧
      (a.mark now id).marks = (id, now) :: (kept.clear id).marks ∧
      (a.mark now id).lifetime = a.lifetime := by
  by_cases hdue : (a.made + 1) % sweepEvery = 0
  · exact ⟨a.sweep now, Or.inr rfl, by simp [mark, hdue], by simp [mark, hdue, sweep, filter]⟩
  · exact ⟨a, Or.inl rfl, by simp [mark, hdue], by simp [mark, hdue]⟩

theorem lifetime_mark (a : Awaiting) (now id : Nat) : (a.mark now id).lifetime = a.lifetime := by
  obtain ⟨-, -, -, hlifetime⟩ := mark_cases a now id
  exact hlifetime

/-! ## What counts, and when -/

theorem isLive_congr {a b : Awaiting} (h : a.lifetime = b.lifetime) (now time : Nat) :
    a.isLive now time = b.isLive now time := by
  rw [isLive, isLive, h]

/-- A mark that has stopped counting does not count again. -/
theorem isLive_of_le {a : Awaiting} {now later time : Nat} (hle : now ≤ later)
    (h : a.isLive later time = true) : a.isLive now time = true := by
  rw [isLive, Option.all_eq_true] at h ⊢
  intro lifetime hlifetime
  have hlt := h lifetime hlifetime
  simp only [decide_eq_true_eq] at hlt ⊢
  omega

/-- A message that is not awaited is not awaited later either, unless it is marked again. -/
theorem isAwaiting_eq_false_of_le {a : Awaiting} {now later id : Nat} (hle : now ≤ later)
    (h : a.isAwaiting now id = false) : a.isAwaiting later id = false := by
  rw [Bool.eq_false_iff, Ne, isAwaiting_iff] at h ⊢
  rintro ⟨time, hmem, hlive⟩
  exact h ⟨time, hmem, isLive_of_le hle hlive⟩

/-- While all marks count, the awaited messages are those that are marked. -/
theorem isAwaiting_iff_marked {a : Awaiting} {now id : Nat}
    (live : ∀ mark ∈ a.marks, a.isLive now mark.2 = true) :
    a.isAwaiting now id = true ↔ a.Marked id := by
  refine ⟨marked_of_isAwaiting, ?_⟩
  rintro ⟨time, hmem⟩
  exact isAwaiting_iff.2 ⟨time, hmem, live _ hmem⟩

theorem isAwaiting_clear (a : Awaiting) (t id id' : Nat) :
    (a.clear id).isAwaiting t id' = (id' != id && a.isAwaiting t id') := by
  rw [Bool.eq_iff_iff, Bool.and_eq_true, bne_iff_ne, isAwaiting_iff, isAwaiting_iff]
  constructor
  · rintro ⟨time, hmem, hlive⟩
    obtain ⟨hmem, hne⟩ := mem_clear_iff.1 hmem
    exact ⟨hne, time, hmem, hlive⟩
  · rintro ⟨hne, time, hmem, hlive⟩
    exact ⟨time, mem_clear_iff.2 ⟨hmem, hne⟩, hlive⟩

/-- **A sweep goes unnoticed**: what it takes away would not have counted later either. -/
theorem isAwaiting_sweep (a : Awaiting) {now t : Nat} (hle : now ≤ t) (id : Nat) :
    (a.sweep now).isAwaiting t id = a.isAwaiting t id := by
  rw [Bool.eq_iff_iff, isAwaiting_iff, isAwaiting_iff]
  constructor
  · rintro ⟨time, hmem, hlive⟩
    exact ⟨time, (mem_sweep_iff.1 hmem).1, hlive⟩
  · rintro ⟨time, hmem, hlive⟩
    exact ⟨time, mem_sweep_iff.2 ⟨hmem, isLive_of_le hle hlive⟩, hlive⟩

theorem isAwaiting_mark (a : Awaiting) {now t : Nat} (hle : now ≤ t) (id id' : Nat) :
    (a.mark now id).isAwaiting t id' =
      if id' = id then a.isLive t now else a.isAwaiting t id' := by
  obtain ⟨kept, hkept, hmarks, hlifetime⟩ := mark_cases a now id
  have hlive : (a.mark now id).isLive t = a.isLive t := funext (isLive_congr hlifetime t)
  rw [isAwaiting, hmarks, hlive]
  by_cases hid : id' = id
  · subst hid
    rw [if_pos rfl, List.lookup_cons_self]
    rfl
  · -- what another message has is left by the sweep, if there is one
    have hkept' : kept.isLive t = a.isLive t ∧
        kept.isAwaiting t id' = a.isAwaiting t id' := by
      rcases hkept with rfl | rfl
      · exact ⟨rfl, rfl⟩
      · exact ⟨rfl, a.isAwaiting_sweep hle id'⟩
    obtain ⟨hsame, hawaiting⟩ := hkept'
    have hclear := kept.isAwaiting_clear t id id'
    rw [bne_iff_ne.2 hid, Bool.true_and, hawaiting] at hclear
    rw [if_neg hid, List.lookup_cons, beq_false_of_ne hid, ← hsame]
    exact hclear

/-! ## Agreement -/

/-- From a time on, two sets give the same answers about a message. -/
structure Agree (now id : Nat) (a b : Awaiting) : Prop where
  lifetime : a.lifetime = b.lifetime
  awaited : ∀ t, now ≤ t → a.isAwaiting t id = b.isAwaiting t id

namespace Agree

variable {now id : Nat} {a b c : Awaiting}

theorem refl (now id : Nat) (a : Awaiting) : Agree now id a a :=
  ⟨rfl, fun _ _ => rfl⟩

theorem trans (hab : Agree now id a b) (hbc : Agree now id b c) : Agree now id a c :=
  ⟨hab.lifetime.trans hbc.lifetime, fun t ht => (hab.awaited t ht).trans (hbc.awaited t ht)⟩

theorem mono (h : Agree now id a b) {later : Nat} (hle : now ≤ later) : Agree later id a b :=
  ⟨h.lifetime, fun t ht => h.awaited t (Nat.le_trans hle ht)⟩

theorem clear (h : Agree now id a b) (id' : Nat) :
    Agree now id (a.clear id') (b.clear id') where
  lifetime := h.lifetime
  awaited t ht := by rw [isAwaiting_clear, isAwaiting_clear, h.awaited t ht]

theorem mark (h : Agree now id a b) (id' : Nat) :
    Agree now id (a.mark now id') (b.mark now id') where
  lifetime := by rw [lifetime_mark, lifetime_mark, h.lifetime]
  awaited t ht := by
    rw [isAwaiting_mark a ht, isAwaiting_mark b ht, isLive_congr h.lifetime, h.awaited t ht]

/-- Taking away the mark of one message changes nothing about another. -/
theorem clear_other (a : Awaiting) (now : Nat) {id id' : Nat} (hne : id ≠ id') :
    Agree now id (a.clear id') a where
  lifetime := rfl
  awaited t _ := by rw [isAwaiting_clear, bne_iff_ne.2 hne, Bool.true_and]

/-- Neither does marking it. -/
theorem mark_other (a : Awaiting) (now : Nat) {id id' : Nat} (hne : id ≠ id') :
    Agree now id (a.mark now id') a where
  lifetime := lifetime_mark a now id'
  awaited t ht := by rw [isAwaiting_mark a ht, if_neg hne]

end Agree

end ChatCommands.Awaiting
