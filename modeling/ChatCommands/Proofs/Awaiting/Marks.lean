import ChatCommands.Awaiting
import ChatCommands.Dictionary

/-!
# Marks

Which messages have a mark, whether or not it still counts. Only `Awaiting.mark` makes one, and
sweeping only removes marks, so what has no mark is not awaited at any time.

Each message is marked once, so it is awaited exactly if a mark of it counts
(`Awaiting.isAwaiting_iff`), whatever the order of the marks.
-/

namespace ChatCommands.Awaiting

theorem mem_clear_iff {a : Awaiting} {id : Nat} {mark : Nat × Nat} :
    mark ∈ (a.clear id).marks ↔ mark ∈ a.marks ∧ mark.1 ≠ id :=
  List.mem_filter.trans (and_congr_right fun _ => bne_iff_ne)

theorem mem_sweep_iff {a : Awaiting} {now : Nat} {mark : Nat × Nat} :
    mark ∈ (a.sweep now).marks ↔ mark ∈ a.marks ∧ a.isLive now mark.2 = true :=
  List.mem_filter

/-- A message is awaited if it has a mark that counts. -/
theorem isAwaiting_iff {a : Awaiting} {now id : Nat} :
    a.isAwaiting now id = true ↔ ∃ time, (id, time) ∈ a.marks ∧ a.isLive now time = true := by
  rw [isAwaiting, Option.any_eq_true]
  exact exists_congr fun _ => and_congr_left fun _ => Dictionary.lookup_eq_some_iff_mem a.distinct

/-- Whether a message has a mark at all. -/
def Marked (a : Awaiting) (id : Nat) : Prop :=
  ∃ time, (id, time) ∈ a.marks

theorem not_marked_of_marks_eq_nil {a : Awaiting} (h : a.marks = []) (id : Nat) :
    ¬ a.Marked id := by
  rintro ⟨time, hmem⟩
  rw [h] at hmem
  cases hmem

theorem marked_clear_iff {a : Awaiting} {id id' : Nat} :
    (a.clear id).Marked id' ↔ id' ≠ id ∧ a.Marked id' := by
  constructor
  · rintro ⟨time, hmem⟩
    obtain ⟨hmem, hne⟩ := mem_clear_iff.1 hmem
    exact ⟨hne, time, hmem⟩
  · rintro ⟨hne, time, hmem⟩
    exact ⟨time, mem_clear_iff.2 ⟨hmem, hne⟩⟩

theorem not_marked_clear (a : Awaiting) (id : Nat) : ¬ (a.clear id).Marked id :=
  fun h => (marked_clear_iff.1 h).1 rfl

theorem Marked.of_clear {a : Awaiting} {id id' : Nat} (h : (a.clear id).Marked id') :
    a.Marked id' :=
  (marked_clear_iff.1 h).2

theorem Marked.of_sweep {a : Awaiting} {now id : Nat} (h : (a.sweep now).Marked id) :
    a.Marked id := by
  obtain ⟨time, hmem⟩ := h
  exact ⟨time, (mem_sweep_iff.1 hmem).1⟩

/-- A mark of one message leaves no other message marked that was not. -/
theorem Marked.of_mark {a : Awaiting} {now id id' : Nat} (h : (a.mark now id).Marked id') :
    id' = id ∨ a.Marked id' := by
  obtain ⟨time, hmem⟩ := h
  rcases List.mem_cons.1 hmem with heq | hkept
  · cases heq
    exact Or.inl rfl
  · -- a sweep before the mark only takes marks away
    right
    have hcleared := Marked.of_clear ⟨time, hkept⟩
    split at hcleared
    · exact hcleared.of_sweep
    · exact hcleared

theorem marked_of_isAwaiting {a : Awaiting} {now id : Nat} (h : a.isAwaiting now id = true) :
    a.Marked id := by
  obtain ⟨time, hmem, -⟩ := isAwaiting_iff.1 h
  exact ⟨time, hmem⟩

end ChatCommands.Awaiting
