/-!
# Edits of a word

The least number of single-character edits that lead from one word to another. `firstDistance`
decides about the first characters and goes on with what is left of the two words: so many edits are
enough (`edits_firstDistance`), and fewer never are (`firstDistance_le_of_edits`). That it is a
lower bound is shown one edit at a time: an edit of one of the words changes it by one at most
(`firstDistance_le_of_edit`).

Words can be read from either end: edits of a word are edits of its reverse (`Edits.reverse`).
-/

namespace ChatCommands.Suggestion

/-- A word and what a single edit makes of it. -/
inductive Edit : List Char → List Char → Prop where
  | insert (c : Char) (a : List Char) : Edit a (c :: a)
  | delete (c : Char) (a : List Char) : Edit (c :: a) a
  | substitute (c d : Char) (a : List Char) : Edit (c :: a) (d :: a)
  /-- The edit is further on in the word. -/
  | later (c : Char) {a b : List Char} (edit : Edit a b) : Edit (c :: a) (c :: b)

/-- A word and what a number of edits, one after the other, make of it. -/
inductive Edits : Nat → List Char → List Char → Prop where
  | none (a : List Char) : Edits 0 a a
  | next {n : Nat} {a b c : List Char} (edit : Edit a b) (rest : Edits n b c) : Edits (n + 1) a c

theorem Edits.eq_of_zero {a b : List Char} (h : Edits 0 a b) : a = b := by
  cases h
  rfl

theorem Edits.later {n : Nat} {a b : List Char} (h : Edits n a b) (c : Char) :
    Edits n (c :: a) (c :: b) := by
  induction h with
  | none a => exact .none (c :: a)
  | next edit rest ih => exact .next (edit.later c) ih

/-! ## Reversed words -/

theorem Edit.append {a b : List Char} (h : Edit a b) (after : List Char) :
    Edit (a ++ after) (b ++ after) := by
  induction h with
  | insert c a => exact .insert c (a ++ after)
  | delete c a => exact .delete c (a ++ after)
  | substitute c d a => exact .substitute c d (a ++ after)
  | later c edit ih => exact .later c ih

theorem Edit.after {a b : List Char} (h : Edit a b) (before : List Char) :
    Edit (before ++ a) (before ++ b) := by
  induction before with
  | nil => exact h
  | cons c before ih => exact .later c ih

theorem Edit.reverse {a b : List Char} (h : Edit a b) : Edit a.reverse b.reverse := by
  induction h with
  | insert c a =>
    rw [List.reverse_cons]
    simpa using (Edit.insert c []).after a.reverse
  | delete c a =>
    rw [List.reverse_cons]
    simpa using (Edit.delete c []).after a.reverse
  | substitute c d a =>
    rw [List.reverse_cons, List.reverse_cons]
    exact (Edit.substitute c d []).after a.reverse
  | later c edit ih =>
    rw [List.reverse_cons, List.reverse_cons]
    exact ih.append [c]

theorem Edits.reverse {n : Nat} {a b : List Char} (h : Edits n a b) :
    Edits n a.reverse b.reverse := by
  induction h with
  | none a => exact .none a.reverse
  | next edit rest ih => exact .next edit.reverse ih

/-! ## The distance by first characters -/

/-- The number of edits that it takes if the first characters are dealt with one by one: one is
deleted, or inserted, or they are matched. -/
def firstDistance : List Char → List Char → Nat
  | [], b => b.length
  | _ :: a, [] => a.length + 1
  | c :: a, d :: b =>
    min (min (firstDistance a (d :: b) + 1) (firstDistance (c :: a) b + 1))
      (firstDistance a b + if c = d then 0 else 1)
  termination_by a b => a.length + b.length

@[simp] theorem firstDistance_nil_left (b : List Char) : firstDistance [] b = b.length := by
  rw [firstDistance]

@[simp] theorem firstDistance_nil_right (a : List Char) : firstDistance a [] = a.length := by
  cases a with
  | nil => rw [firstDistance]
  | cons c a => rw [firstDistance, List.length_cons]

theorem firstDistance_cons (c d : Char) (a b : List Char) :
    firstDistance (c :: a) (d :: b) =
      min (min (firstDistance a (d :: b) + 1) (firstDistance (c :: a) b + 1))
        (firstDistance a b + if c = d then 0 else 1) := by
  rw [firstDistance]

/-! ## Enough edits -/

theorem Edits.deleted {n : Nat} {a b : List Char} (h : Edits n a b) (c : Char) :
    Edits (n + 1) (c :: a) b :=
  .next (.delete c a) h

theorem Edits.inserted {n : Nat} {a b : List Char} (h : Edits n a b) (d : Char) :
    Edits (n + 1) a (d :: b) :=
  .next (.insert d a) (h.later d)

theorem Edits.matched {n : Nat} {a b : List Char} (h : Edits n a b) (c d : Char) :
    Edits (n + if c = d then 0 else 1) (c :: a) (d :: b) := by
  split
  · next heq =>
    subst heq
    exact h.later c
  · exact .next (.substitute c d a) (h.later d)

/-- As many edits as the distance says turn one word into the other: at each character they follow
the least of the three choices. -/
theorem edits_firstDistance (a b : List Char) : Edits (firstDistance a b) a b := by
  induction a generalizing b with
  | nil =>
    rw [firstDistance_nil_left]
    induction b with
    | nil => exact .none []
    | cons d b ih => exact ih.inserted d
  | cons c a iha =>
    induction b with
    | nil =>
      have hnil := iha []
      rw [firstDistance_nil_right] at hnil ⊢
      exact hnil.deleted c
    | cons d b ihb =>
      have hleast : firstDistance (c :: a) (d :: b) = firstDistance a (d :: b) + 1 ∨
          firstDistance (c :: a) (d :: b) = firstDistance (c :: a) b + 1 ∨
          firstDistance (c :: a) (d :: b) = firstDistance a b + if c = d then 0 else 1 := by
        rw [firstDistance_cons]
        omega
      rcases hleast with hdelete | hinsert | hmatch
      · rw [hdelete]
        exact (iha (d :: b)).deleted c
      · rw [hinsert]
        exact ihb.inserted d
      · rw [hmatch]
        exact (iha b).matched c d

/-! ## No fewer edits -/

/-- The bounds that each of the three choices gives. -/
theorem firstDistance_cons_le (c d : Char) (a b : List Char) :
    firstDistance (c :: a) (d :: b) ≤ firstDistance a (d :: b) + 1 ∧
      firstDistance (c :: a) (d :: b) ≤ firstDistance (c :: a) b + 1 ∧
      firstDistance (c :: a) (d :: b) ≤ firstDistance a b + 1 := by
  rw [firstDistance_cons]
  split <;> omega

theorem firstDistance_delete_le (c : Char) (a x : List Char) :
    firstDistance (c :: a) x ≤ firstDistance a x + 1 := by
  cases x with
  | nil => simp
  | cons y x => exact (firstDistance_cons_le c y a x).1

theorem firstDistance_insert_le (a : List Char) (y : Char) (x : List Char) :
    firstDistance a (y :: x) ≤ firstDistance a x + 1 := by
  cases a with
  | nil => simp
  | cons c a => exact (firstDistance_cons_le c y a x).2.1

/-- Without its first character, a word is not further away by more than one: induction on the
word that it is compared with. -/
theorem firstDistance_le_cons (c : Char) (a x : List Char) :
    firstDistance a x ≤ firstDistance (c :: a) x + 1 := by
  induction x with
  | nil =>
    rw [firstDistance_nil_right, firstDistance_nil_right, List.length_cons]
    omega
  | cons y x ih =>
    have hinsert := firstDistance_insert_le a y x
    rw [firstDistance_cons]
    omega

theorem firstDistance_substitute_le (c d : Char) (a x : List Char) :
    firstDistance (c :: a) x ≤ firstDistance (d :: a) x + 1 := by
  induction x with
  | nil => simp
  | cons y x ih =>
    obtain ⟨hdelete, hinsert, hmatch⟩ := firstDistance_cons_le c y a x
    rw [firstDistance_cons d]
    omega

/-- What holds of two words still holds with one more character in front of both. -/
theorem firstDistance_later_le {a b : List Char}
    (h : ∀ x, firstDistance a x ≤ firstDistance b x + 1) (c : Char) (x : List Char) :
    firstDistance (c :: a) x ≤ firstDistance (c :: b) x + 1 := by
  induction x with
  | nil =>
    have hnil := h []
    simp only [firstDistance_nil_right] at hnil
    simpa using hnil
  | cons y x ih =>
    have hdelete := h (y :: x)
    have hmatch := h x
    rw [firstDistance_cons, firstDistance_cons]
    omega

/-- An edit of a word brings it nearer to others by one at most. -/
theorem firstDistance_le_of_edit {a b : List Char} (h : Edit a b) (x : List Char) :
    firstDistance a x ≤ firstDistance b x + 1 := by
  induction h generalizing x with
  | insert c a => exact firstDistance_le_cons c a x
  | delete c a => exact firstDistance_delete_le c a x
  | substitute c d a => exact firstDistance_substitute_le c d a x
  | later c edit ih => exact firstDistance_later_le ih c x

theorem firstDistance_self (a : List Char) : firstDistance a a = 0 := by
  induction a with
  | nil => simp
  | cons c a ih => simp [firstDistance_cons, ih]

/-- No fewer edits than the distance says turn one word into the other: induction on the edits. -/
theorem firstDistance_le_of_edits {n : Nat} {a b : List Char} (h : Edits n a b) :
    firstDistance a b ≤ n := by
  induction h with
  | none a => exact Nat.le_of_eq (firstDistance_self a)
  | @next n a b c edit rest ih =>
    exact Nat.le_trans (firstDistance_le_of_edit edit c) (Nat.succ_le_succ ih)

end ChatCommands.Suggestion
