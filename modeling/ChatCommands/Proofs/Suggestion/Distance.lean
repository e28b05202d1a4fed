import ChatCommands.Proofs.Suggestion.Edits
import ChatCommands.Suggestion
import Mathlib.Data.List.Basic

/-!
# The table of distances

The distance of two words is the least number of single-character edits that lead from one to the
other (`distance_least`).

The cell in a row and a column of the table holds the distance of two beginnings, which is decided
at their last characters (`lastDistance`). A row is filled correctly from a correct row above,
whatever it held before (`cells_fillRow`).
-/

namespace ChatCommands.Suggestion

/-! ## The distance by last characters -/

/-- The number of edits that it takes if the last characters are dealt with one by one. -/
def lastDistance (a b : List Char) : Nat :=
  firstDistance a.reverse b.reverse

theorem lastDistance_nil_left (b : List Char) : lastDistance [] b = b.length := by
  simp [lastDistance]

theorem lastDistance_nil_right (a : List Char) : lastDistance a [] = a.length := by
  simp [lastDistance]

theorem lastDistance_concat (c d : Char) (a b : List Char) :
    lastDistance (a ++ [c]) (b ++ [d]) =
      min (min (lastDistance a (b ++ [d]) + 1) (lastDistance (a ++ [c]) b + 1))
        (lastDistance a b + if c = d then 0 else 1) := by
  simp only [lastDistance, List.reverse_concat, firstDistance_cons]

theorem edits_lastDistance (a b : List Char) : Edits (lastDistance a b) a b := by
  simpa [lastDistance] using (edits_firstDistance a.reverse b.reverse).reverse

theorem lastDistance_le_of_edits {n : Nat} {a b : List Char} (h : Edits n a b) :
    lastDistance a b ≤ n :=
  firstDistance_le_of_edits h.reverse

/-! ## The table -/

/-- What holds after each number of rounds holds in the end. -/
theorem foldl_invariant {α : Type} {n : Nat} {f : α → Fin n → α} (P : Nat → α → Prop) {start : α}
    (first : P 0 start) (step : ∀ (i : Fin n) (x : α), P i.val x → P (i.val + 1) (f x i)) :
    P n (Fin.foldl n f start) := by
  induction n with
  | zero => exact first
  | succ n ih =>
    rw [Fin.foldl_succ_last]
    exact step (Fin.last n) _ (ih fun i x => step i.castSucc x)

/-- The first `k` cells after the leftmost one, and that one, hold the distances from a word. -/
def Cells (a : List Char) (b : Array Char) (k : Nat) (row : Vector Nat (b.size + 1)) : Prop :=
  ∀ (j : Nat) (hj : j < b.size + 1), j ≤ k → row[j] = lastDistance a (b.toList.take j)

/-- One more cell is right if the row above is, and the cells to the left are. -/
theorem cells_fillCell {a : List Char} {c : Char} {b : Array Char}
    {above row : Vector Nat (b.size + 1)} (habove : Cells a b b.size above) (j : Fin b.size)
    (h : Cells (a ++ [c]) b j.val row) :
    Cells (a ++ [c]) b (j.val + 1) (fillCell c b above row j) := by
  intro k hk hle
  have hj : j.val < b.size := j.isLt
  have hnext : b.toList.take (j.val + 1) = b.toList.take j.val ++ [b[j]] := by
    rw [List.take_add_one, Array.getElem?_toList, Array.getElem?_eq_getElem hj]
    rfl
  rw [fillCell]
  by_cases hlast : j.val + 1 = k
  · subst hlast
    rw [Vector.getElem_set_self, habove _ _ (by omega), habove _ _ (by omega),
      h _ _ (Nat.le_refl _), hnext, lastDistance_concat]
  · rw [Vector.getElem_set_ne _ _ hlast]
    exact h k hk (by omega)

/-- A row is filled by the distances from one character more than the row above, whatever stood
there before. -/
theorem cells_fillRow {a b : Array Char} {rows : Rows b.size} (i : Fin a.size)
    (h : Cells (a.toList.take i.val) b b.size rows.above) :
    Cells (a.toList.take (i.val + 1)) b b.size (fillRow a b rows i).above := by
  have hi : i.val < a.size := i.isLt
  have hnext : a.toList.take (i.val + 1) = a.toList.take i.val ++ [a[i]] := by
    rw [List.take_add_one, Array.getElem?_toList, Array.getElem?_eq_getElem hi]
    rfl
  have hleft : Cells (a.toList.take i.val ++ [a[i]]) b 0 (rows.spare.set 0 (i.val + 1)) := by
    intro j hj hle
    obtain rfl : j = 0 := by omega
    rw [Vector.getElem_set_self, List.take_zero, lastDistance_nil_right, List.length_append,
      List.length_take, Array.length_toList, List.length_singleton]
    omega
  rw [hnext, fillRow]
  exact foldl_invariant (Cells (a.toList.take i.val ++ [a[i]]) b) hleft fun j row =>
    cells_fillCell h j

theorem tableDistance_eq (a b : Array Char) :
    tableDistance a b = lastDistance a.toList b.toList := by
  have hfirst : Cells (a.toList.take 0) b b.size (.ofFn (·.val)) := by
    intro j hj hle
    rw [Vector.getElem_ofFn, List.take_zero, lastDistance_nil_left, List.length_take,
      Array.length_toList, Nat.min_eq_left hle]
  have hall : Cells (a.toList.take a.size) b b.size (Fin.foldl a.size (fillRow a b)
      { above := .ofFn (·.val), spare := .replicate _ 0 }).above :=
    foldl_invariant (fun i (rows : Rows b.size) => Cells (a.toList.take i) b b.size rows.above)
      hfirst fun i _ => cells_fillRow i
  have ha : a.toList.take a.size = a.toList := List.take_of_length_le (Nat.le_refl _)
  have hb : b.toList.take b.size = b.toList := List.take_of_length_le (Nat.le_refl _)
  have hlast := hall b.size (Nat.lt_succ_self _) (Nat.le_refl _)
  rw [ha, hb] at hlast
  exact hlast

theorem distance_eq (a b : String) : distance a b = lastDistance a.toList b.toList := by
  rw [distance, tableDistance_eq]

/-! ## The least number of edits -/

theorem edits_distance (a b : String) : Edits (distance a b) a.toList b.toList := by
  rw [distance_eq]
  exact edits_lastDistance a.toList b.toList

theorem distance_le_of_edits {n : Nat} {a b : String} (h : Edits n a.toList b.toList) :
    distance a b ≤ n := by
  rw [distance_eq]
  exact lastDistance_le_of_edits h

/-- **Distance is exact**: so many edits lead from one word to the other, and no fewer do. -/
theorem distance_least (a b : String) :
    Edits (distance a b) a.toList b.toList ∧
      ∀ n, Edits n a.toList b.toList → distance a b ≤ n :=
  ⟨edits_distance a b, fun _ => distance_le_of_edits⟩

end ChatCommands.Suggestion
