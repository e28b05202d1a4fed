import ChatCommands.Text.Utf8

/-!
# Texts cut at bytes

A text can be cut at a byte where a character starts, and at its end: `cutAt?_eq_some_iff`.
-/

namespace ChatCommands.Text

/-- A text cut in two, of which the first has the given number of bytes. There is no cut inside of a
character, and none beyond the end. -/
def cutAt? : Nat → List Char → Option (List Char × List Char)
  | 0, cs => some ([], cs)
  | _ + 1, [] => none
  | n + 1, c :: cs =>
    if c.utf8Size ≤ n + 1 then
      (cutAt? (n + 1 - c.utf8Size) cs).map fun (before, after) => (c :: before, after)
    else none

/-- The part of a text between two bytes, if it can be cut at both. -/
def slice? (start stop : Nat) (cs : List Char) : Option (List Char) :=
  if start ≤ stop then
    (cutAt? start cs).bind fun parts => (cutAt? (stop - start) parts.2).map Prod.fst
  else none

/-- A byte of a text where it can be cut. -/
def IsBoundary (cs : List Char) (n : Nat) : Prop :=
  ∃ before after, cs = before ++ after ∧ byteLength before = n

variable {n : Nat} {cs before after : List Char}

theorem cutAt?_cons (c : Char) (cs : List Char) (n : Nat) :
    cutAt? (c.utf8Size + n) (c :: cs) =
      (cutAt? n cs).map fun (before, after) => (c :: before, after) := by
  have hpos := c.utf8Size_pos
  obtain ⟨m, hm⟩ := Nat.exists_eq_succ_of_ne_zero (by omega : c.utf8Size + n ≠ 0)
  have hn : m + 1 - c.utf8Size = n := by omega
  rw [hm, cutAt?, if_pos (by omega), hn]

theorem cutAt?_append (before after : List Char) :
    cutAt? (byteLength before) (before ++ after) = some (before, after) := by
  induction before with
  | nil => rw [byteLength, cutAt?, List.nil_append]
  | cons c before ih => rw [byteLength, List.cons_append, cutAt?_cons, ih, Option.map_some]

/-- A text can be cut exactly between its characters. -/
theorem cutAt?_eq_some_iff :
    cutAt? n cs = some (before, after) ↔ cs = before ++ after ∧ byteLength before = n := by
  constructor
  · intro h
    induction cs generalizing n before with
    | nil =>
      cases n with
      | zero =>
        cases h
        exact ⟨rfl, rfl⟩
      | succ n => cases h
    | cons c cs ih =>
      cases n with
      | zero =>
        cases h
        exact ⟨rfl, rfl⟩
      | succ n =>
        rw [cutAt?] at h
        split at h
        · obtain ⟨⟨first, rest⟩, hcut, hparts⟩ := Option.map_eq_some_iff.1 h
          cases hparts
          obtain ⟨rfl, hlength⟩ := ih hcut
          exact ⟨rfl, by rw [byteLength, hlength]; omega⟩
        · cases h
  · rintro ⟨rfl, rfl⟩
    exact cutAt?_append before after

theorem slice?_append (before middle after : List Char) :
    slice? (byteLength before) (byteLength before + byteLength middle)
      (before ++ (middle ++ after)) = some middle := by
  rw [slice?, if_pos (Nat.le_add_right _ _), cutAt?_append, Option.bind_some,
    Nat.add_sub_cancel_left, cutAt?_append, Option.map_some]

end ChatCommands.Text
