import ChatCommands.Pattern
import ChatCommands.Proofs.Text.Words

/-!
# Cuts

Where a pattern is cut into tokens. `HasCut` says that a text holds a closing bracket, blanks and an
opening bracket in a row. `cutsBefore` finds such a place at its last character, which is where the
next token starts.

`splitFrom` keeps the token being read apart from the blanks after it. Both are determined by the
text that was read, so the proofs speak of that text alone, in reverse: `splitSeen`. It reads on
through a text without a cut (`splitSeen_append`) and ends the token at one (`splitSeen_gap`).
-/

namespace ChatCommands.Pattern

open Text

/-- A text with a place where a pattern is cut: a closing bracket, one or more ASCII blanks, and an
opening bracket. -/
def HasCut (cs : List Char) : Prop :=
  ∃ x gap y, x :: (gap ++ [y]) <:+: cs ∧ (x = ']' ∨ x = '>') ∧ gap ≠ [] ∧
    (∀ b ∈ gap, isAsciiBlank b = true) ∧ (y = '[' ∨ y = '<')

theorem HasCut.mono {cs ds : List Char} (h : HasCut cs) (hsub : cs <:+: ds) : HasCut ds := by
  obtain ⟨x, gap, y, hin, hrest⟩ := h
  exact ⟨x, gap, y, hin.trans hsub, hrest⟩

theorem not_hasCut_nil : ¬ HasCut [] := by
  rintro ⟨x, gap, y, hin, -⟩
  simp at hin

/-! ## Brackets and blanks -/

theorem closes_cons_iff {x : Char} {cs : List Char} :
    closes (x :: cs) = true ↔ x = ']' ∨ x = '>' := by
  simp [closes]

theorem opens_iff {y : Char} : opens y = true ↔ y = '[' ∨ y = '<' := by
  simp [opens]

theorem opens_of_isAsciiBlank {b : Char} (h : isAsciiBlank b = true) : opens b = false := by
  rw [Bool.eq_false_iff]
  intro hb
  rcases opens_iff.1 hb with rfl | rfl <;> exact absurd h (by decide)

theorem not_isAsciiBlank_of_closer {x : Char} (h : x = ']' ∨ x = '>') :
    isAsciiBlank x = false := by
  rcases h with rfl | rfl <;> decide

/-- A text in reverse that ends in `gap` after a closing bracket: the blanks at its end are `gap`,
since the bracket is not one. -/
theorem takeWhile_gap {x : Char} {gap rest : List Char} (hx : x = ']' ∨ x = '>')
    (hgap : ∀ b ∈ gap, isAsciiBlank b = true) :
    (gap ++ x :: rest).takeWhile isAsciiBlank = gap := by
  rw [List.takeWhile_append_of_pos hgap,
    List.takeWhile_cons_of_neg (by simp [not_isAsciiBlank_of_closer hx]), List.append_nil]

theorem dropWhile_gap {x : Char} {gap rest : List Char} (hx : x = ']' ∨ x = '>')
    (hgap : ∀ b ∈ gap, isAsciiBlank b = true) :
    (gap ++ x :: rest).dropWhile isAsciiBlank = x :: rest := by
  rw [List.dropWhile_append_of_pos hgap,
    List.dropWhile_cons_of_neg (by simp [not_isAsciiBlank_of_closer hx])]

/-! ## Cuts found from the left -/

/-- Whether a new token starts at `c`, given the text before it in reverse. -/
def cutsBefore (seen : List Char) (c : Char) : Bool :=
  !(seen.takeWhile isAsciiBlank).isEmpty && closes (seen.dropWhile isAsciiBlank) && opens c

theorem cutsBefore_of_not_opens {seen : List Char} {c : Char} (h : opens c = false) :
    cutsBefore seen c = false := by
  simp [cutsBefore, h]

theorem cutsBefore_iff {seen : List Char} {c : Char} :
    cutsBefore seen c = true ↔ ∃ x gap rest, seen = gap ++ x :: rest ∧ (x = ']' ∨ x = '>') ∧
      gap ≠ [] ∧ (∀ b ∈ gap, isAsciiBlank b = true) ∧ (c = '[' ∨ c = '<') := by
  constructor
  · intro h
    simp only [cutsBefore, Bool.and_eq_true, Bool.not_eq_true', List.isEmpty_eq_false_iff,
      opens_iff] at h
    obtain ⟨⟨hgap, hcloses⟩, hc⟩ := h
    cases hbody : seen.dropWhile isAsciiBlank with
    | nil => simp [hbody, closes] at hcloses
    | cons x rest =>
      rw [hbody, closes_cons_iff] at hcloses
      refine ⟨x, seen.takeWhile isAsciiBlank, rest, ?_, hcloses, hgap, ?_, hc⟩
      · rw [← hbody, List.takeWhile_append_dropWhile]
      · intro b hb
        exact List.all_eq_true.1 List.all_takeWhile b hb
  · rintro ⟨x, gap, rest, rfl, hx, hne, hgap, hc⟩
    simp only [cutsBefore, takeWhile_gap hx hgap, dropWhile_gap hx hgap, Bool.and_eq_true,
      Bool.not_eq_true', List.isEmpty_eq_false_iff]
    exact ⟨⟨hne, closes_cons_iff.2 hx⟩, opens_iff.2 hc⟩

/-- A longer text has a new cut only where its last character starts a token. -/
theorem hasCut_concat_iff {cs : List Char} {c : Char} :
    HasCut (cs ++ [c]) ↔ HasCut cs ∨ cutsBefore cs.reverse c = true := by
  constructor
  · rintro ⟨x, gap, y, hin, hx, hne, hgap, hy⟩
    -- the cut ends with the last character, or lies before it
    rcases List.infix_concat_iff.1 hin with hsuf | hin
    · rw [← List.cons_append] at hsuf
      rcases List.suffix_concat_iff.1 hsuf with hnil | ⟨t, ht, before, hbefore⟩
      · simp at hnil
      · obtain ⟨rfl, hc⟩ := List.append_inj' ht rfl
        obtain rfl : y = c := by simpa using hc
        subst hbefore
        refine Or.inr (cutsBefore_iff.2 ⟨x, gap.reverse, before.reverse, ?_, hx, ?_, ?_, hy⟩)
        · simp
        · simpa using hne
        · simpa using hgap
    · exact Or.inl ⟨x, gap, y, hin, hx, hne, hgap, hy⟩
  · rintro (h | h)
    · exact h.mono List.infix_append_left
    · obtain ⟨x, gap, rest, hseen, hx, hne, hgap, hc⟩ := cutsBefore_iff.1 h
      refine ⟨x, gap.reverse, c, ⟨rest.reverse, [], ?_⟩, hx, by simpa using hne,
        by simpa using hgap, hc⟩
      have hcs : cs = rest.reverse ++ x :: gap.reverse := by
        rw [← List.reverse_inj, hseen]
        simp
      simp [hcs]

theorem not_hasCut_singleton (c : Char) : ¬ HasCut [c] := by
  rw [← List.nil_append [c], hasCut_concat_iff]
  simp [not_hasCut_nil, cutsBefore]

/-- A cut ends in an opening bracket, so a text without one adds none. -/
theorem hasCut_append_iff {cs ds : List Char} (h : ∀ d ∈ ds, opens d = false) :
    HasCut (cs ++ ds) ↔ HasCut cs := by
  induction ds generalizing cs with
  | nil => rw [List.append_nil]
  | cons d ds ih =>
    rw [List.append_cons, ih (fun e he => h e (by simp [he])), hasCut_concat_iff,
      cutsBefore_of_not_opens (h d (by simp))]
    simp

theorem hasCut_cons_iff {c : Char} {cs : List Char} (h : ¬ (c = ']' ∨ c = '>')) :
    HasCut (c :: cs) ↔ HasCut cs := by
  constructor
  · rintro ⟨x, gap, y, hin, hx, hrest⟩
    rcases List.infix_cons_iff.1 hin with hpre | hin
    · obtain rfl : x = c := (List.cons_prefix_cons.1 hpre).1
      exact absurd hx h
    · exact ⟨x, gap, y, hin, hx, hrest⟩
  · intro hcs
    exact hcs.mono (List.suffix_cons c cs).isInfix

/-! ## Splitting, from what was read -/

/-- The tokens of a pattern of which `seen`, in reverse, was read. -/
def splitSeen (seen cs : List Char) : List (List Char) :=
  splitFrom (seen.dropWhile isAsciiBlank) (seen.takeWhile isAsciiBlank) cs

theorem splitSeen_nil (seen : List Char) : splitSeen seen [] = [seen.reverse] := by
  rw [splitSeen, splitFrom, List.takeWhile_append_dropWhile]

theorem splitSeen_cons_of_cut {seen : List Char} {c : Char} (h : cutsBefore seen c = true)
    (cs : List Char) :
    splitSeen seen (c :: cs) = (seen.dropWhile isAsciiBlank).reverse :: splitSeen [c] cs := by
  have hopens : opens c = true := by
    simp only [cutsBefore, Bool.and_eq_true] at h
    exact h.2
  have hblank : isAsciiBlank c = false := by
    rw [Bool.eq_false_iff]
    intro hc
    rw [opens_of_isAsciiBlank hc] at hopens
    cases hopens
  rw [splitSeen, splitFrom, if_neg (by simp [hblank]), if_pos (by simpa [cutsBefore] using h)]
  simp [splitSeen, hblank]

theorem splitSeen_cons {seen : List Char} {c : Char} (h : cutsBefore seen c = false)
    (cs : List Char) : splitSeen seen (c :: cs) = splitSeen (c :: seen) cs := by
  rw [splitSeen, splitFrom]
  cases hblank : isAsciiBlank c with
  | true => simp [splitSeen, hblank]
  | false =>
    rw [if_neg (by simp), if_neg (by simpa [cutsBefore] using h), splitSeen,
      List.dropWhile_cons_of_neg (by simp [hblank]), List.takeWhile_cons_of_neg (by simp [hblank]),
      List.takeWhile_append_dropWhile]

/-- Reading on through a text without a cut ends no token. -/
theorem splitSeen_append {seen w : List Char} (h : ¬ HasCut (seen.reverse ++ w))
    (cs : List Char) : splitSeen seen (w ++ cs) = splitSeen (w.reverse ++ seen) cs := by
  induction w generalizing seen with
  | nil => rfl
  | cons c w ih =>
    have hc : cutsBefore seen c = false := by
      rw [Bool.eq_false_iff]
      intro hc
      apply h
      rw [List.append_cons]
      refine HasCut.mono (hasCut_concat_iff.2 (Or.inr ?_)) List.infix_append_left
      rwa [List.reverse_reverse]
    rw [List.cons_append, splitSeen_cons hc, ih (by simpa using h), List.reverse_cons,
      List.append_assoc, List.singleton_append]

/-- Blanks between a closing and an opening bracket end the token. -/
theorem splitSeen_gap {x y : Char} {seen gap : List Char} (hx : x = ']' ∨ x = '>')
    (hne : gap ≠ []) (hgap : ∀ b ∈ gap, isAsciiBlank b = true) (hy : y = '[' ∨ y = '<')
    (h : ¬ HasCut (x :: seen).reverse) (cs : List Char) :
    splitSeen (x :: seen) (gap ++ y :: cs) = (x :: seen).reverse :: splitSeen [y] cs := by
  have hgap' : ∀ b ∈ gap.reverse, isAsciiBlank b = true := by simpa using hgap
  have hread : ¬ HasCut ((x :: seen).reverse ++ gap) := by
    rwa [hasCut_append_iff (fun b hb => opens_of_isAsciiBlank (hgap b hb))]
  rw [splitSeen_append hread, splitSeen_cons_of_cut, dropWhile_gap hx hgap']
  exact cutsBefore_iff.2 ⟨x, gap.reverse, seen, rfl, hx, by simpa using hne, hgap', hy⟩

end ChatCommands.Pattern
