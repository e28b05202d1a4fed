import ChatCommands.Proofs.Binding.Counting

/-!
# Arguments that are written out

Values written one after the other, each with blanks before it, are read back as they were written:
`ofText_spaced`. No value but that of a variadic parameter has a blank inside, so that each ends
where the next gap begins.
-/

namespace ChatCommands

open Text

/-- A value as it is typed, with what parts it from the text before it. -/
structure Given where
  gap : List Char
  value : List Char
  deriving DecidableEq, Repr

/-- The value can be told from the text around it and be given for the parameter. -/
structure Given.Fits (g : Given) (p : Parameter) : Prop where
  parted : g.gap ≠ []
  gapBlank : isBlankText g.gap = true
  present : g.value ≠ []
  start : NoLeadingBlank g.value
  stop : NoTrailingBlank g.value
  /-- Only a variadic parameter takes a value with blanks inside. -/
  solid : p.variadic = false → ∀ c ∈ g.value, isBlank c = false

namespace Binding

/-- The text of values in order. -/
def spaced (given : List Given) : List Char :=
  given.flatMap fun g => g.gap ++ g.value

/-- At least one value is given, one for each required parameter, and none too many. -/
structure Filled (ps : List Parameter) (given : List Given) : Prop where
  some : given ≠ []
  enough : requiredCount ps ≤ given.length
  room : given.length ≤ ps.length
  fits : ∀ pg ∈ ps.zip given, pg.2.Fits pg.1

theorem spaced_cons (g : Given) (given : List Given) :
    spaced (g :: given) = g.gap ++ (g.value ++ spaced given) := by
  rw [spaced, List.flatMap_cons, List.append_assoc]
  rfl

namespace Filled

variable {p : Parameter} {ps : List Parameter} {g : Given} {given : List Given}

theorem head (h : Filled (p :: ps) (g :: given)) : g.Fits p :=
  h.fits (p, g) List.mem_cons_self

/-- The parameters after the first are filled by the values after the first. -/
theorem tail (h : Filled (p :: ps) (g :: given)) (hps : Pattern.Grammatical (p :: ps))
    (hmore : given ≠ []) : Filled ps given := by
  obtain ⟨-, hopt, -, -⟩ := Pattern.grammatical_cons_iff.1 hps
  refine ⟨hmore, ?_, Nat.le_of_succ_le_succ h.room, ?_⟩
  · have henough := h.enough
    rw [requiredCount_cons, List.length_cons] at henough
    split at henough
    · next hp =>
      -- nothing after an optional parameter is required
      rw [requiredCount_eq_zero_iff.2 (hopt hp)]
      exact Nat.zero_le _
    · omega
  · intro pg hpg
    exact h.fits pg (List.mem_cons_of_mem _ hpg)

/-- A single value is enough only if the arguments may end with it. -/
theorem mayEnd_of_single (h : Filled (p :: ps) [g]) (hps : Pattern.Grammatical (p :: ps)) :
    mayEnd p ps = true := by
  obtain ⟨-, hopt, -, -⟩ := Pattern.grammatical_cons_iff.1 hps
  have henough := h.enough
  rw [requiredCount_cons, List.length_singleton] at henough
  rw [mayEnd_eq hps, decide_eq_true_eq]
  split at henough
  · next hp => exact requiredCount_eq_zero_iff.2 (hopt hp)
  · omega

/-- Neither the parameters nor the values are empty. -/
theorem exists_cons (h : Filled ps given) :
    ∃ q qs g gs, ps = q :: qs ∧ given = g :: gs ∧ g.Fits q := by
  obtain ⟨g, gs, rfl⟩ := List.exists_cons_of_ne_nil h.some
  obtain ⟨q, qs, rfl⟩ := List.exists_cons_of_length_pos (Nat.lt_of_lt_of_le (by simp) h.room)
  exact ⟨q, qs, g, gs, rfl, rfl, h.head⟩

/-- The text of values that fill parameters starts with a blank. -/
theorem head_spaced (h : Filled ps given) : ∀ c ∈ (spaced given).head?, isBlank c = true := by
  intro c hc
  obtain ⟨q, qs, g, gs, -, rfl, hg⟩ := h.exists_cons
  rw [spaced_cons, List.head?_append_of_ne_nil _ hg.parted] at hc
  exact List.all_eq_true.1 hg.gapBlank c (List.mem_of_mem_head? hc)

theorem spaced_ne_nil (h : Filled ps given) : spaced given ≠ [] := by
  obtain ⟨q, qs, g, gs, -, rfl, hg⟩ := h.exists_cons
  rw [spaced_cons]
  exact List.append_ne_nil_of_left_ne_nil hg.parted _

/-- The first blanks of the text are those before the first value. -/
theorem trimStart_spaced (h : Filled (p :: ps) (g :: given)) :
    trimStart (spaced (g :: given)) = g.value ++ spaced given := by
  rw [spaced_cons, trimStart_append h.head.gapBlank]
  exact (h.head.start.append h.head.present _).trimStart_eq

/-- The text of values that fill parameters ends in the last of them. -/
theorem noTrailingBlank_spaced (h : Filled ps given) (hps : Pattern.Grammatical ps) :
    NoTrailingBlank (spaced given) := by
  induction given generalizing ps with
  | nil => exact absurd rfl h.some
  | cons g given ih =>
    cases ps with
    | nil => exact absurd h.room (by simp)
    | cons p ps =>
      rw [spaced_cons]
      cases given with
      | nil =>
        rw [spaced, List.flatMap_nil, List.append_nil]
        exact h.head.stop.append h.head.present _
      | cons g' given =>
        obtain ⟨-, -, -, hps'⟩ := Pattern.grammatical_cons_iff.1 hps
        have hrest := h.tail hps (List.cons_ne_nil g' given)
        rw [← List.append_assoc]
        exact (ih hrest hps').append hrest.spaced_ne_nil _

end Filled

/-- **Values are read back**: induction on the values. Whatever the flags are, they do not matter
while more values come, and the last is one that the arguments may end with. -/
theorem bindFrom_spaced {mayBeEmpty satisfied : Bool} {ps : List Parameter} {given : List Given}
    (hps : Pattern.Grammatical ps) (h : Filled ps given) :
    bindFrom mayBeEmpty satisfied ps (spaced given) = .ok (pair ps (given.map Given.value)) := by
  induction given generalizing satisfied ps with
  | nil => exact absurd rfl h.some
  | cons g given ih =>
    cases ps with
    | nil => exact absurd h.room (by simp)
    | cons p ps =>
      obtain ⟨-, -, hvar, hps'⟩ := Pattern.grammatical_cons_iff.1 hps
      rw [bindFrom]
      simp only [h.trimStart_spaced]
      rw [if_neg (by simp [h.head.present])]
      cases hp : p.variadic with
      | true =>
        -- a variadic parameter is the last, and so is its value
        obtain rfl := hvar hp
        obtain rfl : given = [] := List.length_eq_zero_iff.1 (Nat.le_zero.1
          (Nat.le_of_succ_le_succ h.room))
        rw [h.mayEnd_of_single hps, spaced, List.flatMap_nil, List.append_nil,
          h.head.stop.trimEnd_eq]
        simp [pair]
      | false =>
        rw [if_neg (by simp)]
        have hword := h.head.solid hp
        cases given with
        | nil =>
          have hafter : afterWord (g.value ++ spaced []) = [] :=
            afterWord_append hword (by simp [spaced])
          rw [hafter, List.isEmpty_nil, if_pos rfl, h.mayEnd_of_single hps, Bool.or_true,
            if_pos rfl, spaced, List.flatMap_nil, List.append_nil]
          simp [pair]
        | cons g' given =>
          have hrest := h.tail hps (List.cons_ne_nil g' given)
          rw [afterWord_append hword hrest.head_spaced, word_append hword hrest.head_spaced,
            if_neg (by simpa using hrest.spaced_ne_nil), ih hps' hrest]
          rfl

/-- The blanks before the first value make no difference. -/
theorem bindFrom_trimStart (mayBeEmpty satisfied : Bool) (ps : List Parameter) (text : List Char) :
    bindFrom mayBeEmpty satisfied ps (trimStart text) = bindFrom mayBeEmpty satisfied ps text := by
  have hidem : trimStart (trimStart text) = trimStart text := List.dropWhile_idempotent isBlank text
  cases ps <;> simp only [bindFrom, hidem]

/-- What is left of the text of values once the blanks before the first are skipped binds these
values. -/
theorem ofText_spaced {ps : List Parameter} {given : List Given} (hps : Pattern.Grammatical ps)
    (h : Filled ps given) (implicitFirst : Bool) :
    ofText ps (String.ofList (trimStart (spaced given))) implicitFirst =
      .ok (pair ps (given.map Given.value)) := by
  rw [ofText, String.toList_ofList, bindFrom_trimStart]
  exact bindFrom_spaced hps h

end Binding

end ChatCommands
