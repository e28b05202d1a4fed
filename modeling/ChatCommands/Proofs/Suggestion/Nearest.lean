import ChatCommands.Proofs.Suggestion.Distance

/-!
# The nearest of several words

The search for a suggestion finds the first of the nearest candidates (`IsNearest`), if that is near
enough, and nothing if no candidate is (`closest_cases`). The search goes over the candidates once
and remembers the first of the nearest among those that it has seen (`Remembers`).

Among the candidates that no other is nearer than (`isLeast`), this is the first
(`closest_first_of_nearest`). In terms of edits, it is the first candidate that takes the fewest
(`FewestEdits`).
-/

namespace ChatCommands.Suggestion

/-- A candidate that is nearer than all before it and not further away than any after it. -/
def IsNearest (wrong : String) (candidates : List String) (c : String) : Prop :=
  ∃ before after, candidates = before ++ c :: after ∧
    (∀ x ∈ before, distance wrong c < distance wrong x) ∧
    ∀ x ∈ after, distance wrong c ≤ distance wrong x

variable {wrong c : String} {candidates : List String}

theorem IsNearest.mem (h : IsNearest wrong candidates c) : c ∈ candidates := by
  obtain ⟨before, after, rfl, -, -⟩ := h
  simp

theorem IsNearest.le (h : IsNearest wrong candidates c) {x : String} (hx : x ∈ candidates) :
    distance wrong c ≤ distance wrong x := by
  obtain ⟨before, after, rfl, hbefore, hafter⟩ := h
  rcases List.mem_append.1 hx with hx | hx
  · exact Nat.le_of_lt (hbefore x hx)
  · rcases List.mem_cons.1 hx with rfl | hx
    · exact Nat.le_refl _
    · exact hafter x hx

/-- What the search remembers when it has seen some candidates. -/
def Remembers (wrong : String) (seen : List String) : Option (String × Nat) → Prop
  | none => seen = []
  | some (c, least) => least = distance wrong c ∧ IsNearest wrong seen c

/-- One more candidate is remembered if it is nearer than the one before. -/
theorem Remembers.nearer {seen : List String} {best : Option (String × Nat)}
    (h : Remembers wrong seen best) (x : String) :
    Remembers wrong (seen ++ [x]) (nearer wrong best x) := by
  cases best with
  | none =>
    obtain rfl : seen = [] := h
    exact ⟨rfl, [], [], rfl, by simp, by simp⟩
  | some found =>
    obtain ⟨c, least⟩ := found
    obtain ⟨rfl, hnearest⟩ := h
    simp only [Suggestion.nearer]
    split
    · next hlt =>
      refine ⟨rfl, seen, [], rfl, ?_, by simp⟩
      intro y hy
      exact Nat.lt_of_lt_of_le hlt (hnearest.le hy)
    · next hge =>
      obtain ⟨before, after, rfl, hbefore, hafter⟩ := hnearest
      refine ⟨rfl, before, after ++ [x], by simp, hbefore, ?_⟩
      intro y hy
      rcases List.mem_append.1 hy with hy | hy
      · exact hafter y hy
      · rw [List.mem_singleton.1 hy]
        exact Nat.not_lt.1 hge

theorem Remembers.foldl {seen : List String} {best : Option (String × Nat)}
    (h : Remembers wrong seen best) (rest : List String) :
    Remembers wrong (seen ++ rest) (rest.foldl (Suggestion.nearer wrong) best) := by
  induction rest generalizing seen best with
  | nil => simpa using h
  | cons x rest ih =>
    rw [List.foldl_cons, ← List.singleton_append, ← List.append_assoc]
    exact ih (h.nearer x)

/-- What the search comes to: nothing is near enough, or the first of the nearest is found. -/
theorem closest_cases (candidates : List String) (wrong : String) (bound : Nat) :
    (closest candidates wrong bound = none ∧ ∀ x ∈ candidates, bound ≤ distance wrong x) ∨
    ∃ c, closest candidates wrong bound = some c ∧ IsNearest wrong candidates c ∧
      distance wrong c < bound := by
  have hnone : Remembers wrong [] none := rfl
  have hall := hnone.foldl candidates
  rw [List.nil_append] at hall
  rw [closest]
  cases hbest : candidates.foldl (nearer wrong) none with
  | none =>
    rw [hbest] at hall
    obtain rfl : candidates = [] := hall
    exact Or.inl ⟨rfl, by simp⟩
  | some found =>
    obtain ⟨c, least⟩ := found
    rw [hbest] at hall
    obtain ⟨rfl, hnearest⟩ := hall
    by_cases hnear : distance wrong c < bound
    · exact Or.inr ⟨c, if_pos hnear, hnearest, hnear⟩
    · refine Or.inl ⟨if_neg hnear, ?_⟩
      intro x hx
      exact Nat.le_trans (Nat.not_lt.1 hnear) (hnearest.le hx)

theorem mem_of_closest {candidates : List String} {wrong c : String} {bound : Nat}
    (h : closest candidates wrong bound = some c) : c ∈ candidates := by
  rcases closest_cases candidates wrong bound with ⟨hnone, -⟩ | ⟨found, hsome, hnearest, -⟩
  · rw [h] at hnone
    cases hnone
  · rw [h] at hsome
    cases hsome
    exact hnearest.mem

/-! ## The first of the nearest -/

/-- Whether none of the candidates is nearer. -/
def isLeast (wrong : String) (candidates : List String) (c : String) : Bool :=
  candidates.all fun x => distance wrong c ≤ distance wrong x

theorem isLeast_iff :
    isLeast wrong candidates c = true ↔ ∀ x ∈ candidates, distance wrong c ≤ distance wrong x := by
  simp [isLeast]

theorem isNearest_iff :
    IsNearest wrong candidates c ↔ candidates.find? (isLeast wrong candidates) = some c := by
  rw [List.find?_eq_some_iff_append, isLeast_iff]
  constructor
  · intro h
    refine ⟨fun x hx => h.le hx, ?_⟩
    obtain ⟨before, after, rfl, hbefore, -⟩ := h
    refine ⟨before, after, rfl, fun x hx => ?_⟩
    rw [Bool.not_eq_true', Bool.eq_false_iff, Ne, isLeast_iff]
    intro hx'
    exact Nat.not_le.2 (hbefore x hx) (hx' c (by simp))
  · rintro ⟨hleast, before, after, rfl, hbefore⟩
    refine ⟨before, after, rfl, fun x hx => ?_, fun x hx => hleast x (by simp [hx])⟩
    -- as near as the first of the nearest, it would be one of them
    refine Nat.lt_of_not_le fun hle => ?_
    have hx' := hbefore x hx
    rw [Bool.not_eq_true', Bool.eq_false_iff, Ne, isLeast_iff] at hx'
    exact hx' fun y hy => Nat.le_trans hle (hleast y hy)

/-- **The search is exact**: it finds a candidate exactly if some candidate is nearer than the
bound, and then the first of those that no other is nearer than. It finds none exactly if every
candidate is at least as far away as the bound. -/
theorem closest_first_of_nearest (candidates : List String) (wrong : String) (bound : Nat) :
    (∀ c, closest candidates wrong bound = some c ↔
      (∃ x ∈ candidates, distance wrong x < bound) ∧
        candidates.find? (isLeast wrong candidates) = some c) ∧
    ((closest candidates wrong bound).isSome ↔ ∃ x ∈ candidates, distance wrong x < bound) ∧
    (closest candidates wrong bound = none ↔ ∀ x ∈ candidates, bound ≤ distance wrong x) := by
  rcases closest_cases candidates wrong bound with ⟨hnone, hfar⟩ | ⟨c, hsome, hnearest, hnear⟩
  · have hno : ¬ ∃ x ∈ candidates, distance wrong x < bound := by
      rintro ⟨x, hx, hlt⟩
      exact Nat.not_le.2 hlt (hfar x hx)
    rw [hnone]
    exact ⟨fun c => by simp [hno], by simp [hno], iff_of_true rfl hfar⟩
  · have hsomeNear : ∃ x ∈ candidates, distance wrong x < bound := ⟨c, hnearest.mem, hnear⟩
    have hnotFar : ¬ ∀ x ∈ candidates, bound ≤ distance wrong x := by
      intro hfar
      exact Nat.not_le.2 hnear (hfar c hnearest.mem)
    rw [hsome, isNearest_iff.1 hnearest]
    exact ⟨fun d => by simp [hsomeNear], by simp [hsomeNear], iff_of_false (by simp) hnotFar⟩

/-! ## Nearness by edits -/

/-- A candidate that a number of edits leads to. Those before it take more, and those after it no
fewer. -/
def FewestEdits (wrong : String) (least : Nat) (candidates : List String) (c : String) : Prop :=
  Edits least wrong.toList c.toList ∧ ∃ before after, candidates = before ++ c :: after ∧
    (∀ x ∈ before, ∀ n, Edits n wrong.toList x.toList → least < n) ∧
    ∀ x ∈ after, ∀ n, Edits n wrong.toList x.toList → least ≤ n

theorem IsNearest.fewestEdits (h : IsNearest wrong candidates c) :
    FewestEdits wrong (distance wrong c) candidates c := by
  obtain ⟨before, after, hcandidates, hbefore, hafter⟩ := h
  refine ⟨edits_distance wrong c, before, after, hcandidates, ?_, ?_⟩
  · intro x hx n hedits
    exact Nat.lt_of_lt_of_le (hbefore x hx) (distance_le_of_edits hedits)
  · intro x hx n hedits
    exact Nat.le_trans (hafter x hx) (distance_le_of_edits hedits)

/-- Words that are different take at least one edit. -/
theorem FewestEdits.one_le {least : Nat} (h : FewestEdits wrong least candidates c)
    (hne : wrong ≠ c) : 1 ≤ least := by
  obtain ⟨hedits, -⟩ := h
  rw [Nat.one_le_iff_ne_zero]
  rintro rfl
  exact hne (String.toList_inj.1 hedits.eq_of_zero)

/-- A suggestion is made exactly if fewer edits than the bound lead to a candidate, and it is the
first of those that take the fewest. -/
theorem closest_edits (candidates : List String) (wrong : String) (bound : Nat) :
    ((closest candidates wrong bound).isSome ↔
      ∃ x ∈ candidates, ∃ n < bound, Edits n wrong.toList x.toList) ∧
    ∀ c, closest candidates wrong bound = some c →
      FewestEdits wrong (distance wrong c) candidates c := by
  rcases closest_cases candidates wrong bound with ⟨hnone, hfar⟩ | ⟨c, hsome, hnearest, hnear⟩
  · rw [hnone]
    refine ⟨?_, by simp⟩
    simp only [Option.isSome_none, Bool.false_eq_true, false_iff, not_exists, not_and]
    intro x hx n hn hedits
    have hle := hfar x hx
    have hlower := distance_le_of_edits hedits
    omega
  · rw [hsome]
    refine ⟨?_, ?_⟩
    · simp only [Option.isSome_some, true_iff]
      exact ⟨c, hnearest.mem, distance wrong c, hnear, edits_distance wrong c⟩
    · rintro _ ⟨⟩
      exact hnearest.fewestEdits

end ChatCommands.Suggestion
