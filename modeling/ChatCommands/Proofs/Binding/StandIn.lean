import ChatCommands.Proofs.Binding.Counting

/-!
# What may stand for the first argument

Binding takes a flag that says whether something else stands for the first argument, so that the
arguments may be missing. It is meant for texts without a word, but it is looked at whenever the
text runs out in blanks while a required parameter is still to come. `stand_in_matters_iff` says
exactly when a text with words binds differently because of it: if fewer words than required
parameters are there and blanks follow the last of them. Without these blanks, or with enough words,
the flag has no say.
-/

namespace ChatCommands.Binding

open Text Pattern

/-- Without a word left, the arguments end. -/
theorem bindFrom_of_blank {mayBeEmpty satisfied : Bool} {ps : List Parameter} {text : List Char}
    (h : trimStart text = []) : bindFrom mayBeEmpty satisfied ps text =
      if satisfied || mayBeEmpty then .ok [] else .error .tooFewArguments := by
  cases ps <;> simp [bindFrom, h]

/-- With a word to come and words enough for the required parameters, the walk may end only where
the arguments may: induction along the parameters. -/
theorem bindFrom_of_enough {b b' satisfied : Bool} {ps : List Parameter} {text : List Char}
    (h : Grammatical ps) (hword : trimStart text ≠ [])
    (henough : requiredCount ps ≤ (words text).length) :
    bindFrom b satisfied ps text = bindFrom b' satisfied ps text := by
  induction ps generalizing satisfied text with
  | nil => simp [bindFrom, hword]
  | cons p ps ih =>
    obtain ⟨-, -, hvar, hps⟩ := grammatical_cons_iff.1 h
    rw [words_of_trimStart_ne_nil hword, List.length_cons] at henough
    have htail : requiredCount ps ≤ (words (afterWord (trimStart text))).length := by
      have hiff := succ_lt_requiredCount_cons_iff h
        (n := (words (afterWord (trimStart text))).length)
      omega
    rw [bindFrom, bindFrom, mayEnd_eq h]
    simp only [List.isEmpty_iff, hword, if_false]
    cases hp : p.variadic with
    | true =>
      -- a variadic parameter is the last one
      obtain rfl := hvar hp
      simp [requiredCount]
    | false =>
      rw [if_neg Bool.false_ne_true, if_neg Bool.false_ne_true]
      by_cases hmore : trimStart (afterWord (trimStart text)) = []
      · have hzero : requiredCount ps = 0 := by
          rw [words_eq_nil_iff.2 hmore] at htail
          exact Nat.le_zero.1 htail
        simp [hzero, bindFrom_of_blank hmore]
      · rw [ih hps hmore htail]

/-- With too few words before blanks, the words are bound as far as they go if the arguments may be
missing altogether: induction along the parameters. -/
theorem bindFrom_of_few {mayBeEmpty : Bool} {ps : List Parameter} {text : List Char}
    (h : Grammatical ps) (hblank : ¬ NoTrailingBlank text)
    (hfew : (words text).length < requiredCount ps) :
    bindFrom mayBeEmpty false ps text =
      if mayBeEmpty then .ok (pair ps (words text)) else .error .tooFewArguments := by
  induction ps generalizing text with
  | nil => exact absurd hfew (Nat.not_lt_zero _)
  | cons p ps ih =>
    by_cases hword : trimStart text = []
    · rw [bindFrom_of_blank hword, words_eq_nil_iff.2 hword, pair, List.zipWith_nil_right,
        Bool.false_or]
    obtain ⟨-, -, hvar, hps⟩ := grammatical_cons_iff.1 h
    rw [words_of_trimStart_ne_nil hword, List.length_cons, succ_lt_requiredCount_cons_iff h] at hfew
    have hrequired : requiredCount ps ≠ 0 := by omega
    have hp : p.variadic = false := by
      rw [Bool.eq_false_iff]
      intro hp
      obtain rfl := hvar hp
      exact hrequired rfl
    have hafter := not_noTrailingBlank_afterWord hblank hword
    have hrest : afterWord (trimStart text) ≠ [] := by
      intro hnil
      rw [hnil] at hafter
      exact hafter (by simp [NoTrailingBlank])
    rw [bindFrom, mayEnd_eq h, words_of_trimStart_ne_nil hword]
    simp only [List.isEmpty_iff, hword, hp, hrequired, hrest, decide_false, Bool.or_false,
      Bool.false_eq_true, if_false]
    rw [ih hps hafter hfew]
    cases mayBeEmpty <;> rfl

theorem ofText_of_few {ps : List Parameter} {text : String} (h : Grammatical ps)
    (hblank : ¬ NoTrailingBlank text.toList)
    (hfew : (words text.toList).length < requiredCount ps) (implicitFirst : Bool) :
    ofText ps text implicitFirst =
      if implicitFirst then .ok (pair ps (words text.toList)) else .error .tooFewArguments := by
  have hrequired : requiredCount ps ≠ 0 := by omega
  rw [ofText, head_optional_eq h, bindFrom_of_few h hblank hfew]
  simp [hrequired]

/-- A text that ends in a word, or has words enough, binds without regard to the flag. -/
theorem ofText_of_enough {ps : List Parameter} {text : String} (h : Grammatical ps)
    (hword : trimStart text.toList ≠ [])
    (henough : NoTrailingBlank text.toList ∨ requiredCount ps ≤ (words text.toList).length)
    (b b' : Bool) : ofText ps text b = ofText ps text b' := by
  rcases henough with htight | henough
  · have hwords : words text.toList ≠ [] := fun hnil => hword (words_eq_nil_iff.1 hnil)
    rw [ofText_eq h htight, ofText_eq h htight, if_neg hwords, if_neg hwords]
  · exact bindFrom_of_enough h hword henough

/-- **Where a stand-in matters.** For the parameters of any pattern and any text with a character
that is not blank, it makes no difference whether something stands for the first argument, except
if blanks follow words that are too few for the required parameters. Then these words are bound
instead of refused. -/
theorem stand_in_matters_iff {pattern : String} {ps : List Parameter} {text : String}
    (compiled : Pattern.compile pattern = .ok ps)
    (spoken : ∃ c ∈ text.toList, isBlank c = false) :
    let ws := words text.toList
    (ofText ps text true = ofText ps text false ↔
      NoTrailingBlank text.toList ∨ requiredCount ps ≤ ws.length) ∧
    (¬ NoTrailingBlank text.toList → ws.length < requiredCount ps →
      ofText ps text true = .ok (pair ps ws) ∧
        ofText ps text false = .error .tooFewArguments) := by
  intro ws
  obtain ⟨-, hgrammar⟩ := Pattern.compile_eq_ok_iff.1 compiled
  obtain ⟨c, hc, hblank⟩ := spoken
  have hword : trimStart text.toList ≠ [] := trimStart_ne_nil hc hblank
  have hfew : ¬ NoTrailingBlank text.toList → ws.length < requiredCount ps →
      ofText ps text true = .ok (pair ps ws) ∧
        ofText ps text false = .error .tooFewArguments := by
    intro hblank hlt
    exact ⟨ofText_of_few hgrammar hblank hlt true, ofText_of_few hgrammar hblank hlt false⟩
  refine ⟨⟨?_, fun henough => ofText_of_enough hgrammar hword henough true false⟩, hfew⟩
  intro hsame
  by_contra hnot
  rw [not_or, Nat.not_le] at hnot
  obtain ⟨hbound, hrefused⟩ := hfew hnot.1 hnot.2
  rw [hbound, hrefused] at hsame
  cases hsame

theorem stand_in_matters_iff_spaced :
    Pattern.compile "<a> <b> [c]" = .ok [.mandatory "a", .mandatory "b", .omissible "c"] ∧
    (∃ c ∈ " x\ty ".toList, isBlank c = false) ∧
    ofText [.mandatory "a", .mandatory "b", .omissible "c"] " x\ty " true =
      ofText [.mandatory "a", .mandatory "b", .omissible "c"] " x\ty " false := by
  have compiled : Pattern.compile "<a> <b> [c]" =
      .ok [.mandatory "a", .mandatory "b", .omissible "c"] := by decide
  have spoken : ∃ c ∈ " x\ty ".toList, isBlank c = false := ⟨'x', by decide, by decide⟩
  exact ⟨compiled, spoken, (stand_in_matters_iff compiled spoken).1.2 (Or.inr (by decide))⟩

/-- A text with a word that binds only because something stands for the first argument, although
it is the second that is missing. -/
theorem not_only_empty_text_bypassed :
    Pattern.compile "<a> <b>" = .ok [.mandatory "a", .mandatory "b"] ∧
    (∃ c ∈ "x ".toList, isBlank c = false) ∧
    ofText [.mandatory "a", .mandatory "b"] "x " true = .ok [⟨.mandatory "a", "x"⟩] ∧
    ofText [.mandatory "a", .mandatory "b"] "x " false = .error .tooFewArguments ∧
    ofText [.mandatory "a", .mandatory "b"] "x " true ≠
      ofText [.mandatory "a", .mandatory "b"] "x " false := by
  refine ⟨by decide, ⟨'x', by decide, by decide⟩, by decide, by decide, by decide⟩

end ChatCommands.Binding
