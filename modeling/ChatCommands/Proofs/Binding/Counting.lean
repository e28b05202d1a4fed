import ChatCommands.Binding
import ChatCommands.Proofs.Pattern.Grammar

/-!
# Binding by counting words

`Binding.bindFrom` walks over parameters and text together and remembers whether the arguments
might have ended. For parameters that a pattern declares this comes down to counting: what a text
binds is decided by the number of its words, the number of parameters and the number of those that
are required (`ofText_eq`).

The invariant of the walk is that the flag it carries is never set while a required parameter is
still to come.
-/

namespace ChatCommands.Binding

open Text Pattern

/-- How many parameters need a value. -/
def requiredCount (ps : List Parameter) : Nat :=
  ps.countP fun p => !p.optional

/-- Parameters with the words given for them, in order, as far as both go. -/
def pair (ps : List Parameter) (ws : List (List Char)) : Binding :=
  List.zipWith (fun p w => ⟨p, String.ofList w⟩) ps ws

/-- What a text with at least one word binds, as far as its words can be counted: too few for the
required parameters, fewer than the parameters, or enough for the last one too. -/
def byCount (ps : List Parameter) (text : List Char) : Except BindingError Binding :=
  if (words text).length < requiredCount ps then .error .tooFewArguments
  else match ps.getLast? with
    | none => .error .tooManyArguments
    | some last =>
      if (words text).length < ps.length then .ok (pair ps (words text))
      else if last.variadic then
        .ok (pair ps.dropLast (words text) ++
          [⟨last, String.ofList (fromWord (ps.length - 1) text)⟩])
      else if ps.length < (words text).length then .error .tooManyArguments
      else .ok (pair ps (words text))

/-! ## Required parameters -/

theorem requiredCount_eq_zero_iff {ps : List Parameter} :
    requiredCount ps = 0 ↔ ∀ p ∈ ps, p.optional = true := by
  rw [requiredCount, List.countP_eq_zero]
  simp

theorem requiredCount_cons (p : Parameter) (ps : List Parameter) :
    requiredCount (p :: ps) = requiredCount ps + if p.optional then 0 else 1 := by
  rw [requiredCount, List.countP_cons]
  cases p.optional <;> rfl

theorem requiredCount_le_length (ps : List Parameter) : requiredCount ps ≤ ps.length :=
  List.countP_le_length

/-- No parameter is required if the first is not. -/
theorem head_optional_eq {ps : List Parameter} (h : Grammatical ps) :
    ps.head?.all Parameter.optional = decide (requiredCount ps = 0) := by
  cases ps with
  | nil => rfl
  | cons p ps =>
    obtain ⟨-, hopt, -, -⟩ := grammatical_cons_iff.1 h
    cases hp : p.optional with
    | true =>
      have hzero : requiredCount (p :: ps) = 0 :=
        requiredCount_eq_zero_iff.2 (List.forall_mem_cons.2 ⟨hp, hopt hp⟩)
      simp [hp, hzero]
    | false =>
      have hpos : requiredCount (p :: ps) ≠ 0 := by
        rw [requiredCount_cons, hp, if_neg (by simp)]
        omega
      simp [hp, hpos]

/-- The arguments may end with a parameter exactly if nothing required comes after it. -/
theorem mayEnd_eq {p : Parameter} {ps : List Parameter} (h : Grammatical (p :: ps)) :
    mayEnd p ps = decide (requiredCount ps = 0) := by
  obtain ⟨-, hopt, -, hps⟩ := grammatical_cons_iff.1 h
  rw [mayEnd, head_optional_eq hps]
  cases hp : p.optional with
  | true => simp [requiredCount_eq_zero_iff.2 (hopt hp)]
  | false => rw [Bool.false_or]

/-- One value more goes to the first parameter, which is required if any after it is. -/
theorem succ_lt_requiredCount_cons_iff {p : Parameter} {ps : List Parameter} {n : Nat}
    (h : Grammatical (p :: ps)) : n + 1 < requiredCount (p :: ps) ↔ n < requiredCount ps := by
  obtain ⟨-, hopt, -, -⟩ := grammatical_cons_iff.1 h
  rw [requiredCount_cons]
  split
  · next hpo =>
    have hzero := requiredCount_eq_zero_iff.2 (hopt hpo)
    omega
  · omega

/-! ## The cases of the count -/

theorem byCount_of_few {ps : List Parameter} {text : List Char}
    (hk : (words text).length < requiredCount ps) :
    byCount ps text = .error .tooFewArguments := by
  rw [byCount, if_pos hk]

theorem byCount_of_many {ps : List Parameter} {text : List Char}
    (hn : ps.length < (words text).length) (hlast : ∀ p ∈ ps.getLast?, p.variadic = false) :
    byCount ps text = .error .tooManyArguments := by
  have hle := requiredCount_le_length ps
  rw [byCount, if_neg (by omega)]
  cases hl : ps.getLast? with
  | none => rfl
  | some last =>
    have hvar : last.variadic = false := hlast last (by rw [hl]; rfl)
    simp only [hvar]
    rw [if_neg (by omega), if_neg (by simp), if_pos hn]

theorem byCount_of_fitting {ps : List Parameter} {text : List Char}
    (hpos : 1 ≤ (words text).length) (hk : requiredCount ps ≤ (words text).length)
    (hn : (words text).length < ps.length ∨
      (∀ p ∈ ps.getLast?, p.variadic = false) ∧ (words text).length ≤ ps.length) :
    byCount ps text = .ok (pair ps (words text)) := by
  rw [byCount, if_neg (by omega)]
  cases hl : ps.getLast? with
  | none =>
    rw [List.getLast?_eq_none_iff.1 hl, List.length_nil] at hn
    omega
  | some last =>
    simp only
    rcases hn with hlt | ⟨hlast, hle⟩
    · rw [if_pos hlt]
    · have hvar : last.variadic = false := hlast last (by rw [hl]; rfl)
      split
      · rfl
      · rw [if_neg (by simp [hvar]), if_neg (by omega)]

theorem byCount_of_variadic {init : List Parameter} {last : Parameter} {text : List Char}
    (hlast : last.variadic = true) (hn : init.length + 1 ≤ (words text).length) :
    byCount (init ++ [last]) text = .ok (pair init (words text) ++
      [⟨last, String.ofList (fromWord init.length text)⟩]) := by
  have hlen : (init ++ [last]).length = init.length + 1 := by simp
  have hle := requiredCount_le_length (init ++ [last])
  rw [byCount, if_neg (by omega), List.getLast?_concat]
  simp only [hlast]
  rw [if_neg (by omega), hlen, Nat.add_sub_cancel, List.dropLast_concat]
  rfl

/-! ## The walk -/

theorem byCount_nil (text : List Char) : byCount [] text = .error .tooManyArguments := by
  simp [byCount, requiredCount]

/-- Counting one parameter and one word less, while more words follow. -/
theorem byCount_cons {p : Parameter} {ps : List Parameter} {text : List Char}
    (h : Grammatical (p :: ps)) (hp : p.variadic = false) (htext : trimStart text ≠ [])
    (hmore : words (afterWord (trimStart text)) ≠ []) :
    byCount (p :: ps) text = (byCount ps (afterWord (trimStart text))).map
      (⟨p, String.ofList (word (trimStart text))⟩ :: ·) := by
  have hpos := List.length_pos_iff.2 hmore
  have hfew := succ_lt_requiredCount_cons_iff h (n := (words (afterWord (trimStart text))).length)
  rw [byCount, words_of_trimStart_ne_nil htext, List.length_cons]
  generalize hws : words (afterWord (trimStart text)) = ws at *
  cases ps with
  | nil =>
    have hnone : requiredCount [] = 0 := rfl
    rw [byCount_nil, if_neg (by omega), List.getLast?_singleton]
    simp only [List.length_singleton, hp]
    rw [if_neg (by omega), if_neg (by simp), if_pos (by omega)]
    rfl
  | cons q qs =>
    obtain ⟨last, hlast⟩ : ∃ last, (q :: qs).getLast? = some last :=
      Option.isSome_iff_exists.1 (by simp)
    rw [byCount, hws, List.getLast?_cons_cons, hlast]
    by_cases hk : ws.length < requiredCount (q :: qs)
    · rw [if_pos (hfew.2 hk), if_pos hk]
      rfl
    rw [if_neg (fun h' => hk (hfew.1 h')), if_neg hk]
    simp only [List.length_cons]
    by_cases hn : ws.length < qs.length + 1
    · rw [if_pos (by omega), if_pos hn]
      rfl
    rw [if_neg (by omega), if_neg hn]
    cases last.variadic with
    | true => rfl
    | false =>
      by_cases hm : qs.length + 1 < ws.length
      · simp [hm]
        rfl
      · simp [hm]
        rfl

/-- A single variadic parameter takes the whole text. -/
theorem byCount_variadic {p : Parameter} {text : List Char} (hp : p.variadic = true)
    (htext : trimStart text ≠ []) :
    byCount [p] text = .ok [⟨p, String.ofList (trimStart text)⟩] := by
  have hone : ([] : List Parameter).length + 1 ≤ (words text).length := by
    rw [words_of_trimStart_ne_nil htext, List.length_cons, List.length_nil]
    omega
  rw [← List.nil_append [p], byCount_of_variadic hp hone]
  rfl

/-- A text with one word, which ends in it: too few words exactly if something required comes after
the first parameter. -/
theorem byCount_of_one_word {p : Parameter} {ps : List Parameter} {text : List Char}
    (h : Grammatical (p :: ps)) (htext : trimStart text ≠ []) (hp : p.variadic = false)
    (hone : afterWord (trimStart text) = []) :
    byCount (p :: ps) text = if requiredCount ps = 0
      then .ok [⟨p, String.ofList (trimStart text)⟩] else .error .tooFewArguments := by
  have hws : words text = [trimStart text] := by
    rw [words_of_trimStart_ne_nil htext, hone, words_nil, word_eq_self_of_afterWord hone]
  have hlen : (words text).length = 1 := by rw [hws, List.length_singleton]
  obtain ⟨-, hopt, -, -⟩ := grammatical_cons_iff.1 h
  have hreq := requiredCount_cons p ps
  by_cases hk : requiredCount ps = 0
  · have hle : requiredCount (p :: ps) ≤ (words text).length := by
      rw [hreq, hlen]
      split <;> omega
    have hn : (words text).length < (p :: ps).length ∨
        (∀ q ∈ (p :: ps).getLast?, q.variadic = false) ∧
          (words text).length ≤ (p :: ps).length := by
      rw [hlen, List.length_cons]
      cases ps with
      | nil => exact Or.inr ⟨by simpa using hp, by simp⟩
      | cons q qs => exact Or.inl (by simp)
    rw [if_pos hk, byCount_of_fitting (by omega) hle hn, hws, pair, List.zipWith_cons_cons,
      List.zipWith_nil_right]
  · have hpo : ¬ p.optional = true := fun hpo => hk (requiredCount_eq_zero_iff.2 (hopt hpo))
    rw [if_neg hpo] at hreq
    rw [if_neg hk]
    exact byCount_of_few (by omega)

/-- **The walk counts**: induction along the parameters. The flag is set only when nothing required
is left, so with a word to come it makes no difference, and neither does what may stand for the
first argument. -/
theorem bindFrom_eq_byCount {mayBeEmpty satisfied : Bool} {ps : List Parameter} {text : List Char}
    (h : Grammatical ps) (htight : NoTrailingBlank text) (htext : trimStart text ≠ [])
    (hsat : satisfied = true → requiredCount ps = 0) :
    bindFrom mayBeEmpty satisfied ps text = byCount ps text := by
  induction ps generalizing satisfied text with
  | nil =>
    rw [bindFrom, byCount_nil, if_pos]
    simpa using htext
  | cons p ps ih =>
    obtain ⟨-, -, hvar, hps⟩ := grammatical_cons_iff.1 h
    have hflag : (satisfied || mayEnd p ps) = decide (requiredCount ps = 0) := by
      rw [mayEnd_eq h]
      cases hs : satisfied with
      | false => rfl
      | true =>
        have hzero := hsat hs
        rw [requiredCount_cons] at hzero
        simp [show requiredCount ps = 0 by omega]
    have htail : NoTrailingBlank (trimStart text) := htight.suffix (trimStart_suffix text)
    rw [bindFrom]
    simp only [hflag]
    rw [if_neg (by simpa using htext)]
    cases hp : p.variadic with
    | true =>
      -- a variadic parameter is the last, and takes the text from here on
      obtain rfl := hvar hp
      rw [if_pos rfl, byCount_variadic hp htext, htail.trimEnd_eq]
      simp [requiredCount]
    | false =>
      rw [if_neg (by simp)]
      cases hafter : afterWord (trimStart text) with
      | nil =>
        rw [List.isEmpty_nil, if_pos rfl, byCount_of_one_word h htext hp hafter]
        simp
      | cons c cs =>
        have htight' : NoTrailingBlank (afterWord (trimStart text)) :=
          htail.suffix (afterWord_suffix _)
        have hmore : words (afterWord (trimStart text)) ≠ [] := by
          rw [Ne, htight'.words_eq_nil_iff, hafter]
          exact List.cons_ne_nil c cs
        rw [byCount_cons h hp htext hmore, ← hafter, if_neg (by simp [hafter]),
          ih hps htight' (fun hnil => hmore (words_eq_nil_iff.2 hnil)) (by simp)]
        cases byCount ps (afterWord (trimStart text)) <;> rfl

/-- What a text that ends in a word binds. Without words the arguments may be missing only if none
is required or something stands in for the first. -/
theorem ofText_eq {ps : List Parameter} {text : String} (h : Grammatical ps)
    (htight : NoTrailingBlank text.toList) (implicitFirst : Bool) :
    ofText ps text implicitFirst =
      if words text.toList = [] then
        if requiredCount ps = 0 ∨ implicitFirst = true then .ok [] else .error .tooFewArguments
      else byCount ps text.toList := by
  by_cases hws : words text.toList = []
  · rw [if_pos hws, ofText, head_optional_eq h, htight.words_eq_nil_iff.1 hws]
    cases ps with
    | nil => simp [bindFrom, trimStart, requiredCount]
    | cons p ps =>
      simp only [bindFrom, trimStart, List.dropWhile_nil, List.isEmpty_nil, Bool.false_or, if_true]
      rcases em (requiredCount (p :: ps) = 0) with hk | hk <;> cases implicitFirst <;> simp [hk]
  · rw [if_neg hws, ofText]
    exact bindFrom_eq_byCount h htight (fun ht => hws (words_eq_nil_iff.2 ht)) (by simp)

/-! ## What a binding covers -/

theorem map_parameter_pair (ps : List Parameter) (ws : List (List Char)) :
    (pair ps ws).map Argument.parameter = ps.take ws.length := by
  induction ps generalizing ws with
  | nil => simp [pair]
  | cons p ps ih =>
    cases ws with
    | nil => rfl
    | cons w ws => exact congrArg (p :: ·) (ih ws)

theorem length_pair (ps : List Parameter) (ws : List (List Char)) :
    (pair ps ws).length = min ps.length ws.length :=
  List.length_zipWith

/-- A text that binds at all binds parameters from the first on, and as many as are required. -/
theorem bound_of_byCount {ps : List Parameter} {text : List Char} {args : Binding}
    (h : byCount ps text = .ok args) :
    args.map Argument.parameter = ps.take args.length ∧ requiredCount ps ≤ args.length := by
  have hle := requiredCount_le_length ps
  rw [byCount] at h
  split at h
  · cases h
  next hk =>
  split at h
  · cases h
  next last hlast =>
  have hps : ps = ps.dropLast ++ [last] := (List.dropLast_append_getLast? last hlast).symm
  split at h
  · next hn =>
    cases h
    rw [map_parameter_pair, length_pair, Nat.min_eq_right (by omega)]
    exact ⟨rfl, by omega⟩
  next hn =>
  split at h
  · cases h
    have hlen : (pair ps.dropLast (words text)).length = ps.length - 1 := by
      rw [length_pair, List.length_dropLast, Nat.min_eq_left (by omega)]
    have hpos : 0 < ps.length := by
      rw [hps]
      simp
    rw [List.map_append, map_parameter_pair, List.length_append, hlen, List.length_singleton,
      Nat.sub_add_cancel hpos, List.take_length, List.take_of_length_le
        (by rw [List.length_dropLast]; omega)]
    exact ⟨hps.symm, hle⟩
  · split at h
    · cases h
    next hm =>
    cases h
    rw [map_parameter_pair, length_pair, Nat.min_eq_right (by omega)]
    exact ⟨rfl, by omega⟩

/-- Past as many parameters as are required there are only optional ones. -/
theorem optional_of_mem_drop {ps : List Parameter} {i : Nat} {p : Parameter} (h : Grammatical ps)
    (hi : requiredCount ps ≤ i) (hp : p ∈ ps.drop i) : p.optional = true := by
  induction ps generalizing i with
  | nil => simp at hp
  | cons q qs ih =>
    obtain ⟨-, hopt, -, hqs⟩ := grammatical_cons_iff.1 h
    cases i with
    | zero =>
      have hzero : requiredCount (q :: qs) = 0 := by omega
      exact requiredCount_eq_zero_iff.1 hzero p hp
    | succ i =>
      refine ih hqs ?_ hp
      rw [requiredCount_cons] at hi
      split at hi
      · next hq =>
        rw [requiredCount_eq_zero_iff.2 (hopt hq)]
        omega
      · omega

/-- What a text that ends in a word leaves unbound: nothing that is required, unless it is empty
and something stands in for the first argument. -/
theorem unbound_of_ofText {ps : List Parameter} {text : String} {implicitFirst : Bool}
    {args : Binding} (h : Grammatical ps) (htight : NoTrailingBlank text.toList)
    (hargs : ofText ps text implicitFirst = .ok args) :
    args.map Argument.parameter = ps.take args.length ∧
      (text = "" → args = []) ∧
      (¬ (implicitFirst = true ∧ text = "") → ∀ p ∈ ps.drop args.length, p.optional = true) := by
  have hempty : words text.toList = [] ↔ text = "" := by
    rw [htight.words_eq_nil_iff, String.toList_eq_nil_iff]
  rw [ofText_eq h htight] at hargs
  split at hargs
  · next hws =>
    split at hargs
    · next hk =>
      cases hargs
      refine ⟨rfl, fun _ => rfl, fun hnot => ?_⟩
      rcases hk with hk | himp
      · exact requiredCount_eq_zero_iff.1 hk
      · exact absurd ⟨himp, hempty.1 hws⟩ hnot
    · cases hargs
  · next hws =>
    obtain ⟨hmap, hk⟩ := bound_of_byCount hargs
    exact ⟨hmap, fun htext => absurd (hempty.2 htext) hws,
      fun _ p hp => optional_of_mem_drop h hk hp⟩

/-! ## The law -/

/-- **Binding by counts**, for the parameters of any pattern and any text without a blank at its
end: what is bound depends on how many words there are. A variadic last parameter takes the text
as it stands from its word on, which is the part that starts with this word and holds the words
that are left. -/
theorem binding_of_word_count {pattern : String} {ps : List Parameter} {text : String}
    (compiled : Pattern.compile pattern = .ok ps) (tight : NoTrailingBlank text.toList)
    (implicitFirst : Bool) :
    let ws := words text.toList
    (ws.length = 0 → ofText ps text implicitFirst =
      if requiredCount ps = 0 ∨ implicitFirst = true then .ok [] else .error .tooFewArguments) ∧
    (1 ≤ ws.length → ws.length < requiredCount ps →
      ofText ps text implicitFirst = .error .tooFewArguments) ∧
    (ps.length < ws.length → (∀ last ∈ ps.getLast?, last.variadic = false) →
      ofText ps text implicitFirst = .error .tooManyArguments) ∧
    (requiredCount ps ≤ ws.length →
      ws.length < ps.length ∨
        (∀ last ∈ ps.getLast?, last.variadic = false) ∧ ws.length ≤ ps.length →
      ofText ps text implicitFirst = .ok (pair ps ws)) ∧
    (∀ init last, ps = init ++ [last] → last.variadic = true →
      max (requiredCount ps) ps.length ≤ ws.length →
      let left := fromWord init.length text.toList
      left <:+ text.toList ∧ trimStart left = left ∧ words left = ws.drop init.length ∧
        ofText ps text implicitFirst = .ok (pair init ws ++ [⟨last, String.ofList left⟩])) := by
  intro ws
  obtain ⟨-, hgrammar⟩ := Pattern.compile_eq_ok_iff.1 compiled
  have hspec := ofText_eq hgrammar tight implicitFirst
  have hnone : ws.length = 0 → ofText ps text implicitFirst =
      if requiredCount ps = 0 ∨ implicitFirst = true then .ok [] else .error .tooFewArguments := by
    intro h
    rw [hspec, if_pos (List.length_eq_zero_iff.1 h)]
  have hcount : 1 ≤ ws.length → ofText ps text implicitFirst = byCount ps text.toList := by
    intro hpos
    rw [hspec, if_neg (List.length_pos_iff.1 hpos)]
  refine ⟨hnone, ?_, ?_, ?_, ?_⟩
  · intro hpos hk
    rw [hcount hpos]
    exact byCount_of_few hk
  · intro hn hlast
    rw [hcount (by omega)]
    exact byCount_of_many hn hlast
  · intro hk hn
    by_cases hpos : ws.length = 0
    · -- no words are enough words only if none is required
      rw [hnone hpos, if_pos (Or.inl (by omega)), List.length_eq_zero_iff.1 hpos, pair,
        List.zipWith_nil_right]
    · rw [hcount (by omega)]
      exact byCount_of_fitting (Nat.pos_of_ne_zero hpos) hk hn
  · rintro init last rfl hlast hm
    rw [List.length_append, List.length_singleton] at hm
    have hn : init.length + 1 ≤ ws.length := by omega
    refine ⟨fromWord_suffix _ _, trimStart_fromWord _ _, words_fromWord _ _, ?_⟩
    rw [hcount (by omega)]
    exact byCount_of_variadic hlast hn

theorem binding_of_word_count_spaced :
    Pattern.compile "<n> [why...]" =
      .ok [.mandatory "n", (Parameter.omissible "why").collecting] ∧
    NoTrailingBlank " 5  spam \t and more".toList ∧
    ofText [.mandatory "n", (Parameter.omissible "why").collecting] " 5  spam \t and more" false =
      .ok [⟨.mandatory "n", "5"⟩,
        ⟨(Parameter.omissible "why").collecting, "spam \t and more"⟩] := by
  have hcompile : Pattern.compile "<n> [why...]" =
      .ok [.mandatory "n", (Parameter.omissible "why").collecting] := by decide
  have htight : NoTrailingBlank " 5  spam \t and more".toList := by decide
  refine ⟨hcompile, htight, ?_⟩
  have hlaw := (binding_of_word_count hcompile htight false).2.2.2.2 [.mandatory "n"]
    (Parameter.omissible "why").collecting rfl rfl (by decide)
  rw [hlaw.2.2.2]
  decide

end ChatCommands.Binding
