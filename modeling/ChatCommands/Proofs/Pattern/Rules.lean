import ChatCommands.Proofs.Pattern.Grammar

/-!
# The rules for tokens

Four rules decide about the tokens of a pattern, and each token is held against them in one order
(`Pattern.Rule`). A pattern compiles exactly if no token breaks any of them, and then every token
declares one parameter. Otherwise the error is that of the leftmost token that breaks a rule, and
of the first rule that it breaks (`Pattern.compile_by_rules`).

The compiler goes along the tokens once and remembers whether one of them was optional; that is all
that the rules need to know of the tokens before (`Pattern.compileTokens_cons_cases`).
-/

namespace ChatCommands.Pattern

open Text

/-! ## Names in brackets -/

/-- A name in the brackets of an optional or of a required parameter. -/
def enclose (optional : Bool) (name : String) : String :=
  if optional then "[" ++ name ++ "]" else "<" ++ name ++ ">"

theorem toList_enclose (optional : Bool) (name : String) :
    (enclose optional name).toList = wrap optional name.toList := by
  cases optional <;> simp [enclose, wrap]

theorem wrap_inj {optional optional' : Bool} {inner inner' : List Char} :
    wrap optional inner = wrap optional' inner' ↔ optional = optional' ∧ inner = inner' := by
  cases optional <;> cases optional' <;> simp [wrap]

theorem enclose_inj {optional optional' : Bool} {name name' : String} :
    enclose optional name = enclose optional' name' ↔ optional = optional' ∧ name = name' := by
  rw [← String.toList_inj, toList_enclose, toList_enclose, wrap_inj, String.toList_inj]

theorem ofList_wrap (optional : Bool) (inner : List Char) :
    String.ofList (wrap optional inner) = enclose optional (String.ofList inner) := by
  rw [← String.toList_inj, toList_enclose, String.toList_ofList, String.toList_ofList]

/-- A name ends in the marker exactly if the marker can be taken off. -/
theorem isSome_unmark?_iff {inner : List Char} :
    (unmark? inner).isSome = true ↔ ∃ stem, String.ofList inner = stem ++ "..." := by
  rw [Option.isSome_iff_exists]
  constructor
  · rintro ⟨stem, hstem⟩
    refine ⟨String.ofList stem, ?_⟩
    rw [unmark?_eq_some_iff.1 hstem, String.ofList_append]
    rfl
  · rintro ⟨stem, hstem⟩
    refine ⟨stem.toList, unmark?_eq_some_iff.2 ?_⟩
    rw [← String.toList_ofList (l := inner), hstem, String.toList_append]
    rfl

/-! ## Rules -/

/-- The rules for a token, in the order in which they are checked. -/
inductive Rule where
  /-- The token is a name in matching brackets. -/
  | bracketed
  /-- A required parameter does not come after an optional one. -/
  | ordered
  /-- Only the last name has the marker of a variadic parameter. -/
  | variadicLast
  /-- The name is not blank, apart from the marker. -/
  | named
  deriving DecidableEq, Repr

namespace Rule

/-- The place of a rule in the order of the checks. -/
def rank : Rule → Nat
  | bracketed => 0
  | ordered => 1
  | variadicLast => 2
  | named => 3

/-- The error about a token that breaks the rule. -/
def error : Rule → String → PatternError
  | bracketed => .malformed
  | ordered => .requiredAfterOptional
  | variadicLast => .variadicNotLast
  | named => .malformed

/-- What breaks a rule, for a token between others. -/
def Broken (before : List String) (token : String) (after : List String) : Rule → Prop
  | bracketed => ∀ optional name, token = enclose optional name → name = ""
  | ordered => (∃ name, token = enclose false name) ∧ ∃ t ∈ before, ∃ name, t = enclose true name
  | variadicLast => after ≠ [] ∧ ∃ optional stem, token = enclose optional (stem ++ "...")
  | named => ∃ optional name, token = enclose optional name ∧
      ∃ stem, isBlankText stem.toList = true ∧ (name = stem ∨ name = stem ++ "...")

/-- The rule is broken, and it is the first that is. -/
def FirstBroken (before : List String) (token : String) (after : List String) (rule : Rule) :
    Prop :=
  rule.Broken before token after ∧
    ∀ other : Rule, other.rank < rule.rank → ¬ other.Broken before token after

/-- The token at a position breaks the rule. -/
def BrokenAt (ts : List String) (i : Nat) (rule : Rule) : Prop :=
  ∃ token, ts[i]? = some token ∧ rule.Broken (ts.take i) token (ts.drop (i + 1))

theorem rank_injective {rule rule' : Rule} (h : rule.rank = rule'.rank) : rule = rule' := by
  cases rule <;> cases rule' <;> first | rfl | cases h

variable {before after : List String} {optional : Bool} {name : String}

/-- If a rule is kept, as well as those before it, then all before the next one are. -/
theorem unbroken_below_next {token : String} (rule next : Rule) (hnext : next.rank = rule.rank + 1)
    (below : ∀ other : Rule, other.rank < rule.rank → ¬ other.Broken before token after)
    (kept : ¬ rule.Broken before token after) :
    ∀ other : Rule, other.rank < next.rank → ¬ other.Broken before token after := by
  intro other hrank
  rw [hnext, Nat.lt_succ_iff_lt_or_eq] at hrank
  rcases hrank with hlt | heq
  · exact below other hlt
  · rwa [rank_injective heq]

theorem broken_ordered_iff : Broken before (enclose optional name) after ordered ↔
    optional = false ∧ ∃ t ∈ before, ∃ name, t = enclose true name := by
  simp [Broken, enclose_inj]

theorem broken_variadicLast_iff : Broken before (enclose optional name) after variadicLast ↔
    after ≠ [] ∧ ∃ stem, name = stem ++ "..." := by
  simp [Broken, enclose_inj]

theorem broken_named_iff : Broken before (enclose optional name) after named ↔
    ∃ stem, isBlankText stem.toList = true ∧ (name = stem ∨ name = stem ++ "...") := by
  simp [Broken, enclose_inj]

end Rule

/-- A blank name is found out, with or without the marker. -/
theorem isBlankText_stem_iff {inner : List Char} :
    isBlankText ((unmark? inner).getD inner) = true ↔ ∃ stem : String,
      isBlankText stem.toList = true ∧
        (String.ofList inner = stem ∨ String.ofList inner = stem ++ "...") := by
  constructor
  · intro hblank
    cases hm : unmark? inner with
    | none =>
      rw [hm, Option.getD_none] at hblank
      exact ⟨String.ofList inner, by rwa [String.toList_ofList], .inl rfl⟩
    | some stem =>
      rw [hm, Option.getD_some] at hblank
      refine ⟨String.ofList stem, by rwa [String.toList_ofList], .inr ?_⟩
      rw [unmark?_eq_some_iff.1 hm, String.ofList_append]
      rfl
  · rintro ⟨stem, hblank, rfl | hmarked⟩
    · rw [String.toList_ofList] at hblank
      -- dots are not blanks, so a blank name has no marker to lose
      have hnone : unmark? inner = none := by
        rw [unmark?_eq_none_iff]
        intro hsuffix
        have hdot := List.all_eq_true.1 hblank '.' (hsuffix.subset (by decide))
        exact absurd hdot (by decide)
      rw [hnone]
      exact hblank
    · have hsome : unmark? inner = some stem.toList := by
        rw [unmark?_eq_some_iff, ← String.toList_ofList (l := inner), hmarked,
          String.toList_append]
        rfl
      rw [hsome]
      exact hblank

/-- A token declares a parameter: they have the same name, but for the marker, and the brackets and
the marker say whether the parameter is optional and whether it is variadic. -/
structure Declares (token : String) (p : Parameter) : Prop where
  token_eq : token = enclose p.optional (if p.variadic then p.name ++ "..." else p.name)
  unmarked : p.variadic = false → ∀ stem, p.name ≠ stem ++ "..."

theorem declares_parameterOf (optional : Bool) (inner : List Char) :
    Declares (enclose optional (String.ofList inner)) (parameterOf optional inner) := by
  cases hm : unmark? inner with
  | none =>
    refine ⟨by simp [parameterOf, hm], ?_⟩
    intro _ stem hstem
    have hsome := isSome_unmark?_iff.2 ⟨stem, by simpa [parameterOf, hm] using hstem⟩
    rw [hm] at hsome
    cases hsome
  | some stem =>
    refine ⟨?_, by simp [parameterOf, hm]⟩
    have hinner := unmark?_eq_some_iff.1 hm
    simp only [parameterOf, hm, Option.isSome_some, if_true, Option.getD_some]
    rw [hinner, String.ofList_append]
    rfl

/-! ## One token -/

/-- Whether an optional parameter was seen is all that the rules ask of the tokens before. -/
def Seen (before : List String) (optionalSeen : Bool) : Prop :=
  optionalSeen = true ↔ ∃ t ∈ before, ∃ name, t = enclose true name

theorem Seen.concat {before : List String} {seen optional : Bool} (h : Seen before seen)
    (name : String) : Seen (before ++ [enclose optional name]) (seen || optional) := by
  rw [Seen] at h ⊢
  rw [Bool.or_eq_true, h]
  simp [exists_or, enclose_inj]

/-- What the compiler tests for a token in brackets is whether it breaks each of the rules. -/
theorem misplaced_iff {before after : List String} {seen optional : Bool} {name : String}
    (h : Seen before seen) :
    (!optional && seen) = true ↔ Rule.Broken before (enclose optional name) after .ordered := by
  rw [Rule.broken_ordered_iff, ← h.eq]
  simp

theorem marked_early_iff {before : List String} {optional : Bool} {inner : List Char}
    {rest : List (List Char)} :
    ((unmark? inner).isSome && !rest.isEmpty) = true ↔
      Rule.Broken before (enclose optional (String.ofList inner)) (rest.map String.ofList)
        .variadicLast := by
  rw [Rule.broken_variadicLast_iff, Bool.and_eq_true, isSome_unmark?_iff, and_comm]
  simp

theorem blank_iff {before after : List String} {optional : Bool} {inner : List Char} :
    isBlankText ((unmark? inner).getD inner) = true ↔
      Rule.Broken before (enclose optional (String.ofList inner)) after .named := by
  rw [Rule.broken_named_iff, isBlankText_stem_iff]

theorem not_broken_bracketed {before after : List String} {optional : Bool} {inner : List Char}
    (h : inner ≠ []) :
    ¬ Rule.Broken before (enclose optional (String.ofList inner)) after .bracketed := by
  intro hbroken
  have hempty := congrArg String.toList (hbroken optional _ rfl)
  rw [String.toList_ofList] at hempty
  exact h hempty

/-- A token that is not a name in brackets breaks the first rule. -/
theorem broken_bracketed_of_unwrap? {before after : List String} {token : List Char}
    (h : unwrap? token = none) : Rule.Broken before (String.ofList token) after .bracketed := by
  intro optional name htoken
  by_contra hname
  have hwrap : token = wrap optional name.toList := by
    rw [← toList_enclose, ← htoken, String.toList_ofList]
  rw [unwrap?_eq_some_iff.2 ⟨hwrap, by simpa using hname⟩] at h
  cases h

/-- **One token**: it fails with the first rule that it breaks, or it declares a parameter and the
tokens after it decide. -/
theorem compileTokens_cons_cases {before : List String} {seen : Bool} (h : Seen before seen)
    (token : List Char) (rest : List (List Char)) :
    (∃ rule : Rule, rule.FirstBroken before (String.ofList token) (rest.map String.ofList) ∧
      compileTokens seen (token :: rest) = .error (rule.error (String.ofList token))) ∨
    ((∀ rule : Rule, ¬ rule.Broken before (String.ofList token) (rest.map String.ofList)) ∧
      ∃ p, Declares (String.ofList token) p ∧
        Seen (before ++ [String.ofList token]) (seen || p.optional) ∧
        compileTokens seen (token :: rest) =
          (compileTokens (seen || p.optional) rest).map (p :: ·)) := by
  rw [compileTokens]
  cases hu : unwrap? token with
  | none =>
    exact Or.inl ⟨.bracketed, ⟨broken_bracketed_of_unwrap? hu,
      fun other hrank => absurd hrank (Nat.not_lt_zero _)⟩, rfl⟩
  | some found =>
    obtain ⟨optional, inner⟩ := found
    obtain ⟨rfl, hinner⟩ := unwrap?_eq_some_iff.1 hu
    simp only [ofList_wrap]
    -- the tests of the compiler, one after the other, each once the earlier rules are kept
    have hbracketed : ¬ Rule.Broken before (enclose optional (String.ofList inner))
        (rest.map String.ofList) .bracketed := not_broken_bracketed hinner
    have below_ordered := Rule.unbroken_below_next .bracketed .ordered rfl
      (fun other hrank => absurd hrank (Nat.not_lt_zero _)) hbracketed
    by_cases hordered : (!optional && seen) = true
    · exact Or.inl ⟨.ordered, ⟨(misplaced_iff h).1 hordered, below_ordered⟩, if_pos hordered⟩
    rw [if_neg hordered]
    rw [misplaced_iff h] at hordered
    have below_last := Rule.unbroken_below_next .ordered .variadicLast rfl below_ordered hordered
    by_cases hlast : ((unmark? inner).isSome && !rest.isEmpty) = true
    · exact Or.inl ⟨.variadicLast, ⟨marked_early_iff.1 hlast, below_last⟩, if_pos hlast⟩
    rw [if_neg hlast]
    rw [marked_early_iff] at hlast
    have below_named := Rule.unbroken_below_next .variadicLast .named rfl below_last hlast
    by_cases hnamed : isBlankText ((unmark? inner).getD inner) = true
    · exact Or.inl ⟨.named, ⟨blank_iff.1 hnamed, below_named⟩, if_pos hnamed⟩
    rw [if_neg hnamed]
    rw [blank_iff] at hnamed
    right
    refine ⟨?_, parameterOf optional inner, declares_parameterOf optional inner, h.concat _, ?_⟩
    · intro rule
      cases rule <;> assumption
    · show _ = (compileTokens (seen || optional) rest).map _
      cases compileTokens (seen || optional) rest <;> rfl

/-! ## All tokens -/

/-- The leftmost position whose token breaks a rule, with the first rule that it breaks. -/
structure Fault (ts : List String) (i : Nat) (rule : Rule) : Prop where
  broken : rule.BrokenAt ts i
  first : ∀ other : Rule, other.rank < rule.rank → ¬ other.BrokenAt ts i
  leftmost : ∀ j < i, ∀ other : Rule, ¬ other.BrokenAt ts j

/-- There is at most one fault in tokens. -/
theorem Fault.unique {ts : List String} {i i' : Nat} {rule rule' : Rule} (h : Fault ts i rule)
    (h' : Fault ts i' rule') : i = i' ∧ rule = rule' := by
  have hi : i = i' := by
    rcases Nat.lt_trichotomy i i' with hlt | heq | hgt
    · exact absurd h.broken (h'.leftmost i hlt rule)
    · exact heq
    · exact absurd h'.broken (h.leftmost i' hgt rule')
  subst hi
  refine ⟨rfl, Rule.rank_injective ?_⟩
  rcases Nat.lt_trichotomy rule.rank rule'.rank with hlt | heq | hgt
  · exact absurd h.broken (h'.first rule hlt)
  · exact heq
  · exact absurd h'.broken (h.first rule' hgt)

theorem Rule.brokenAt_iff {before after : List String} {token : String} {rule : Rule} :
    rule.BrokenAt (before ++ token :: after) before.length ↔ rule.Broken before token after := by
  simp [BrokenAt]

/-- Without a broken rule so far, the tokens that are left declare their parameters, or they have
the fault: induction on the tokens that are left. -/
theorem compileTokens_cases {before : List String} {seen : Bool} (h : Seen before seen)
    (rest : List (List Char)) {ts : List String} (hts : ts = before ++ rest.map String.ofList)
    (sound : ∀ i < before.length, ∀ rule : Rule, ¬ rule.BrokenAt ts i) :
    (∃ i token rule, ts[i]? = some token ∧ Fault ts i rule ∧
      compileTokens seen rest = .error (rule.error token)) ∨
    ((∀ i, ∀ rule : Rule, ¬ rule.BrokenAt ts i) ∧
      ∃ ps, List.Forall₂ Declares (rest.map String.ofList) ps ∧
        compileTokens seen rest = .ok ps) := by
  induction rest generalizing before seen with
  | nil =>
    right
    refine ⟨?_, [], List.Forall₂.nil, rfl⟩
    rintro i rule hbroken
    obtain ⟨token, hi, -⟩ := id hbroken
    have hlt := (List.getElem?_eq_some_iff.1 hi).1
    rw [hts, List.map_nil, List.append_nil] at hlt
    exact sound i hlt rule hbroken
  | cons token rest ih =>
    have hat : ∀ rule : Rule, rule.BrokenAt ts before.length ↔
        rule.Broken before (String.ofList token) (rest.map String.ofList) := by
      intro rule
      rw [hts]
      exact Rule.brokenAt_iff
    rcases compileTokens_cons_cases h token rest with
      ⟨rule, ⟨hbroken, hfirst⟩, herror⟩ | ⟨hsound, p, hdeclares, hseen, hcompile⟩
    · left
      refine ⟨before.length, String.ofList token, rule, by simp [hts], ?_, herror⟩
      refine ⟨(hat rule).2 hbroken, ?_, sound⟩
      intro other hrank hother
      exact hfirst other hrank ((hat other).1 hother)
    · have hts' : ts = before ++ [String.ofList token] ++ rest.map String.ofList := by
        rw [hts, List.append_assoc]
        rfl
      have hsound' : ∀ i < (before ++ [String.ofList token]).length, ∀ rule : Rule,
          ¬ rule.BrokenAt ts i := by
        intro i hi rule hbroken
        rw [List.length_append, List.length_singleton] at hi
        rcases Nat.lt_succ_iff_lt_or_eq.1 hi with hlt | rfl
        · exact sound i hlt rule hbroken
        · exact hsound rule ((hat rule).1 hbroken)
      rcases ih hseen hts' hsound' with
        ⟨i, faulty, rule, hi, hfault, herror⟩ | ⟨hall, ps, hps, hok⟩
      · left
        refine ⟨i, faulty, rule, hi, hfault, ?_⟩
        rw [hcompile, herror]
        rfl
      · right
        refine ⟨hall, p :: ps, List.Forall₂.cons hdeclares hps, ?_⟩
        rw [hcompile, hok]
        rfl

theorem compile_cases (pattern : String) :
    (∃ i token rule, (split pattern)[i]? = some token ∧ Fault (split pattern) i rule ∧
      compile pattern = .error (rule.error token)) ∨
    ((∀ i, ∀ rule : Rule, ¬ rule.BrokenAt (split pattern) i) ∧
      ∃ ps, List.Forall₂ Declares (split pattern) ps ∧ compile pattern = .ok ps) := by
  have hseen : Seen [] false := by simp [Seen]
  exact compileTokens_cases hseen (tokens pattern.toList) rfl (by simp)

theorem compiles_iff {pattern : String} :
    (∃ ps, compile pattern = .ok ps) ↔ ∀ i, ∀ rule : Rule, ¬ rule.BrokenAt (split pattern) i := by
  constructor
  · rintro ⟨ps, hps⟩
    rcases compile_cases pattern with ⟨i, token, rule, -, -, herror⟩ | ⟨hsound, -⟩
    · rw [hps] at herror
      cases herror
    · exact hsound
  · intro hsound
    rcases compile_cases pattern with ⟨i, token, rule, -, hfault, -⟩ | ⟨-, ps, -, hok⟩
    · exact absurd hfault.broken (hsound i rule)
    · exact ⟨ps, hok⟩

theorem declares_of_compile {pattern : String} {ps : List Parameter}
    (h : compile pattern = .ok ps) : List.Forall₂ Declares (split pattern) ps := by
  rcases compile_cases pattern with ⟨i, token, rule, -, -, herror⟩ | ⟨-, ps', hps', hok⟩
  · rw [h] at herror
    cases herror
  · rw [h] at hok
    cases hok
    exact hps'

theorem compile_eq_error_iff {pattern : String} {e : PatternError} :
    compile pattern = .error e ↔ ∃ i token rule, (split pattern)[i]? = some token ∧
      Fault (split pattern) i rule ∧ e = rule.error token := by
  rcases compile_cases pattern with ⟨i, token, rule, hi, hfault, herror⟩ | ⟨hsound, ps, -, hok⟩
  · rw [herror]
    constructor
    · intro he
      cases he
      exact ⟨i, token, rule, hi, hfault, rfl⟩
    · rintro ⟨i', token', rule', hi', hfault', rfl⟩
      -- the error of any fault is this one, since there is only one fault
      obtain ⟨rfl, rfl⟩ := hfault.unique hfault'
      rw [hi] at hi'
      cases hi'
      rfl
  · rw [hok]
    constructor
    · intro he
      cases he
    · rintro ⟨i, token, rule, -, hfault, -⟩
      exact absurd hfault.broken (hsound i rule)

/-- **The grammar and the choice of errors**: a pattern compiles exactly if none of its tokens
breaks a rule, and then its tokens declare its parameters, one each, in order. It fails with an
error exactly if this is the error of its fault: of the leftmost token that breaks a rule, and of
the first rule that this token breaks. -/
theorem compile_by_rules (pattern : String) :
    ((∃ ps, compile pattern = .ok ps) ↔
      ∀ i, ∀ rule : Rule, ¬ rule.BrokenAt (split pattern) i) ∧
    (∀ ps, compile pattern = .ok ps → List.Forall₂ Declares (split pattern) ps) ∧
    ∀ e, compile pattern = .error e ↔ ∃ i token rule, (split pattern)[i]? = some token ∧
      Fault (split pattern) i rule ∧ e = rule.error token :=
  ⟨compiles_iff, fun _ => declares_of_compile, fun _ => compile_eq_error_iff⟩

theorem compile_by_rules_broken :
    compile "<user>\t[reason text...]" =
        .ok [.mandatory "user", (Parameter.omissible "reason text").collecting] ∧
      List.Forall₂ Declares (split "<user>\t[reason text...]")
        [.mandatory "user", (Parameter.omissible "reason text").collecting] ∧
      compile "[a] <b...> [ ]" = .error (.requiredAfterOptional "<b...>") ∧
      ∃ i, (split "[a] <b...> [ ]")[i]? = some "<b...>" ∧
        Fault (split "[a] <b...> [ ]") i .ordered := by
  have hok : compile "<user>\t[reason text...]" =
      .ok [.mandatory "user", (Parameter.omissible "reason text").collecting] := by decide
  have herror : compile "[a] <b...> [ ]" = .error (.requiredAfterOptional "<b...>") := by decide
  refine ⟨hok, (compile_by_rules _).2.1 _ hok, herror, ?_⟩
  obtain ⟨i, token, rule, hi, hfault, he⟩ := ((compile_by_rules _).2.2 _).1 herror
  cases rule <;> cases he
  exact ⟨i, hi, hfault⟩

end ChatCommands.Pattern
