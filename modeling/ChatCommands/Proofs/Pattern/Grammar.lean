import ChatCommands.Proofs.Pattern.Tokens

/-!
# The grammar of parameter lists

Which lists of parameters come out of a pattern, and of which pattern. `Grammatical` collects the
rules on the list itself: required parameters first, a variadic one only at the end, names that can
be told from blanks and from the variadic marker. `compile_eq_ok_iff` says that a pattern compiles
to a list exactly when the list keeps these rules and its tokens are those of the pattern.
-/

namespace ChatCommands.Pattern

open Text

/-- A parameter that can be told from its token: the name is not blank, and the name of a
parameter that is not variadic does not end in the marker of those that are. -/
structure Nameable (p : Parameter) : Prop where
  named : ∃ c ∈ p.name.toList, isBlank c = false
  unmarked : p.variadic = false → ¬ marker <:+ p.name.toList

/-- A list of parameters in which no required one follows an optional one, only the last is
variadic, and each can be told from its token. -/
structure Grammatical (ps : List Parameter) : Prop where
  ordered : ps.Pairwise fun p q => p.optional = true → q.optional = true
  variadicLast : ∀ p ∈ ps.dropLast, p.variadic = false
  nameable : ∀ p ∈ ps, Nameable p

theorem grammatical_nil : Grammatical [] where
  ordered := List.Pairwise.nil
  variadicLast := by simp
  nameable := by simp

theorem grammatical_cons_iff {p : Parameter} {ps : List Parameter} :
    Grammatical (p :: ps) ↔ Nameable p ∧ (p.optional = true → ∀ q ∈ ps, q.optional = true) ∧
      (p.variadic = true → ps = []) ∧ Grammatical ps := by
  constructor
  · rintro ⟨hord, hvar, hname⟩
    rw [List.pairwise_cons] at hord
    refine ⟨hname p (by simp), fun hp q hq => hord.1 q hq hp, ?_, hord.2, ?_,
      fun q hq => hname q (by simp [hq])⟩
    · intro hp
      cases ps with
      | nil => rfl
      | cons q qs =>
        have := hvar p (by simp)
        rw [hp] at this
        cases this
    · intro q hq
      cases ps with
      | nil => cases hq
      | cons r rs => exact hvar q (List.mem_cons_of_mem _ hq)
  · rintro ⟨hp, hopt, hvar, hps⟩
    refine ⟨List.pairwise_cons.2 ⟨fun q hq h => hopt h q hq, hps.ordered⟩, ?_, ?_⟩
    · intro q hq
      cases ps with
      | nil => cases hq
      | cons r rs =>
        rcases List.mem_cons.1 hq with rfl | hq
        · rw [Bool.eq_false_iff]
          intro hv
          cases hvar hv
        · exact hps.variadicLast q hq
    · intro q hq
      rcases List.mem_cons.1 hq with rfl | hq
      · exact hp
      · exact hps.nameable q hq

/-! ## Brackets and markers -/

/-- A text between the brackets of an optional or of a required parameter. -/
def wrap (optional : Bool) (inner : List Char) : List Char :=
  if optional then '[' :: (inner ++ [']']) else '<' :: (inner ++ ['>'])

/-- What stands between the brackets of the token of a parameter. -/
def innerOf (p : Parameter) : List Char :=
  p.name.toList ++ if p.variadic then marker else []

theorem tokenOf_eq (p : Parameter) : tokenOf p = wrap p.optional (innerOf p) := rfl

/-- Taking the brackets off is the inverse of putting them around a text that is not empty. -/
theorem unwrap?_eq_some_iff {token inner : List Char} {optional : Bool} :
    unwrap? token = some (optional, inner) ↔ token = wrap optional inner ∧ inner ≠ [] := by
  constructor
  · intro h
    cases token with
    | nil => cases h
    | cons c cs =>
      rw [unwrap?] at h
      split at h
      · cases h
      · next hlen =>
        have hinner : ∀ d, cs.getLast? = some d → cs = cs.dropLast ++ [d] ∧ cs.dropLast ≠ [] := by
          intro d hd
          refine ⟨(List.dropLast_append_getLast? d hd).symm, ?_⟩
          intro hnil
          have := congrArg List.length hnil
          simp only [List.length_dropLast, List.length_nil] at this
          omega
        split at h
        · next hb =>
          obtain ⟨rfl, hlast⟩ := hb
          cases h
          obtain ⟨hcs, hne⟩ := hinner _ hlast
          exact ⟨congrArg ('<' :: ·) hcs, hne⟩
        · split at h
          · next hb =>
            obtain ⟨rfl, hlast⟩ := hb
            cases h
            obtain ⟨hcs, hne⟩ := hinner _ hlast
            exact ⟨congrArg ('[' :: ·) hcs, hne⟩
          · cases h
  · rintro ⟨rfl, hne⟩
    have hlen : ∀ c : Char, ¬ (inner ++ [c]).length < 2 := by
      intro c
      have hpos := List.length_pos_iff.2 hne
      rw [List.length_append, List.length_singleton]
      omega
    cases optional with
    | true =>
      rw [wrap, if_pos rfl, unwrap?, if_neg (hlen _)]
      simp
    | false =>
      rw [wrap, if_neg (by simp), unwrap?, if_neg (hlen _)]
      simp

theorem unmark?_eq_some_iff {name stem : List Char} :
    unmark? name = some stem ↔ name = stem ++ marker := by
  rw [unmark?, Option.map_eq_some_iff]
  constructor
  · rintro ⟨rest, h, rfl⟩
    rw [after?_eq_some_iff] at h
    rw [← List.reverse_inj, h, List.reverse_append, List.reverse_reverse]
  · rintro rfl
    refine ⟨stem.reverse, ?_, List.reverse_reverse stem⟩
    rw [after?_eq_some_iff, List.reverse_append]

theorem unmark?_eq_none_iff {name : List Char} : unmark? name = none ↔ ¬ marker <:+ name := by
  rw [Option.eq_none_iff_forall_ne_some]
  constructor
  · rintro h ⟨stem, hstem⟩
    exact h stem (unmark?_eq_some_iff.2 hstem.symm)
  · intro h stem hstem
    exact h ⟨stem, (unmark?_eq_some_iff.1 hstem).symm⟩

/-! ## Compilation -/

/-- The parameter that a token with this between its brackets declares. -/
def parameterOf (optional : Bool) (inner : List Char) : Parameter where
  name := String.ofList ((unmark? inner).getD inner)
  optional := optional
  variadic := (unmark? inner).isSome

theorem innerOf_ne_nil {p : Parameter} (h : Nameable p) : innerOf p ≠ [] := by
  obtain ⟨c, hc, -⟩ := h.named
  exact List.append_ne_nil_of_left_ne_nil (List.ne_nil_of_mem hc) _

/-- A declared parameter has the token that declares it. -/
theorem innerOf_parameterOf (optional : Bool) (inner : List Char) :
    innerOf (parameterOf optional inner) = inner := by
  rw [innerOf, parameterOf, String.toList_ofList]
  cases hm : unmark? inner with
  | none => exact List.append_nil inner
  | some stem => exact (unmark?_eq_some_iff.1 hm).symm

theorem nameable_parameterOf {optional : Bool} {inner : List Char}
    (h : isBlankText ((unmark? inner).getD inner) = false) :
    Nameable (parameterOf optional inner) := by
  rw [parameterOf]
  refine ⟨?_, ?_⟩
  · rw [String.toList_ofList]
    simpa [isBlankText] using h
  · intro hv
    rw [Option.isSome_eq_false_iff, Option.isNone_iff_eq_none] at hv
    rw [String.toList_ofList, hv, Option.getD_none]
    exact unmark?_eq_none_iff.1 hv

/-- The marker is read where it was written, and nowhere else. -/
theorem parameterOf_innerOf {p : Parameter} (h : Nameable p) :
    parameterOf p.optional (innerOf p) = p := by
  have hm : unmark? (innerOf p) = if p.variadic then some p.name.toList else none := by
    cases hv : p.variadic with
    | true =>
      rw [if_pos rfl, unmark?_eq_some_iff, innerOf, hv]
      rfl
    | false =>
      rw [if_neg (by simp), unmark?_eq_none_iff, innerOf, hv]
      simpa using h.unmarked hv
  rw [parameterOf, hm]
  cases p with
  | mk name optional variadic => cases variadic <;> simp [innerOf]

/-- What compiling one token says: it declares a parameter that may stand here, and the tokens
after it compile. -/
theorem compileTokens_cons_eq_ok_iff {seen : Bool} {token : List Char} {rest : List (List Char)}
    {ps : List Parameter} :
    compileTokens seen (token :: rest) = .ok ps ↔ ∃ p qs, ps = p :: qs ∧ token = tokenOf p ∧
      Nameable p ∧ (seen = true → p.optional = true) ∧ (p.variadic = true → rest = []) ∧
      compileTokens (seen || p.optional) rest = .ok qs := by
  constructor
  · intro h
    rw [compileTokens] at h
    cases hu : unwrap? token with
    | none => simp [hu] at h
    | some found =>
      obtain ⟨optional, inner⟩ := found
      obtain ⟨rfl, -⟩ := unwrap?_eq_some_iff.1 hu
      simp only [hu] at h
      split at h
      · cases h
      next hopt =>
      split at h
      · cases h
      next hvar =>
      split at h
      · cases h
      next hblank =>
      cases hr : compileTokens (seen || optional) rest with
      | error e => simp [hr] at h
      | ok qs =>
        simp only [hr, Except.ok.injEq] at h
        have htoken : wrap optional inner = tokenOf (parameterOf optional inner) := by
          rw [tokenOf_eq, innerOf_parameterOf]
          rfl
        refine ⟨parameterOf optional inner, qs, h.symm, htoken,
          nameable_parameterOf (Bool.eq_false_iff.2 hblank), ?_, ?_, hr⟩
        · intro hs
          rw [hs] at hopt
          simpa [parameterOf] using hopt
        · simpa [parameterOf] using hvar
  · rintro ⟨p, qs, rfl, rfl, hp, hopt, hvar, hrest⟩
    have hu : unwrap? (tokenOf p) = some (p.optional, innerOf p) :=
      unwrap?_eq_some_iff.2 ⟨rfl, innerOf_ne_nil hp⟩
    have hself := parameterOf_innerOf hp
    have hname : (unmark? (innerOf p)).getD (innerOf p) = p.name.toList := by
      rw [← congrArg Parameter.name hself, parameterOf, String.toList_ofList]
    have hvariadic : (unmark? (innerOf p)).isSome = p.variadic := congrArg Parameter.variadic hself
    have hplace : (!p.optional && seen) = false := by
      cases hs : seen with
      | true => rw [hopt hs]; rfl
      | false => rw [Bool.and_false]
    simp only [compileTokens, hu, hname, hvariadic, hplace]
    rw [if_neg (by simp), if_neg (by simpa using hvar),
      if_neg (by simpa [isBlankText] using hp.named), hrest, String.ofList_toList]

theorem compileTokens_eq_ok_iff {seen : Bool} {ts : List (List Char)} {ps : List Parameter} :
    compileTokens seen ts = .ok ps ↔ ts = ps.map tokenOf ∧
      (seen = true → ∀ p ∈ ps, p.optional = true) ∧ Grammatical ps := by
  induction ts generalizing seen ps with
  | nil =>
    constructor
    · intro h
      cases h
      exact ⟨rfl, by simp, grammatical_nil⟩
    · rintro ⟨hts, -, -⟩
      rw [List.map_eq_nil_iff.1 hts.symm]
      rfl
  | cons token rest ih =>
    rw [compileTokens_cons_eq_ok_iff]
    constructor
    · rintro ⟨p, qs, rfl, rfl, hp, hopt, hvar, hrest⟩
      obtain ⟨rfl, hall, hqs⟩ := ih.1 hrest
      refine ⟨rfl, ?_, grammatical_cons_iff.2 ⟨hp, ?_, ?_, hqs⟩⟩
      · intro hs q hq
        rcases List.mem_cons.1 hq with rfl | hq
        · exact hopt hs
        · exact hall (by simp [hs]) q hq
      · intro hpo
        exact hall (by simp [hpo])
      · intro hv
        exact List.map_eq_nil_iff.1 (hvar hv)
    · rintro ⟨hts, hall, hps⟩
      cases ps with
      | nil => cases hts
      | cons p qs =>
        obtain ⟨rfl, rfl⟩ := List.cons.inj hts
        obtain ⟨hp, hopt, hvar, hqs⟩ := grammatical_cons_iff.1 hps
        refine ⟨p, qs, rfl, rfl, hp, fun hs => hall hs p (by simp), ?_, ih.2 ⟨rfl, ?_, hqs⟩⟩
        · intro hv
          rw [hvar hv]
          rfl
        · intro hs q hq
          rcases Bool.or_eq_true_iff.1 hs with hs | hpo
          · exact hall hs q (by simp [hq])
          · exact hopt hpo q hq

/-- **Exactly what compiles**: a pattern compiles to the parameters that its tokens declare, if
these keep the rules of the grammar. -/
theorem compile_eq_ok_iff {pattern : String} {ps : List Parameter} :
    compile pattern = .ok ps ↔ tokens pattern.toList = ps.map tokenOf ∧ Grammatical ps := by
  rw [compile, compileTokens_eq_ok_iff]
  simp

end ChatCommands.Pattern
