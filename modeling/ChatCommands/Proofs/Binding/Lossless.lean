import ChatCommands.Binding
import ChatCommands.Proofs.Text.Words

/-!
# Nothing is lost in a binding

Whatever the parameters are, a text that binds is shared out among the first of them in order, and
nothing but blanks is left out (`Bound`). No grammar is needed for this: a variadic parameter may
stand anywhere, and required ones may follow optional ones.

`bindFrom` goes down the list of the parameters that are left. The same walk can be made with a
position in the list of all parameters (`bindAt?`), where a parameter is looked up by its position
and might not be there. It always is: `bindAt?_eq`.
-/

namespace ChatCommands.Binding

open Text

/-! ## Texts without their blanks -/

/-- The characters of a text that are not blank. -/
def solid (cs : List Char) : List Char :=
  cs.filter fun c => !isBlank c

theorem solid_append (cs ds : List Char) : solid (cs ++ ds) = solid cs ++ solid ds :=
  List.filter_append cs ds

theorem solid_of_blank {cs : List Char} (h : isBlankText cs = true) : solid cs = [] := by
  rw [solid, List.filter_eq_nil_iff]
  intro c hc
  simp [List.all_eq_true.1 h c hc]

theorem solid_trimStart (cs : List Char) : solid (trimStart cs) = solid cs := by
  obtain ⟨lead, hlead, hcs⟩ := exists_trimStart cs
  conv => rhs; rw [hcs, solid_append, solid_of_blank hlead, List.nil_append]

theorem solid_trimEnd (cs : List Char) : solid (trimEnd cs) = solid cs := by
  obtain ⟨trail, htrail, hcs⟩ := exists_trimEnd cs
  conv => rhs; rw [hcs, solid_append, solid_of_blank htrail, List.append_nil]

/-! ## What is bound -/

/-- A value that is there and has no blanks at its ends. -/
structure Tight (value : List Char) : Prop where
  present : value ≠ []
  start : NoLeadingBlank value
  stop : NoTrailingBlank value

/-- The arguments are the text, shared out among the first of the parameters. -/
structure Bound (ps : List Parameter) (text : List Char) (args : Binding) : Prop where
  leading : args.map Argument.parameter <+: ps
  tight : ∀ a ∈ args, Tight a.value.toList
  /-- Only a variadic parameter is given blanks. -/
  oneWord : ∀ a ∈ args, a.parameter.variadic = false → ∀ c ∈ a.value.toList, isBlank c = false
  variadicLast : ∀ a ∈ args.dropLast, a.parameter.variadic = false
  complete : solid (args.flatMap fun a => a.value.toList) = solid text

variable {p : Parameter} {ps : List Parameter} {text : List Char} {args : Binding}

/-- Without blanks before it, a text starts with a word. -/
theorem tight_word (h : trimStart text ≠ []) : Tight (word (trimStart text)) := by
  obtain ⟨c, cs, hcs⟩ := List.exists_cons_of_ne_nil h
  have hblank : ∀ d ∈ word (trimStart text), isBlank d = false := fun d => isBlank_of_mem_word
  refine ⟨?_, fun d hd => hblank d (List.mem_of_mem_head? hd),
    fun d hd => hblank d (List.mem_of_getLast? hd)⟩
  rw [hcs]
  exact word_ne_nil (not_blank_of_trimStart hcs) cs

theorem tight_trimEnd (h : trimStart text ≠ []) : Tight (trimEnd (trimStart text)) := by
  refine ⟨?_, noLeadingBlank_trim text, noTrailingBlank_trim text⟩
  obtain ⟨c, cs, hcs⟩ := List.exists_cons_of_ne_nil h
  intro hnil
  have hall : isBlankText text = true := trim_eq_nil_iff.1 hnil
  have hc : c ∈ text := (trimStart_suffix text).subset (by rw [hcs]; exact List.mem_cons_self)
  have hblank := not_blank_of_trimStart hcs
  rw [List.all_eq_true.1 hall c hc] at hblank
  cases hblank

theorem bound_nil (h : trimStart text = []) : Bound ps text [] := by
  refine ⟨by simp, by simp, by simp, by simp, ?_⟩
  rw [← solid_trimStart text, h]
  rfl

/-- A variadic parameter takes all that is left. -/
theorem bound_variadic (hp : p.variadic = true) (h : trimStart text ≠ []) :
    Bound (p :: ps) text [⟨p, String.ofList (trimEnd (trimStart text))⟩] := by
  refine ⟨by simp, ?_, ?_, by simp, ?_⟩
  · simpa using tight_trimEnd h
  · simp [hp]
  · simp [solid_trimEnd, solid_trimStart]

/-- Any other parameter takes a word, and the others what is left after it. -/
theorem Bound.cons (hp : p.variadic = false) (h : trimStart text ≠ [])
    (hrest : Bound ps (afterWord (trimStart text)) args) :
    Bound (p :: ps) text (⟨p, String.ofList (word (trimStart text))⟩ :: args) := by
  refine ⟨?_, ?_, ?_, ?_, ?_⟩
  · exact List.cons_prefix_cons.2 ⟨rfl, hrest.leading⟩
  · refine List.forall_mem_cons.2 ⟨?_, hrest.tight⟩
    simpa using tight_word h
  · refine List.forall_mem_cons.2 ⟨fun _ c hc => ?_, hrest.oneWord⟩
    rw [String.toList_ofList] at hc
    exact isBlank_of_mem_word hc
  · intro a ha
    cases args with
    | nil => cases ha
    | cons b args =>
      rcases List.mem_cons.1 ha with rfl | ha
      · exact hp
      · exact hrest.variadicLast a ha
  · rw [List.flatMap_cons, solid_append, hrest.complete, String.toList_ofList, ← solid_append,
      word_append_afterWord, solid_trimStart]

/-- **What is bound is the text**: induction along the walk, which has four ways to succeed. -/
theorem bound_of_bindFrom {mayBeEmpty satisfied : Bool}
    (h : bindFrom mayBeEmpty satisfied ps text = .ok args) : Bound ps text args := by
  fun_induction bindFrom mayBeEmpty satisfied ps text generalizing args with
  | case1 | case3 | case5 | case7 | case9 | case10 => cases h
  | case2 _ text _ hnone =>
    cases h
    exact bound_nil (by simpa using hnone)
  | case4 _ text _ p rest hnone =>
    cases h
    exact bound_nil (by simpa using hnone)
  | case6 _ text _ p rest hsome _ hp =>
    cases h
    exact bound_variadic hp (by simpa using hsome)
  | case8 _ text left p rest hsome _ hp hlast =>
    cases h
    have hafter : afterWord left = [] := by simpa using hlast
    have hrest : Bound rest (afterWord left) [] := bound_nil (by rw [hafter]; rfl)
    have hbound := hrest.cons (by simpa using hp) (by simpa using hsome)
    rwa [word_eq_self_of_afterWord hafter] at hbound
  | case11 _ text _ p rest hsome _ hp _ arguments hrest =>
    rename_i ih
    cases h
    exact (ih hrest).cons (by simpa using hp) (by simpa using hsome)

/-! ## The walk by positions -/

/-- Whether the arguments may end with the parameter at a position. The parameter after it is looked
up unless there is none, or it makes no difference. -/
def mayEndAt? (ps : List Parameter) (i : Nat) (p : Parameter) : Option Bool :=
  if p.optional || ps.length ≤ i + 1 then some true else ps[i + 1]?.map Parameter.optional

/-- The arguments that a text gives to the parameters from a position on, or nothing if a parameter
is looked up that is not there. -/
def bindAt? (mayBeEmpty satisfied : Bool) (ps : List Parameter) (i : Nat) (text : List Char) :
    Option (Except BindingError Binding) :=
  let text := trimStart text
  if ps.length ≤ i ∧ text ≠ [] then some (.error .tooManyArguments)
  else if text = [] then
    some (if satisfied || mayBeEmpty then .ok [] else .error .tooFewArguments)
  else match found : ps[i]? with
    | none => none
    | some p => (mayEndAt? ps i p).bind fun ends =>
      let satisfied := satisfied || ends
      if p.variadic then
        some (if satisfied || mayBeEmpty then .ok [⟨p, String.ofList (trimEnd text)⟩]
          else .error .tooFewArguments)
      else if afterWord text = [] then
        some (if satisfied then .ok [⟨p, String.ofList text⟩] else .error .tooFewArguments)
      else (bindAt? mayBeEmpty satisfied ps (i + 1) (afterWord text)).map
        (Except.map (⟨p, String.ofList (word text)⟩ :: ·))
termination_by ps.length - i
decreasing_by
  have hi := (List.getElem?_eq_some_iff.1 found).1
  omega

theorem mayEndAt?_eq {i : Nat} {rest : List Parameter} (h : ps.drop i = p :: rest) :
    mayEndAt? ps i p = some (mayEnd p rest) := by
  have hnext : ps[i + 1]? = rest.head? := by
    rw [← List.head?_drop, ← List.tail_drop, h, List.tail_cons]
  rw [mayEndAt?, mayEnd, hnext]
  cases rest with
  | nil =>
    have hend : ps.length ≤ i + 1 := by
      rw [← List.drop_eq_nil_iff, ← List.tail_drop, h, List.tail_cons]
    simp [hend]
  | cons q rest =>
    have hmore : ¬ ps.length ≤ i + 1 := by
      rw [← List.drop_eq_nil_iff, ← List.tail_drop, h, List.tail_cons]
      exact List.cons_ne_nil q rest
    cases p.optional <;> simp [hmore]

/-- **No parameter is looked up that is not there**, and the walk by positions binds the same:
induction along the parameters that are left. -/
theorem bindAt?_eq {mayBeEmpty satisfied : Bool} {i : Nat} {rest : List Parameter}
    (h : ps.drop i = rest) :
    bindAt? mayBeEmpty satisfied ps i text = some (bindFrom mayBeEmpty satisfied rest text) := by
  induction rest generalizing satisfied i text with
  | nil =>
    have hend : ps.length ≤ i := List.drop_eq_nil_iff.1 h
    rw [bindAt?, bindFrom]
    simp only [hend, true_and]
    by_cases hnil : trimStart text = [] <;> simp [hnil]
  | cons p rest ih =>
    have hfound : ps[i]? = some p := by rw [← List.head?_drop, h, List.head?_cons]
    have hmore : ¬ ps.length ≤ i := by
      rw [← List.drop_eq_nil_iff, h]
      exact List.cons_ne_nil p rest
    have hrest : ps.drop (i + 1) = rest := by rw [← List.tail_drop, h, List.tail_cons]
    rw [bindAt?, bindFrom]
    simp only [hmore, false_and, if_false, List.isEmpty_iff]
    by_cases hnil : trimStart text = []
    · rw [if_pos hnil, if_pos hnil]
    rw [if_neg hnil, if_neg hnil]
    split
    · next hnone =>
      rw [hfound] at hnone
      cases hnone
    · next q hq =>
      obtain rfl : q = p := Option.some.inj (hq.symm.trans hfound)
      rw [mayEndAt?_eq h]
      simp only [Option.bind_some, ih hrest, Option.map_some]
      split
      · rfl
      split
      · rfl
      · cases bindFrom mayBeEmpty (satisfied || mayEnd q rest) rest (afterWord (trimStart text)) <;>
          rfl

/-- **Binding is lossless**, whatever the parameters are. No parameter is looked up that is not
there, and what is bound is the text, shared out among the first of the parameters: each value is
tight, only a variadic parameter is given blanks and only the last that is bound is variadic, and
the values in order have the characters of the text that are not blank. -/
theorem binding_lossless (ps : List Parameter) (text : String) (implicitFirst : Bool) :
    bindAt? (implicitFirst || ps.head?.all Parameter.optional) false ps 0 text.toList =
      some (ofText ps text implicitFirst) ∧
    ∀ args, ofText ps text implicitFirst = .ok args → Bound ps text.toList args :=
  ⟨bindAt?_eq List.drop_zero, fun _ => bound_of_bindFrom⟩

/-- Parameters that no pattern declares. -/
theorem binding_lossless_unordered :
    let ps : List Parameter :=
      [.omissible "a", .mandatory "b", (Parameter.mandatory "c").collecting, .mandatory "d"]
    let args : Binding := [⟨.omissible "a", "x"⟩, ⟨.mandatory "b", "y"⟩,
      ⟨(Parameter.mandatory "c").collecting, "z  w"⟩]
    ofText ps " x\ty z  w\n" false = .ok args ∧ Bound ps " x\ty z  w\n".toList args := by
  intro ps args
  have bound : ofText ps " x\ty z  w\n" false = .ok args := by decide
  exact ⟨bound, (binding_lossless ps " x\ty z  w\n" false).2 args bound⟩

end ChatCommands.Binding
