import ChatCommands.Proofs.Pattern.Grammar

/-!
# The round trip of patterns

Parameters written as a pattern and compiled again. Names may hold blanks, brackets, dots and any
other character, so this does not give the parameters back for every list; `Declarable` is the
condition under which it does, and also what every compiled list keeps.
-/

namespace ChatCommands.Pattern

open Text

/-- A list of parameters that a pattern declares: it keeps the grammar, and no name holds a place
where patterns are cut. -/
structure Declarable (ps : List Parameter) : Prop extends Grammatical ps where
  uncut : ∀ p ∈ ps, ¬ HasCut p.name.toList

/-- Neither the brackets of a token nor the marker are part of a cut. -/
theorem hasCut_tokenOf_iff (p : Parameter) : HasCut (tokenOf p) ↔ HasCut p.name.toList := by
  have hinner : HasCut (innerOf p) ↔ HasCut p.name.toList := by
    apply hasCut_append_iff
    cases p.variadic <;> simp [marker, opens]
  rw [← hinner, tokenOf_eq, wrap]
  cases p.optional with
  | true =>
    rw [if_pos rfl, hasCut_cons_iff (by decide), hasCut_append_iff (by simp [opens])]
  | false =>
    rw [if_neg (by simp), hasCut_cons_iff (by decide), hasCut_append_iff (by simp [opens])]

theorem bracketed_tokenOf (p : Parameter) : Bracketed (tokenOf p) := by
  rw [tokenOf_eq, wrap]
  cases p.optional with
  | true => exact ⟨⟨'[', innerOf p ++ [']'], rfl, .inl rfl⟩, ⟨']', '[' :: innerOf p, rfl, .inl rfl⟩⟩
  | false =>
    exact ⟨⟨'<', innerOf p ++ ['>'], rfl, .inr rfl⟩, ⟨'>', '<' :: innerOf p, rfl, .inr rfl⟩⟩

/-- A rendered list falls into the tokens it was made of. -/
theorem tokens_render {ps : List Parameter} (h : ∀ p ∈ ps, ¬ HasCut p.name.toList) :
    tokens (render ps).toList = ps.map tokenOf := by
  rw [render, String.toList_ofList]
  apply tokens_intercalate
  intro t ht
  obtain ⟨p, hp, rfl⟩ := List.mem_map.1 ht
  exact ⟨bracketed_tokenOf p, fun hcut => h p hp ((hasCut_tokenOf_iff p).1 hcut)⟩

theorem declarable_of_compile {pattern : String} {ps : List Parameter}
    (h : compile pattern = .ok ps) : Declarable ps := by
  obtain ⟨htokens, hps⟩ := compile_eq_ok_iff.1 h
  refine ⟨hps, fun p hp hcut => ?_⟩
  have hmem : tokenOf p ∈ tokens pattern.toList := by
    rw [htokens]
    exact List.mem_map_of_mem hp
  exact not_hasCut_of_mem_tokens hmem ((hasCut_tokenOf_iff p).2 hcut)

theorem compile_render {ps : List Parameter} (h : Declarable ps) :
    compile (render ps) = .ok ps :=
  compile_eq_ok_iff.2 ⟨tokens_render h.uncut, h.toGrammatical⟩

/-- A compiled pattern is rendered as its own tokens, one space apart. -/
theorem render_of_compile {pattern : String} {ps : List Parameter}
    (h : compile pattern = .ok ps) : render ps = " ".intercalate (split pattern) := by
  obtain ⟨htokens, -⟩ := compile_eq_ok_iff.1 h
  rw [← String.toList_inj, String.toList_intercalate, render, String.toList_ofList, split,
    List.map_map, String.toList_comp_ofList, List.map_id, htokens]
  rfl

/-- **The round trip, with its domain**: exactly the declarable lists come back from the pattern
they are rendered as. Every compiled list is one of them, and its rendering is the pattern itself
but for the blanks between tokens. -/
theorem render_round_trip :
    (∀ ps, compile (render ps) = .ok ps ↔ Declarable ps) ∧
      ∀ pattern ps, compile pattern = .ok ps →
        Declarable ps ∧ render ps = " ".intercalate (split pattern) := by
  refine ⟨fun ps => ⟨declarable_of_compile, compile_render⟩, fun pattern ps h => ?_⟩
  exact ⟨declarable_of_compile h, render_of_compile h⟩

theorem render_round_trip_spaced :
    compile " <] x>\t[a [b] \n [rest......]" = .ok [.mandatory "] x", .omissible "a [b",
      (Parameter.omissible "rest...").collecting] ∧
    Declarable [.mandatory "] x", .omissible "a [b", (Parameter.omissible "rest...").collecting] ∧
    render [.mandatory "] x", .omissible "a [b", (Parameter.omissible "rest...").collecting] =
      " ".intercalate (split " <] x>\t[a [b] \n [rest......]") := by
  have h : compile " <] x>\t[a [b] \n [rest......]" = .ok [.mandatory "] x", .omissible "a [b",
      (Parameter.omissible "rest...").collecting] := by decide
  exact ⟨h, render_round_trip.2 _ _ h⟩

end ChatCommands.Pattern
