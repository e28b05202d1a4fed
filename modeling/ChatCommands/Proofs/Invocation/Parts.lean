import ChatCommands.Invocation
import ChatCommands.Proofs.Text.Words

/-!
# The parts of an invocation

A text is an invocation exactly if a key follows the first sigil or mention that it starts with, and
then it falls into the sigil, the key and the remainder in one way only
(`Invocation.read_by_parts`).
Nothing of the text is lost but blanks (`Invocation.Parts`).
-/

namespace ChatCommands

open Text

namespace Invocation

/-! ## Sigils -/

/-- The first of several texts that a text starts with, the empty ones left out. -/
def FirstOf (candidates : List String) (text : List Char) (sigil : String) : Prop :=
  ∃ before after, candidates = before ++ sigil :: after ∧ sigil ≠ "" ∧ sigil.toList <+: text ∧
    ∀ s ∈ before, s ≠ "" → ¬ s.toList <+: text

theorem firstOf_cons_iff {candidates : List String} {text : List Char} {s sigil : String} :
    FirstOf (s :: candidates) text sigil ↔
      (s ≠ "" ∧ s.toList <+: text) ∧ sigil = s ∨
        ¬ (s ≠ "" ∧ s.toList <+: text) ∧ FirstOf candidates text sigil := by
  constructor
  · rintro ⟨before, after, hsplit, hne, hstart, hbefore⟩
    cases before with
    | nil =>
      obtain ⟨rfl, -⟩ := List.cons_eq_cons.1 hsplit
      exact Or.inl ⟨⟨hne, hstart⟩, rfl⟩
    | cons first before =>
      obtain ⟨rfl, rfl⟩ := List.cons_eq_cons.1 hsplit
      have hfirst := hbefore s List.mem_cons_self
      refine Or.inr ⟨fun h => hfirst h.1 h.2, before, after, rfl, hne, hstart, ?_⟩
      intro t ht
      exact hbefore t (List.mem_cons_of_mem _ ht)
  · rintro (⟨⟨hne, hstart⟩, rfl⟩ | ⟨hskip, before, after, rfl, hne, hstart, hbefore⟩)
    · exact ⟨[], candidates, rfl, hne, hstart, by simp⟩
    · refine ⟨s :: before, after, rfl, hne, hstart, ?_⟩
      intro t ht hnonempty hprefix
      rcases List.mem_cons.1 ht with rfl | ht
      · exact hskip ⟨hnonempty, hprefix⟩
      · exact hbefore t ht hnonempty hprefix

variable {text rest : List Char} {sigils : List String} {mentions : Mentions} {sigil : String}

/-- What introduces a command is the first candidate that fits: induction on the candidates. -/
theorem introduced?_eq_some_iff {candidates : List String} :
    introduced? text (candidates.filter (!·.isEmpty)) = some (sigil, rest) ↔
      FirstOf candidates text sigil ∧ text = sigil.toList ++ rest := by
  induction candidates with
  | nil => simp [introduced?, FirstOf]
  | cons s candidates ih =>
    rw [firstOf_cons_iff]
    by_cases hempty : s = ""
    · rw [List.filter_cons_of_neg (by simp [hempty]), ih]
      simp [hempty]
    rw [List.filter_cons_of_pos (by simpa using hempty), introduced?]
    cases hafter : after? s.toList text with
    | none =>
      simp only [ih, after?_eq_none_iff.1 hafter, and_false, false_and, false_or,
        not_false_eq_true, true_and]
    | some after =>
      obtain rfl := after?_eq_some_iff.1 hafter
      have hfits : s ≠ "" ∧ s.toList <+: s.toList ++ after := ⟨hempty, List.prefix_append _ _⟩
      constructor
      · rintro ⟨⟩
        exact ⟨Or.inl ⟨hfits, rfl⟩, rfl⟩
      · rintro ⟨⟨-, rfl⟩ | ⟨hmiss, -⟩, hrest⟩
        · rw [List.append_cancel_left hrest]
        · exact absurd hfits hmiss

theorem introduced?_eq_none_iff {candidates : List String} :
    introduced? text (candidates.filter (!·.isEmpty)) = none ↔
      ∀ s ∈ candidates, s ≠ "" → ¬ s.toList <+: text := by
  induction candidates with
  | nil => simp [introduced?]
  | cons s candidates ih =>
    by_cases hempty : s = ""
    · rw [List.filter_cons_of_neg (by simp [hempty]), ih]
      simp [hempty]
    rw [List.filter_cons_of_pos (by simpa using hempty), introduced?]
    cases hafter : after? s.toList text with
    | none => simp [ih, after?_eq_none_iff.1 hafter]
    | some after =>
      obtain rfl := after?_eq_some_iff.1 hafter
      simp [hempty]

/-! ## Key and remainder -/

/-- What follows a sigil, in its parts: a word, and a remainder that neither starts nor ends with a
blank. Before, between and after them stand blanks, and there is one before a remainder unless that
is empty. -/
structure Parts (rest word remainder lead gap trail : List Char) : Prop where
  text_eq : rest = lead ++ (word ++ (gap ++ (remainder ++ trail)))
  leadBlank : isBlankText lead = true
  gapBlank : isBlankText gap = true
  trailBlank : isBlankText trail = true
  word_ne_nil : word ≠ []
  wordUnbroken : ∀ c ∈ word, isBlank c = false
  start : NoLeadingBlank remainder
  stop : NoTrailingBlank remainder
  apart : remainder ≠ [] → gap ≠ []

/-- There is only one way to fall into parts: the word and the remainder are those that are read. -/
theorem Parts.unique {rest word remainder lead gap trail : List Char}
    (h : Parts rest word remainder lead gap trail) :
    trim rest ≠ [] ∧ Text.word (trim rest) = word ∧
      trimStart (afterWord (trim rest)) = remainder := by
  have hstart : NoLeadingBlank word := fun c hc => h.wordUnbroken c (List.mem_of_mem_head? hc)
  have hstop : NoTrailingBlank word := fun c hc => h.wordUnbroken c (List.mem_of_getLast? hc)
  have htrim : trim rest = word ++ trimEnd (gap ++ remainder) := by
    rw [h.text_eq, trim, trimStart_append h.leadBlank, (hstart.append h.word_ne_nil _).trimStart_eq,
      hstop.trimEnd_append, ← List.append_assoc gap, trimEnd_append h.trailBlank]
  have hafter : ∃ gap', isBlankText gap' = true ∧ trimEnd (gap ++ remainder) = gap' ++ remainder ∧
      ∀ c ∈ (gap' ++ remainder).head?, isBlank c = true := by
    by_cases hremainder : remainder = []
    · subst hremainder
      refine ⟨[], rfl, ?_, by simp⟩
      rw [List.append_nil, ← List.nil_append gap, trimEnd_append h.gapBlank]
      rfl
    · refine ⟨gap, h.gapBlank, (h.stop.append hremainder gap).trimEnd_eq, ?_⟩
      intro c hc
      rw [List.head?_append_of_ne_nil gap (h.apart hremainder)] at hc
      exact List.all_eq_true.1 h.gapBlank c (List.mem_of_mem_head? hc)
  obtain ⟨gap', hblank, hgap', hhead⟩ := hafter
  rw [htrim, hgap']
  refine ⟨List.append_ne_nil_of_left_ne_nil h.word_ne_nil _, word_append h.wordUnbroken hhead, ?_⟩
  rw [afterWord_append h.wordUnbroken hhead, trimStart_append hblank, h.start.trimStart_eq]

/-- What is not all blank falls into parts. -/
theorem exists_parts {rest : List Char} (h : trim rest ≠ []) : ∃ lead gap trail,
    Parts rest (word (trim rest)) (trimStart (afterWord (trim rest))) lead gap trail := by
  obtain ⟨lead, trail, hlead, htrail, hrest⟩ := exists_trim rest
  obtain ⟨gap, hgap, hafter⟩ := exists_trimStart (afterWord (trim rest))
  refine ⟨lead, gap, trail, ?_, hlead, hgap, htrail, ?_, fun c => isBlank_of_mem_word,
    noLeadingBlank_trimStart _, ?_, ?_⟩
  · conv => lhs; rw [hrest, ← word_append_afterWord (trim rest), hafter]
    simp only [List.append_assoc]
  · obtain ⟨c, cs, hcs⟩ := List.exists_cons_of_ne_nil h
    have hc : isBlank c = false := noLeadingBlank_trim rest c (by rw [hcs]; rfl)
    rw [hcs]
    exact word_ne_nil hc cs
  · exact (noTrailingBlank_trim rest).suffix ((trimStart_suffix _).trans (afterWord_suffix _))
  · rintro hremainder rfl
    -- without a gap, the text after the word would start with the remainder
    obtain ⟨c, cs, hcs⟩ := List.exists_cons_of_ne_nil hremainder
    rw [List.nil_append, hcs] at hafter
    have hblank := isBlank_of_afterWord hafter
    rw [not_blank_of_trimStart hcs] at hblank
    cases hblank

/-! ## Reading -/

/-- What is read of an invocation comes from what follows its sigil, without the blanks at the
ends. -/
theorem ofText?_eq_some_iff {text : String} {invocation : Invocation} :
    ofText? text sigils mentions = some invocation ↔
      ∃ rest, introduced? text.toList (introductions sigils mentions) =
          some (invocation.sigil, rest) ∧
        trim rest ≠ [] ∧ invocation.key.toList = lower (word (trim rest)) ∧
        invocation.remainder.toList = trimStart (afterWord (trim rest)) := by
  rw [ofText?]
  cases introduced? text.toList (introductions sigils mentions) with
  | none => simp
  | some found =>
    obtain ⟨sigil, rest⟩ := found
    obtain ⟨sigil', key, remainder⟩ := invocation
    simp only [Option.some.injEq, Prod.mk.injEq]
    constructor
    · intro h
      split at h
      · cases h
      next hrest =>
      cases h
      rw [List.isEmpty_iff] at hrest
      exact ⟨rest, ⟨rfl, rfl⟩, hrest, String.toList_ofList, String.toList_ofList⟩
    · rintro ⟨_, ⟨rfl, rfl⟩, hrest, hkey, hremainder⟩
      rw [if_neg (by rwa [List.isEmpty_iff]), ← hkey, ← hremainder, String.ofList_toList,
        String.ofList_toList]

theorem ofText?_eq_none_iff {text : String} :
    ofText? text sigils mentions = none ↔
      introduced? text.toList (introductions sigils mentions) = none ∨
        ∃ sigil rest, introduced? text.toList (introductions sigils mentions) =
          some (sigil, rest) ∧ trim rest = [] := by
  rw [ofText?]
  cases introduced? text.toList (introductions sigils mentions) with
  | none => simp
  | some found => simp [Prod.ext_iff, and_assoc]

/-- **Reading, exactly.** A text is an invocation if a key follows the first sigil or mention that
it starts with, and then of these parts and no others. It is none if it starts with no sigil and no
mention, or if only blanks follow the first, whatever the others are. -/
theorem read_by_parts (text : String) (sigils : List String) (mentions : Mentions) :
    (∀ invocation : Invocation, ofText? text sigils mentions = some invocation ↔
      FirstOf (sigils ++ [mentions.nickname, mentions.plain]) text.toList invocation.sigil ∧
      ∃ rest word lead gap trail, text.toList = invocation.sigil.toList ++ rest ∧
        Parts rest word invocation.remainder.toList lead gap trail ∧
        invocation.key.toList = lower word) ∧
    (ofText? text sigils mentions = none ↔
      (∀ s ∈ sigils ++ [mentions.nickname, mentions.plain], s ≠ "" → ¬ s.toList <+: text.toList) ∨
      ∃ sigil rest, FirstOf (sigils ++ [mentions.nickname, mentions.plain]) text.toList sigil ∧
        text.toList = sigil.toList ++ rest ∧ isBlankText rest = true) := by
  refine ⟨fun invocation => ?_, ?_⟩
  · rw [ofText?_eq_some_iff, introductions]
    constructor
    · rintro ⟨rest, hsigil, hrest, hkey, hremainder⟩
      obtain ⟨hfirst, htext⟩ := introduced?_eq_some_iff.1 hsigil
      obtain ⟨lead, gap, trail, hparts⟩ := exists_parts hrest
      rw [← hremainder] at hparts
      exact ⟨hfirst, rest, _, lead, gap, trail, htext, hparts, hkey⟩
    · rintro ⟨hfirst, rest, word, lead, gap, trail, htext, hparts, hkey⟩
      obtain ⟨hrest, rfl, hremainder⟩ := hparts.unique
      exact ⟨rest, introduced?_eq_some_iff.2 ⟨hfirst, htext⟩, hrest, hkey, hremainder.symm⟩
  · rw [ofText?_eq_none_iff, introductions, introduced?_eq_none_iff]
    simp only [introduced?_eq_some_iff, trim_eq_nil_iff, and_assoc]

/-- A longer sigil that is never reached, and one that only blanks follow. -/
example : (ofText? "!!ping" ["!", "!!"] (.ofUser 9)).map Invocation.key = some "!ping" ∧
    ofText? "!  " ["!", "!  "] (.ofUser 9) = none := by
  decide +kernel

end Invocation

end ChatCommands
