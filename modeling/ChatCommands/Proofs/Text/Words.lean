import ChatCommands.Text.Blank
import Mathlib.Data.List.Basic
import Mathlib.Data.List.DropRight
import Mathlib.Data.List.TakeWhile

/-!
# Words of a text

The words of a text are its maximal runs of characters that are not blank: `words`. A reader that
skips blanks, takes a word and goes on with what is left meets them one after the other
(`words_of_trimStart_ne_nil`), and `fromWord` is where it stands before a given one: at the part of
the text that starts with this word and holds it and all words after it.

Texts that end in a word (`NoTrailingBlank`) are those in which nothing but the last word is left
once a word has no blank after it. A text that is put together from blanks and words comes apart
again where it was joined: `trimStart_append`, `trim_append`, `word_append` and `afterWord_append`.
-/

namespace ChatCommands.Text

/-! ## Blanks at the ends -/

theorem trimStart_of_blank {c : Char} (h : isBlank c = true) (cs : List Char) :
    trimStart (c :: cs) = trimStart cs :=
  List.dropWhile_cons_of_pos h

theorem trimStart_of_not_blank {c : Char} (h : isBlank c = false) (cs : List Char) :
    trimStart (c :: cs) = c :: cs :=
  List.dropWhile_cons_of_neg (by simp [h])

theorem trimEnd_concat_of_not_blank {c : Char} (h : isBlank c = false) (cs : List Char) :
    trimEnd (cs ++ [c]) = cs ++ [c] := by
  rw [trimEnd, List.reverse_concat, List.dropWhile_cons_of_neg (by simp [h]), List.reverse_cons,
    List.reverse_reverse]

theorem trimStart_suffix (cs : List Char) : trimStart cs <:+ cs :=
  List.dropWhile_suffix _

theorem afterWord_suffix (cs : List Char) : afterWord cs <:+ cs :=
  List.dropWhile_suffix _

/-- Skipping blanks stops at a character that is not blank. -/
theorem not_blank_of_trimStart {cs ds : List Char} {c : Char} (h : trimStart cs = c :: ds) :
    isBlank c = false := by
  have hhead := List.head?_dropWhile_not isBlank cs
  rw [← trimStart, h] at hhead
  simpa using hhead

/-- Skipping blanks leaves what is not blank. -/
theorem trimStart_ne_nil {cs : List Char} {c : Char} (hc : c ∈ cs) (h : isBlank c = false) :
    trimStart cs ≠ [] := by
  intro hnil
  rw [List.dropWhile_eq_nil_iff.1 hnil c hc] at h
  cases h

/-- A text that does not end in a blank. -/
def NoTrailingBlank (cs : List Char) : Prop :=
  ∀ c ∈ cs.getLast?, isBlank c = false

instance (cs : List Char) : Decidable (NoTrailingBlank cs) :=
  decidable_of_iff (cs.getLast?.all fun c => !isBlank c) (by
    rw [NoTrailingBlank]
    cases cs.getLast? <;> simp)

theorem NoTrailingBlank.suffix {cs ds : List Char} (h : NoTrailingBlank cs) (hsub : ds <:+ cs) :
    NoTrailingBlank ds := by
  obtain ⟨before, rfl⟩ := hsub
  intro c hc
  apply h c
  rw [List.getLast?_append]
  simp only [Option.mem_def] at hc ⊢
  rw [hc, Option.some_or]

theorem NoTrailingBlank.trimEnd_eq {cs : List Char} (h : NoTrailingBlank cs) :
    trimEnd cs = cs := by
  rcases List.eq_nil_or_concat' cs with rfl | ⟨before, c, rfl⟩
  · rfl
  · exact trimEnd_concat_of_not_blank (h c (by simp)) before

theorem noTrailingBlank_trimEnd (cs : List Char) : NoTrailingBlank (trimEnd cs) := by
  intro c hc
  rw [trimEnd, List.getLast?_reverse] at hc
  cases hd : cs.reverse.dropWhile isBlank with
  | nil => simp [hd] at hc
  | cons d ds =>
    obtain rfl : d = c := by simpa [hd] using hc
    exact not_blank_of_trimStart hd

theorem isPrefix_trimEnd (cs : List Char) : trimEnd cs <+: cs :=
  List.rdropWhile_prefix isBlank cs

/-- A text that does not start with a blank. -/
def NoLeadingBlank (cs : List Char) : Prop :=
  ∀ c ∈ cs.head?, isBlank c = false

instance (cs : List Char) : Decidable (NoLeadingBlank cs) :=
  decidable_of_iff (cs.head?.all fun c => !isBlank c) (by
    rw [NoLeadingBlank]
    cases cs.head? <;> simp)

theorem NoLeadingBlank.trimStart_eq {cs : List Char} (h : NoLeadingBlank cs) :
    trimStart cs = cs := by
  cases cs with
  | nil => rfl
  | cons c cs => exact trimStart_of_not_blank (h c rfl) cs

theorem noLeadingBlank_trimStart (cs : List Char) : NoLeadingBlank (trimStart cs) := by
  intro c hc
  cases hd : trimStart cs with
  | nil => simp [hd] at hc
  | cons d ds =>
    obtain rfl : d = c := by simpa [hd] using hc
    exact not_blank_of_trimStart hd

theorem NoLeadingBlank.isPrefix {cs ds : List Char} (h : NoLeadingBlank cs) (hsub : ds <+: cs) :
    NoLeadingBlank ds := by
  intro c hc
  have hc' : [c] <+: cs := (List.singleton_prefix_iff_head?_eq_some.2 hc).trans hsub
  exact h c (List.singleton_prefix_iff_head?_eq_some.1 hc')

theorem noLeadingBlank_trim (cs : List Char) : NoLeadingBlank (trim cs) :=
  (noLeadingBlank_trimStart cs).isPrefix (isPrefix_trimEnd _)

theorem noTrailingBlank_trim (cs : List Char) : NoTrailingBlank (trim cs) :=
  noTrailingBlank_trimEnd _

/-! ## What is taken away -/

/-- What trimming takes away is blank. -/
theorem exists_trimStart (cs : List Char) :
    ∃ lead, isBlankText lead = true ∧ cs = lead ++ trimStart cs :=
  ⟨cs.takeWhile isBlank, List.all_takeWhile, List.takeWhile_append_dropWhile.symm⟩

theorem exists_trimEnd (cs : List Char) :
    ∃ trail, isBlankText trail = true ∧ cs = trimEnd cs ++ trail := by
  obtain ⟨lead, hlead, hcs⟩ := exists_trimStart cs.reverse
  refine ⟨lead.reverse, by rwa [isBlankText, List.all_reverse], ?_⟩
  rw [trimEnd, ← trimStart, ← List.reverse_append, ← hcs, List.reverse_reverse]

theorem exists_trim (cs : List Char) : ∃ lead trail,
    isBlankText lead = true ∧ isBlankText trail = true ∧ cs = lead ++ (trim cs ++ trail) := by
  obtain ⟨lead, hlead, hstart⟩ := exists_trimStart cs
  obtain ⟨trail, htrail, hend⟩ := exists_trimEnd (trimStart cs)
  refine ⟨lead, trail, hlead, htrail, ?_⟩
  rw [trim, ← hend, ← hstart]

theorem after?_eq_none_iff {lead text : List Char} : after? lead text = none ↔ ¬ lead <+: text := by
  rw [Option.eq_none_iff_forall_ne_some]
  constructor
  · rintro h ⟨rest, hrest⟩
    exact h rest (after?_eq_some_iff.2 hrest.symm)
  · intro h rest hrest
    exact h ⟨rest, (after?_eq_some_iff.1 hrest).symm⟩

/-! ## Texts that are put together -/

theorem NoLeadingBlank.append {cs : List Char} (h : NoLeadingBlank cs) (hne : cs ≠ [])
    (ds : List Char) : NoLeadingBlank (cs ++ ds) := by
  intro c hc
  apply h c
  rwa [List.head?_append_of_ne_nil cs hne] at hc

theorem NoTrailingBlank.append {ds : List Char} (h : NoTrailingBlank ds) (hne : ds ≠ [])
    (cs : List Char) : NoTrailingBlank (cs ++ ds) := by
  intro c hc
  apply h c
  rwa [List.getLast?_append_of_ne_nil cs hne] at hc

/-- Blanks before a text are skipped. -/
theorem trimStart_append {gap : List Char} (h : isBlankText gap = true) (cs : List Char) :
    trimStart (gap ++ cs) = trimStart cs :=
  List.dropWhile_append_of_pos (List.all_eq_true.1 h)

theorem trimEnd_append {gap : List Char} (h : isBlankText gap = true) (cs : List Char) :
    trimEnd (cs ++ gap) = trimEnd cs := by
  rw [trimEnd, List.reverse_append, List.dropWhile_append_of_pos, trimEnd]
  intro c hc
  exact List.all_eq_true.1 h c (List.mem_reverse.1 hc)

/-- After a text that ends in no blank, trailing blanks are those of what follows it. -/
theorem NoTrailingBlank.trimEnd_append {cs : List Char} (h : NoTrailingBlank cs) (ds : List Char) :
    trimEnd (cs ++ ds) = cs ++ trimEnd ds := by
  rw [trimEnd, List.reverse_append, List.dropWhile_append]
  split
  · next hnone =>
    have hself := h.trimEnd_eq
    rw [trimEnd] at hself
    rw [hself, trimEnd, List.isEmpty_iff.1 hnone, List.reverse_nil, List.append_nil]
  · rw [List.reverse_append, List.reverse_reverse, trimEnd]

theorem trim_trimStart (cs : List Char) : trim (trimStart cs) = trim cs := by
  rw [trim, trim, trimStart, trimStart, List.dropWhile_idempotent]

theorem trim_trim (cs : List Char) : trim (trim cs) = trim cs := by
  conv => lhs; rw [trim]
  rw [(noLeadingBlank_trim cs).trimStart_eq, (noTrailingBlank_trim cs).trimEnd_eq]

/-- Blanks after a text do not count when both its ends are trimmed. -/
theorem trim_append {gap : List Char} (h : isBlankText gap = true) (cs : List Char) :
    trim (cs ++ gap) = trim cs := by
  rw [trim, trim, trimStart, List.dropWhile_append]
  split
  · next hnone =>
    -- the text is blank, and so is all of it together
    have hgap : gap.dropWhile isBlank = [] := List.dropWhile_eq_nil_iff.2 (List.all_eq_true.1 h)
    rw [hgap, trimStart, List.isEmpty_iff.1 hnone]
  · exact trimEnd_append h _

/-- A text of blanks alone is all trimmed away. -/
theorem trim_eq_nil_iff {cs : List Char} : trim cs = [] ↔ isBlankText cs = true := by
  constructor
  · intro h
    rw [trim, trimEnd, List.reverse_eq_nil_iff, List.dropWhile_eq_nil_iff] at h
    cases ht : trimStart cs with
    | nil => exact List.all_eq_true.2 (List.dropWhile_eq_nil_iff.1 ht)
    | cons c ds =>
      have hc := h c (List.mem_reverse.2 (by rw [ht]; exact List.mem_cons_self))
      rw [not_blank_of_trimStart ht] at hc
      cases hc
  · intro h
    rw [trim, trimStart, List.dropWhile_eq_nil_iff.2 (List.all_eq_true.1 h)]
    rfl

/-! ## Words -/

/-- The words of a text in order: what is left between its blanks. -/
def words (cs : List Char) : List (List Char) :=
  (cs.splitOnP isBlank).filter fun w => !w.isEmpty

/-- What is left of a text before its word number `i`, counted from zero, is read. -/
def fromWord : (i : Nat) → List Char → List Char
  | 0, cs => trimStart cs
  | i + 1, cs => fromWord i (afterWord (trimStart cs))

theorem words_nil : words [] = [] := rfl

theorem words_cons_of_blank {c : Char} (h : isBlank c = true) (cs : List Char) :
    words (c :: cs) = words cs := by
  rw [words, List.splitOnP_cons_eq_if_modifyHead, if_pos h]
  rfl

theorem words_trimStart (cs : List Char) : words (trimStart cs) = words cs := by
  induction cs with
  | nil => rfl
  | cons c cs ih =>
    cases hc : isBlank c with
    | true => rw [trimStart_of_blank hc, words_cons_of_blank hc, ih]
    | false => rw [trimStart_of_not_blank hc]

theorem isBlank_of_mem_word {cs : List Char} {c : Char} (h : c ∈ word cs) : isBlank c = false := by
  simpa using List.all_eq_true.1 List.all_takeWhile c h

/-- A word ends at a blank. -/
theorem isBlank_of_afterWord {cs ds : List Char} {c : Char} (h : afterWord cs = c :: ds) :
    isBlank c = true := by
  have hhead := List.head?_dropWhile_not (fun x => !isBlank x) cs
  rw [← afterWord, h] at hhead
  simpa using hhead

theorem word_ne_nil {c : Char} (h : isBlank c = false) (cs : List Char) : word (c :: cs) ≠ [] := by
  rw [word, List.takeWhile_cons_of_pos (by simp [h])]
  exact List.cons_ne_nil _ _

/-- A word that is followed by a blank or by nothing is read as it was written. -/
theorem word_append {w rest : List Char} (hw : ∀ c ∈ w, isBlank c = false)
    (hrest : ∀ c ∈ rest.head?, isBlank c = true) : word (w ++ rest) = w := by
  rw [word, List.takeWhile_append_of_pos (by simpa using hw)]
  cases rest with
  | nil => simp
  | cons c rest => simp [hrest c rfl]

theorem afterWord_append {w rest : List Char} (hw : ∀ c ∈ w, isBlank c = false)
    (hrest : ∀ c ∈ rest.head?, isBlank c = true) : afterWord (w ++ rest) = rest := by
  have hsplit := word_append_afterWord (w ++ rest)
  rw [word_append hw hrest] at hsplit
  exact List.append_cancel_left hsplit

theorem word_eq_self_of_afterWord {cs : List Char} (h : afterWord cs = []) : word cs = cs := by
  have hsplit := word_append_afterWord cs
  rwa [h, List.append_nil] at hsplit

/-- A text that starts with a word: this word, and then those of the text after it. -/
theorem words_cons_of_not_blank {c : Char} (h : isBlank c = false) (cs : List Char) :
    words (c :: cs) = word (c :: cs) :: words (afterWord (c :: cs)) := by
  have hne := word_ne_nil h cs
  have hword : ∀ d ∈ word (c :: cs), isBlank d = false := fun d => isBlank_of_mem_word
  have hsplit := word_append_afterWord (c :: cs)
  cases hafter : afterWord (c :: cs) with
  | nil =>
    rw [word_eq_self_of_afterWord hafter] at hword ⊢
    rw [words, List.splitOnP_eq_singleton hword, List.filter_cons_of_pos (by simp)]
    rfl
  | cons d ds =>
    -- the word ends at a blank, which splits off nothing of its own
    have hd : isBlank d = true := isBlank_of_afterWord hafter
    rw [hafter] at hsplit
    rw [words_cons_of_blank hd]
    conv => lhs; rw [words, ← hsplit, List.splitOnP_append_cons_of_forall_mem hword d hd]
    rw [List.filter_cons_of_pos (by simpa using hne)]
    rfl

theorem words_of_trimStart_ne_nil {cs : List Char} (h : trimStart cs ≠ []) :
    words cs = word (trimStart cs) :: words (afterWord (trimStart cs)) := by
  rw [← words_trimStart cs]
  cases ht : trimStart cs with
  | nil => exact absurd ht h
  | cons c ds => exact words_cons_of_not_blank (not_blank_of_trimStart ht) ds

theorem words_eq_nil_iff {cs : List Char} : words cs = [] ↔ trimStart cs = [] := by
  constructor
  · intro h
    by_cases ht : trimStart cs = []
    · exact ht
    · rw [words_of_trimStart_ne_nil ht] at h
      cases h
  · intro h
    rw [← words_trimStart, h, words_nil]

theorem trimStart_fromWord (i : Nat) (cs : List Char) :
    trimStart (fromWord i cs) = fromWord i cs := by
  induction i generalizing cs with
  | zero => exact List.dropWhile_idempotent isBlank cs
  | succ i ih => exact ih (afterWord (trimStart cs))

theorem fromWord_suffix (i : Nat) (cs : List Char) : fromWord i cs <:+ cs := by
  induction i generalizing cs with
  | zero => exact trimStart_suffix cs
  | succ i ih =>
    exact (ih (afterWord (trimStart cs))).trans ((afterWord_suffix _).trans (trimStart_suffix cs))

/-- What is left before a word holds the words from this one on. -/
theorem words_fromWord (i : Nat) (cs : List Char) :
    words (fromWord i cs) = (words cs).drop i := by
  induction i generalizing cs with
  | zero => exact words_trimStart cs
  | succ i ih =>
    rw [fromWord, ih]
    by_cases ht : trimStart cs = []
    · -- past the last word nothing is left
      rw [words_eq_nil_iff.2 ht, ht, List.drop_nil]
      exact List.drop_nil
    · rw [words_of_trimStart_ne_nil ht, List.drop_succ_cons]

/-- A text that ends in a word has no words only if nothing is there. -/
theorem NoTrailingBlank.words_eq_nil_iff {cs : List Char} (h : NoTrailingBlank cs) :
    words cs = [] ↔ cs = [] := by
  constructor
  · intro hw
    have hall : ∀ c ∈ cs, isBlank c = true :=
      List.dropWhile_eq_nil_iff.1 (Text.words_eq_nil_iff.1 hw)
    rcases List.eq_nil_or_concat' cs with rfl | ⟨before, c, rfl⟩
    · rfl
    · have hc : isBlank c = false := h c (by simp)
      rw [hall c (by simp)] at hc
      cases hc
  · rintro rfl
    rfl

/-- A text that ends in a blank still does after its first word. -/
theorem not_noTrailingBlank_afterWord {cs : List Char} (h : ¬ NoTrailingBlank cs)
    (hword : trimStart cs ≠ []) : ¬ NoTrailingBlank (afterWord (trimStart cs)) := by
  intro hafter
  have hstart : ¬ NoTrailingBlank (trimStart cs) := by
    intro htight
    obtain ⟨lead, hlead⟩ := trimStart_suffix cs
    exact h (hlead ▸ htight.append hword lead)
  by_cases hnil : afterWord (trimStart cs) = []
  · -- the first word is all that is left, and a word does not end in a blank
    refine hstart fun c hc => ?_
    have hmem : c ∈ word (trimStart cs) := by
      rw [word_eq_self_of_afterWord hnil]
      exact List.mem_of_getLast? hc
    exact isBlank_of_mem_word hmem
  · obtain ⟨w, hw⟩ := afterWord_suffix (trimStart cs)
    exact hstart (hw ▸ hafter.append hnil w)

end ChatCommands.Text
