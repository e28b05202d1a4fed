import ChatCommands.Proofs.Pattern.Cut

/-!
# Tokens

A pattern falls into tokens in one way only. `Tokenized` says what it takes: the tokens and the
blanks between them make up the text, each gap stands between a closing and an opening bracket, and
no token holds another such gap. `tokens` finds the tokens of the trimmed pattern
(`tokens_eq_iff`), so nothing of it is lost but the gaps, and tokens that are joined again come back
(`tokens_intercalate_tokens`).
-/

namespace ChatCommands.Pattern

open Text

/-! ## Texts in tokens -/

/-- A text that starts as every token but the first does. -/
def Opened (t : List Char) : Prop :=
  ∃ y cs, t = y :: cs ∧ (y = '[' ∨ y = '<')

/-- A text that ends as every token but the last does. -/
def Closed (t : List Char) : Prop :=
  ∃ x cs, t = cs ++ [x] ∧ (x = ']' ∨ x = '>')

/-- The text is made of the pieces in order, with one or more ASCII blanks between any two. -/
inductive Joined : List (List Char) → List Char → Prop
  | none : Joined [] []
  | one (t : List Char) : Joined [t] t
  | more {t gap u text : List Char} {ts : List (List Char)} (some : gap ≠ [])
      (blank : ∀ b ∈ gap, isAsciiBlank b = true) (rest : Joined (u :: ts) text) :
      Joined (t :: u :: ts) (t ++ (gap ++ text))

/-- The text falls into these tokens. -/
structure Tokenized (text : List Char) (ts : List (List Char)) : Prop where
  joined : Joined ts text
  present : ∀ t ∈ ts, t ≠ []
  closed : ∀ t ∈ ts.dropLast, Closed t
  opened : ∀ t ∈ ts.tail, Opened t
  uncut : ∀ t ∈ ts, ¬ HasCut t

variable {t u text pattern : List Char} {ts : List (List Char)}

theorem Closed.ne_nil (h : Closed t) : t ≠ [] := by
  obtain ⟨x, cs, rfl, -⟩ := h
  simp

theorem Closed.noTrailingBlank (h : Closed t) : NoTrailingBlank t := by
  obtain ⟨x, cs, rfl, hx⟩ := h
  rcases hx with rfl | rfl <;> simp [NoTrailingBlank, isBlank]

theorem Opened.noLeadingBlank (h : Opened t) : NoLeadingBlank t := by
  obtain ⟨y, cs, rfl, hy⟩ := h
  rcases hy with rfl | rfl <;> simp [NoLeadingBlank, isBlank]

theorem tokenized_nil_iff : Tokenized text [] ↔ text = [] := by
  constructor
  · intro h
    cases h.joined
    rfl
  · rintro rfl
    exact ⟨.none, by simp, by simp, by simp, by simp⟩

theorem tokenized_singleton_iff : Tokenized text [t] ↔ text = t ∧ t ≠ [] ∧ ¬ HasCut t := by
  constructor
  · intro h
    cases h.joined
    exact ⟨rfl, h.present _ (by simp), h.uncut _ (by simp)⟩
  · rintro ⟨rfl, hne, huncut⟩
    exact ⟨.one text, by simpa using hne, by simp, by simp, by simpa using huncut⟩

/-- One token more: it is closed, and after the gap comes one that is opened. -/
theorem tokenized_cons_cons_iff : Tokenized text (t :: u :: ts) ↔
    ∃ gap rest, text = t ++ (gap ++ rest) ∧ gap ≠ [] ∧ (∀ b ∈ gap, isAsciiBlank b = true) ∧
      Closed t ∧ ¬ HasCut t ∧ Opened u ∧ Tokenized rest (u :: ts) := by
  constructor
  · rintro ⟨hjoined, hpresent, hclosed, hopened, huncut⟩
    cases hjoined with
    | @more _ gap _ rest _ hne hgap hrest =>
      refine ⟨gap, rest, rfl, hne, hgap, hclosed t (by simp), huncut t (by simp),
        hopened u (by simp), hrest, ?_, ?_, ?_, ?_⟩
      · exact fun v hv => hpresent v (List.mem_cons_of_mem _ hv)
      · exact fun v hv => hclosed v (List.mem_cons_of_mem _ hv)
      · exact fun v hv => hopened v (List.mem_cons_of_mem _ hv)
      · exact fun v hv => huncut v (List.mem_cons_of_mem _ hv)
  · rintro ⟨gap, rest, rfl, hne, hgap, htc, htu, huo, hrest⟩
    refine ⟨.more hne hgap hrest.joined, ?_, ?_, ?_, ?_⟩
    · exact List.forall_mem_cons.2 ⟨htc.ne_nil, hrest.present⟩
    · exact List.forall_mem_cons.2 ⟨htc, hrest.closed⟩
    · exact List.forall_mem_cons.2 ⟨huo, hrest.opened⟩
    · exact List.forall_mem_cons.2 ⟨htu, hrest.uncut⟩

/-! ## Splitting -/

/-- A text starts with its first token. -/
theorem Tokenized.isPrefix (h : Tokenized text (t :: ts)) : t <+: text := by
  cases ts with
  | nil =>
    obtain ⟨rfl, -⟩ := tokenized_singleton_iff.1 h
    exact List.prefix_rfl
  | cons u us =>
    obtain ⟨gap, rest, rfl, -⟩ := tokenized_cons_cons_iff.1 h
    exact List.prefix_append _ _

/-- **Splitting finds the tokens**: induction on the tokens. The gap after a token stands between
brackets, so the token ends there, and the rest is read anew. -/
theorem splitSeen_of_tokenized (h : Tokenized text (t :: ts)) : splitSeen [] text = t :: ts := by
  induction ts generalizing t text with
  | nil =>
    obtain ⟨rfl, -, huncut⟩ := tokenized_singleton_iff.1 h
    rw [← List.append_nil text, splitSeen_append (by simpa using huncut), splitSeen_nil]
    simp
  | cons u us ih =>
    obtain ⟨gap, rest, rfl, hne, hgap, ⟨x, cs, rfl, hx⟩, huncut, ⟨y, ds, rfl, hy⟩, hrest⟩ :=
      tokenized_cons_cons_iff.1 h
    obtain ⟨tail, rfl⟩ := hrest.isPrefix
    have hread := ih hrest
    rw [List.cons_append, splitSeen_cons rfl] at hread
    rw [splitSeen_append (by simpa using huncut), List.append_nil, List.reverse_concat,
      List.cons_append, splitSeen_gap hx hne hgap hy (by simpa using huncut), hread]
    simp

/-- **Splitting leaves nothing out**: induction on the text that is left, for every text that was
read without meeting a cut. A character that makes a cut in the text read so far is one that starts
a token. -/
theorem tokenized_splitSeen {seen cs : List Char} (hne : seen ≠ []) (h : ¬ HasCut seen.reverse) :
    Tokenized (seen.reverse ++ cs) (splitSeen seen cs) := by
  induction cs generalizing seen with
  | nil =>
    rw [splitSeen_nil, List.append_nil, tokenized_singleton_iff]
    exact ⟨rfl, by simpa using hne, h⟩
  | cons c cs ih =>
    cases hc : cutsBefore seen c with
    | true =>
      obtain ⟨x, gap, before, rfl, hx, hgapne, hgap, hopen⟩ := cutsBefore_iff.1 hc
      have hrest : Tokenized (c :: cs) (splitSeen [c] cs) := by
        refine ih (List.cons_ne_nil c []) ?_
        rw [List.reverse_singleton]
        exact not_hasCut_singleton c
      rw [splitSeen_cons_of_cut hc, dropWhile_gap hx hgap]
      cases hsplit : splitSeen [c] cs with
      | nil =>
        rw [hsplit, tokenized_nil_iff] at hrest
        cases hrest
      | cons u us =>
        rw [hsplit] at hrest
        refine tokenized_cons_cons_iff.2 ⟨gap.reverse, c :: cs, by simp, by simpa using hgapne,
          by simpa using hgap, ⟨x, before.reverse, by simp, hx⟩, ?_, ?_, hrest⟩
        · -- the token that ends here is a part of what was read
          intro hcut
          refine h (hcut.mono ?_)
          rw [List.reverse_append]
          exact List.infix_append_left
        · obtain ⟨d, ds, rfl⟩ := List.exists_cons_of_ne_nil (hrest.present u (by simp))
          obtain rfl : d = c := (List.cons_prefix_cons.1 hrest.isPrefix).1
          exact ⟨d, ds, rfl, hopen⟩
    | false =>
      have hread : ¬ HasCut (c :: seen).reverse := by
        rw [List.reverse_cons, hasCut_concat_iff, List.reverse_reverse, hc]
        simpa using h
      rw [splitSeen_cons hc, List.append_cons, ← List.reverse_cons]
      exact ih (List.cons_ne_nil c seen) hread

/-- **The tokens of a pattern** are those that the trimmed pattern falls into. -/
theorem tokens_eq_iff : tokens pattern = ts ↔ Tokenized (trim pattern) ts := by
  constructor
  · rintro rfl
    rw [tokens]
    cases trim pattern with
    | nil => exact tokenized_nil_iff.2 rfl
    | cons c cs =>
      have hread : splitSeen [] (c :: cs) = splitSeen [c] cs := splitSeen_cons rfl cs
      show Tokenized (c :: cs) (splitSeen [] (c :: cs))
      rw [hread]
      exact tokenized_splitSeen (List.cons_ne_nil c []) (not_hasCut_singleton c)
  · intro h
    rw [tokens]
    cases ts with
    | nil => rw [tokenized_nil_iff.1 h]
    | cons t ts =>
      split
      · next hnil =>
        have hprefix := h.isPrefix
        rw [hnil, List.prefix_nil] at hprefix
        exact absurd hprefix (h.present t (by simp))
      · exact splitSeen_of_tokenized h

theorem tokenized_tokens (pattern : List Char) : Tokenized (trim pattern) (tokens pattern) :=
  tokens_eq_iff.1 rfl

/-- A pattern has no tokens exactly if it is blank. -/
theorem tokens_eq_nil_iff : tokens pattern = [] ↔ trim pattern = [] := by
  rw [tokens_eq_iff, tokenized_nil_iff]

/-- No token of a pattern has a cut. -/
theorem not_hasCut_of_mem_tokens (h : t ∈ tokens pattern) : ¬ HasCut t :=
  (tokenized_tokens pattern).uncut t h

/-! ## Tokens that are joined -/

theorem joined_intercalate (ts : List (List Char)) : Joined ts (List.intercalate [' '] ts) := by
  induction ts with
  | nil => exact .none
  | cons t ts ih =>
    cases ts with
    | nil =>
      rw [List.intercalate_singleton]
      exact .one t
    | cons u us =>
      rw [List.intercalate_cons_cons, List.append_assoc]
      exact .more (List.cons_ne_nil _ _) (by simp [isAsciiBlank]) ih

/-- The width of the gaps makes no difference. -/
theorem Tokenized.intercalate (h : Tokenized text ts) :
    Tokenized (List.intercalate [' '] ts) ts :=
  { h with joined := joined_intercalate ts }

/-- A text starts with a blank if its first token does. -/
theorem Tokenized.noLeadingBlank_iff (h : Tokenized text ts) :
    NoLeadingBlank text ↔ ∀ t ∈ ts.head?, NoLeadingBlank t := by
  cases ts with
  | nil => simp [tokenized_nil_iff.1 h, NoLeadingBlank]
  | cons t ts =>
    obtain ⟨rest, rfl⟩ := h.isPrefix
    simp [NoLeadingBlank, List.head?_append_of_ne_nil _ (h.present t (by simp))]

/-- A text ends in a blank if its last token does. -/
theorem Tokenized.noTrailingBlank_iff (h : Tokenized text ts) :
    NoTrailingBlank text ↔ ∀ t ∈ ts.getLast?, NoTrailingBlank t := by
  induction ts generalizing text with
  | nil => simp [tokenized_nil_iff.1 h, NoTrailingBlank]
  | cons t ts ih =>
    cases ts with
    | nil =>
      obtain ⟨rfl, -⟩ := tokenized_singleton_iff.1 h
      simp
    | cons u us =>
      obtain ⟨gap, rest, rfl, -, -, -, -, -, hrest⟩ := tokenized_cons_cons_iff.1 h
      have hne : rest ≠ [] := by
        rintro rfl
        exact hrest.present u (by simp) (List.prefix_nil.1 hrest.isPrefix)
      rw [List.getLast?_cons_cons, ← ih hrest, NoTrailingBlank, NoTrailingBlank,
        ← List.append_assoc, List.getLast?_append_of_ne_nil _ hne]

theorem Tokenized.trim_eq (h : Tokenized text ts) (start : ∀ t ∈ ts.head?, NoLeadingBlank t)
    (stop : ∀ t ∈ ts.getLast?, NoTrailingBlank t) : trim text = text := by
  rw [trim, (h.noLeadingBlank_iff.2 start).trimStart_eq, (h.noTrailingBlank_iff.2 stop).trimEnd_eq]

/-- **Joined tokens split again**: the tokens of a pattern, one space apart, are the tokens of the
text that they make up. -/
theorem tokens_intercalate_tokens (pattern : List Char) :
    tokens (List.intercalate [' '] (tokens pattern)) = tokens pattern := by
  have h := tokenized_tokens pattern
  have hjoined := h.intercalate
  rw [tokens_eq_iff, hjoined.trim_eq (h.noLeadingBlank_iff.1 (noLeadingBlank_trim pattern))
    (h.noTrailingBlank_iff.1 (noTrailingBlank_trim pattern))]
  exact hjoined

/-- A text between an opening and a closing bracket, of whatever kind. -/
structure Bracketed (t : List Char) : Prop where
  opened : Opened t
  closed : Closed t

/-- Bracketed texts without cuts are the tokens of the text that they make up. -/
theorem tokens_intercalate (h : ∀ t ∈ ts, Bracketed t ∧ ¬ HasCut t) :
    tokens (List.intercalate [' '] ts) = ts := by
  have hjoined : Tokenized (List.intercalate [' '] ts) ts := by
    refine ⟨joined_intercalate ts, ?_, ?_, ?_, fun t ht => (h t ht).2⟩
    · exact fun t ht => (h t ht).1.closed.ne_nil
    · exact fun t ht => (h t (List.dropLast_subset ts ht)).1.closed
    · exact fun t ht => (h t (List.mem_of_mem_tail ht)).1.opened
  rw [tokens_eq_iff, hjoined.trim_eq]
  · exact hjoined
  · exact fun t ht => (h t (List.mem_of_mem_head? ht)).1.opened.noLeadingBlank
  · exact fun t ht => (h t (List.mem_of_getLast? ht)).1.closed.noTrailingBlank

/-! ## Patterns as strings -/

theorem split_eq_iff {pattern : String} {ts : List String} :
    split pattern = ts ↔ tokens pattern.toList = ts.map String.toList := by
  rw [split]
  constructor
  · rintro rfl
    rw [List.map_map, String.toList_comp_ofList, List.map_id]
  · intro h
    simp [h, Function.comp_def]

/-- **Splitting is lossless and maximal**: a pattern is split into the only list of tokens that the
trimmed pattern falls into. No token has blanks where it was cut. There are no tokens exactly if the
pattern is blank, and the tokens, one space apart, are split in the same way. -/
theorem split_lossless (pattern : String) :
    (∀ ts : List String,
      split pattern = ts ↔ Tokenized (trim pattern.toList) (ts.map String.toList)) ∧
    (∀ t ∈ (split pattern).dropLast, NoTrailingBlank t.toList) ∧
    (∀ t ∈ (split pattern).tail, NoLeadingBlank t.toList) ∧
    (split pattern = [] ↔ isBlankText pattern.toList = true) ∧
    split (" ".intercalate (split pattern)) = split pattern := by
  have hexact : ∀ ts : List String,
      split pattern = ts ↔ Tokenized (trim pattern.toList) (ts.map String.toList) :=
    fun ts => split_eq_iff.trans tokens_eq_iff
  have h := (hexact (split pattern)).1 rfl
  refine ⟨hexact, fun t ht => ?_, fun t ht => ?_, ?_, ?_⟩
  · refine (h.closed t.toList ?_).noTrailingBlank
    rw [← List.map_dropLast]
    exact List.mem_map_of_mem ht
  · refine (h.opened t.toList ?_).noLeadingBlank
    rw [← List.map_tail]
    exact List.mem_map_of_mem ht
  · rw [hexact, List.map_nil, tokenized_nil_iff, trim_eq_nil_iff]
  · have htokens := split_eq_iff.1 (Eq.refl (split pattern))
    rw [split_eq_iff, String.toList_intercalate, ← htokens]
    exact tokens_intercalate_tokens pattern.toList

example : split " <a>\t\t<b c>  [d...]\n" = ["<a>", "<b c>", "[d...]"] := by decide

end ChatCommands.Pattern
