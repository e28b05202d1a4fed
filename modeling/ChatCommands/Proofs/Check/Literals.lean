import ChatCommands.Check.Locator
import ChatCommands.Proofs.Text.Utf8

/-!
# The string literals of a text

Any text falls into literals with gaps between them in one way only, whether it is a document or not
(`Literal.Pieces`). A gap has no quotes, so the first quote after it opens a literal. What it
contains is then read in one way, as characters on their own and pairs of a backslash and a
character (`Literal.IsContents`), and the first quote that is on its own closes it. If there is
none, the quote is left unclosed, and nothing after it is in a literal.

These are the literals that are found (`Literal.decomposed_in_one_way`), though they are searched
for among the bytes of the text.
-/

namespace ChatCommands.Literal

open Text

/-! ## Contents -/

/-- What can stand between the quotes of a literal. -/
inductive IsContents : List Char → Prop where
  | nil : IsContents []
  | plain {c : Char} {cs : List Char} (quote : c ≠ '"') (backslash : c ≠ '\\')
      (more : IsContents cs) : IsContents (c :: cs)
  | escaped (c : Char) {cs : List Char} (more : IsContents cs) : IsContents ('\\' :: c :: cs)

/-- A text that begins inside of a literal, which no quote in it closes. -/
def IsUnclosed (cs : List Char) : Prop :=
  ∀ contents rest, IsContents contents → cs ≠ contents ++ '"' :: rest

variable {cs gap gap' rest rest' contents contents' : List Char}

/-- Contents end at the first quote that closes them: induction on what is read of both. -/
theorem IsContents.append_inj (h : IsContents contents) (h' : IsContents contents')
    (heq : contents ++ '"' :: rest = contents' ++ '"' :: rest') :
    contents = contents' ∧ rest = rest' := by
  induction h generalizing contents' with
  | nil =>
    cases h' with
    | nil => exact ⟨rfl, (List.cons.inj heq).2⟩
    | plain quote => exact absurd (List.cons.inj heq).1.symm quote
    | escaped => exact absurd (List.cons.inj heq).1 (by decide)
  | plain quote backslash _ ih =>
    cases h' with
    | nil => exact absurd (List.cons.inj heq).1 quote
    | plain _ _ more' =>
      obtain ⟨rfl, htail⟩ := List.cons_eq_cons.1 heq
      obtain ⟨rfl, rfl⟩ := ih more' htail
      exact ⟨rfl, rfl⟩
    | escaped => exact absurd (List.cons.inj heq).1 backslash
  | escaped _ _ ih =>
    cases h' with
    | nil => exact absurd (List.cons.inj heq).1 (by decide)
    | plain _ backslash => exact absurd (List.cons.inj heq).1.symm backslash
    | escaped _ more' =>
      simp only [List.cons_append, List.cons.injEq, true_and] at heq
      obtain ⟨rfl, htail⟩ := heq
      obtain ⟨rfl, rfl⟩ := ih more' htail
      exact ⟨rfl, rfl⟩

/-- Read from its beginning, a text closes a literal, or is contents up to its end, or up to a
backslash there that nothing follows: induction on its length. -/
theorem contents_cases (cs : List Char) :
    (∃ contents rest, IsContents contents ∧ cs = contents ++ '"' :: rest) ∨
    IsContents cs ∨ ∃ contents, IsContents contents ∧ cs = contents ++ ['\\'] := by
  induction hlength : cs.length using Nat.strongRecOn generalizing cs with
  | ind length ih =>
    subst hlength
    cases cs with
    | nil => exact Or.inr (Or.inl .nil)
    | cons c cs =>
      by_cases hquote : c = '"'
      · subst hquote
        exact Or.inl ⟨[], cs, .nil, rfl⟩
      by_cases hbackslash : c = '\\'
      · subst hbackslash
        cases cs with
        | nil => exact Or.inr (Or.inr ⟨[], .nil, rfl⟩)
        | cons c cs =>
          have hshorter : cs.length < ('\\' :: c :: cs).length := by
            rw [List.length_cons, List.length_cons]
            omega
          rcases ih cs.length hshorter cs rfl with
            ⟨contents, rest, h, rfl⟩ | h | ⟨contents, h, rfl⟩
          · exact Or.inl ⟨'\\' :: c :: contents, rest, .escaped c h, rfl⟩
          · exact Or.inr (Or.inl (.escaped c h))
          · exact Or.inr (Or.inr ⟨'\\' :: c :: contents, .escaped c h, rfl⟩)
      · rcases ih cs.length (by simp) cs rfl with
          ⟨contents, rest, h, rfl⟩ | h | ⟨contents, h, rfl⟩
        · exact Or.inl ⟨c :: contents, rest, .plain hquote hbackslash h, rfl⟩
        · exact Or.inr (Or.inl (.plain hquote hbackslash h))
        · exact Or.inr (Or.inr ⟨c :: contents, .plain hquote hbackslash h, rfl⟩)

/-! ## Pieces -/

/-- A text in pieces: literals, each after a gap, and what comes after the last of them. That is
a gap, and maybe a quote that is left unclosed, with the rest of the text. -/
inductive Pieces where
  | done (gap : List Char)
  | unclosed (gap rest : List Char)
  | literal (gap contents : List Char) (next : Pieces)

namespace Pieces

/-- The text that the pieces make up. -/
def text : Pieces → List Char
  | done gap => gap
  | unclosed gap rest => gap ++ '"' :: rest
  | literal gap contents next => gap ++ '"' :: (contents ++ '"' :: next.text)

/-- Whether each piece is what it is called. -/
def Sound : Pieces → Prop
  | done gap => '"' ∉ gap
  | unclosed gap rest => '"' ∉ gap ∧ IsUnclosed rest
  | literal gap contents next => '"' ∉ gap ∧ IsContents contents ∧ next.Sound

/-- The literals among the pieces of a text that starts at the given byte. -/
def literals (offset : Nat) : Pieces → List Literal
  | done _ => []
  | unclosed _ _ => []
  | literal gap contents next =>
    let start := offset + byteLength gap + 1
    ⟨start, contents, next.text⟩ :: next.literals (start + byteLength contents + 1)

end Pieces

/-- Every text falls into pieces: induction on its length. -/
theorem exists_pieces (cs : List Char) : ∃ p : Pieces, p.Sound ∧ p.text = cs := by
  induction hlength : cs.length using Nat.strongRecOn generalizing cs with
  | ind length ih =>
    subst hlength
    by_cases hquote : '"' ∈ cs
    · obtain ⟨gap, rest, rfl, hgap⟩ := List.eq_append_cons_of_mem hquote
      by_cases hclosed : ∃ contents after, IsContents contents ∧ rest = contents ++ '"' :: after
      · obtain ⟨contents, after, hcontents, rfl⟩ := hclosed
        have hshorter : after.length < (gap ++ '"' :: (contents ++ '"' :: after)).length := by
          rw [List.length_append, List.length_cons, List.length_append, List.length_cons]
          omega
        obtain ⟨p, hp, rfl⟩ := ih after.length hshorter after rfl
        exact ⟨.literal gap contents p, ⟨hgap, hcontents, hp⟩, rfl⟩
      · refine ⟨.unclosed gap rest, ⟨hgap, ?_⟩, rfl⟩
        exact fun contents after hcontents heq => hclosed ⟨contents, after, hcontents, heq⟩
    · exact ⟨.done cs, hquote, rfl⟩

/-- A gap ends at the first quote. -/
theorem gap_append_inj (h : '"' ∉ gap) (h' : '"' ∉ gap')
    (heq : gap ++ '"' :: rest = gap' ++ '"' :: rest') : gap = gap' ∧ rest = rest' := by
  induction gap generalizing gap' with
  | nil =>
    cases gap' with
    | nil => exact ⟨rfl, (List.cons.inj heq).2⟩
    | cons d gap' => exact absurd (List.cons.inj heq).1 (List.ne_of_not_mem_cons h')
  | cons c gap ih =>
    cases gap' with
    | nil => exact absurd (List.cons.inj heq).1.symm (List.ne_of_not_mem_cons h)
    | cons d gap' =>
      obtain ⟨rfl, htail⟩ := List.cons_eq_cons.1 heq
      obtain ⟨rfl, rfl⟩ :=
        ih (List.not_mem_of_not_mem_cons h) (List.not_mem_of_not_mem_cons h') htail
      exact ⟨rfl, rfl⟩

/-- **A text falls into pieces in one way only**: induction on the pieces. -/
theorem Pieces.Sound.eq_of_text_eq {p q : Pieces} (h : p.Sound) (h' : q.Sound)
    (heq : p.text = q.text) : p = q := by
  have hnone : ∀ {gap gap' rest : List Char}, '"' ∉ gap → gap ≠ gap' ++ '"' :: rest := by
    rintro gap gap' rest hgap rfl
    exact hgap (List.mem_append_right _ List.mem_cons_self)
  induction p generalizing q with
  | done gap =>
    cases q with
    | done gap' => exact congrArg Pieces.done heq
    | unclosed | literal => exact absurd heq (hnone h)
  | unclosed gap rest =>
    cases q with
    | done gap' => exact absurd heq.symm (hnone h')
    | unclosed gap' rest' =>
      obtain ⟨rfl, rfl⟩ := gap_append_inj h.1 h'.1 heq
      rfl
    | literal gap' contents next =>
      obtain ⟨-, hrest⟩ := gap_append_inj h.1 h'.1 heq
      exact absurd hrest (h.2 _ _ h'.2.1)
  | literal gap contents next ih =>
    cases q with
    | done gap' => exact absurd heq.symm (hnone h')
    | unclosed gap' rest' =>
      obtain ⟨-, hrest⟩ := gap_append_inj h.1 h'.1 heq
      exact absurd hrest.symm (h'.2 _ _ h.2.1)
    | literal gap' contents' next' =>
      obtain ⟨rfl, hrest⟩ := gap_append_inj h.1 h'.1 heq
      obtain ⟨rfl, hnext⟩ := h.2.1.append_inj h'.2.1 hrest
      rw [ih h.2.2 h'.2.2 hnext]

/-! ## The scan -/

/-- Outside of literals, a scan goes past a gap. -/
theorem scan_gap_append (h : '"' ∉ gap) (offset : Nat) (cs : List Char) :
    scan offset .outside (gap ++ cs) = scan (offset + byteLength gap) .outside cs := by
  induction gap generalizing offset with
  | nil => rfl
  | cons c gap ih =>
    rw [List.cons_append, scan, if_neg (List.ne_of_not_mem_cons h).symm,
      ih (List.not_mem_of_not_mem_cons h), byteLength, Nat.add_assoc]

/-- Inside of a literal, it reads the contents. -/
theorem IsContents.scan_append (h : IsContents contents) (offset start : Nat)
    (read cs : List Char) :
    scan offset (.inside start false read) (contents ++ cs) =
      scan (offset + byteLength contents) (.inside start false (contents.reverse ++ read)) cs := by
  induction h generalizing offset read with
  | nil => rfl
  | plain quote backslash more ih =>
    rw [List.cons_append, scan, if_neg quote, decide_eq_false backslash, ih, byteLength]
    simp [Nat.add_assoc]
  | escaped c more ih =>
    rw [List.cons_append, List.cons_append, scan, if_neg (by decide), decide_eq_true rfl, scan, ih,
      byteLength, byteLength]
    simp [Nat.add_assoc]

/-- Contents up to the quote that closes them are a literal. -/
theorem IsContents.scan_quote (h : IsContents contents) (offset : Nat) (rest : List Char) :
    scan offset (.inside offset false []) (contents ++ '"' :: rest) =
      ⟨offset, contents, rest⟩ :: scan (offset + byteLength contents + 1) .outside rest := by
  rw [h.scan_append, scan, if_pos rfl, List.append_nil, List.reverse_reverse]
  rfl

theorem IsUnclosed.scan_eq_nil (h : IsUnclosed cs) (offset start : Nat) (read : List Char) :
    scan offset (.inside start false read) cs = [] := by
  rcases contents_cases cs with
    ⟨contents, rest, hcontents, heq⟩ | hcontents | ⟨contents, hcontents, rfl⟩
  · exact absurd heq (h contents rest hcontents)
  · have hscan := hcontents.scan_append offset start read []
    rw [List.append_nil] at hscan
    rw [hscan, scan]
  · rw [hcontents.scan_append]
    rfl

/-- **A scan meets the literals among the pieces**: induction on the pieces. -/
theorem Pieces.Sound.scan_text {p : Pieces} (h : p.Sound) (offset : Nat) :
    scan offset .outside p.text = p.literals offset := by
  induction p generalizing offset with
  | done gap =>
    have hscan := scan_gap_append h offset []
    rw [List.append_nil] at hscan
    rw [Pieces.text, hscan, scan, Pieces.literals]
  | unclosed gap rest =>
    rw [Pieces.text, scan_gap_append h.1, scan, if_pos rfl, h.2.scan_eq_nil, Pieces.literals]
  | literal gap contents next ih =>
    rw [Pieces.text, scan_gap_append h.1, scan, if_pos rfl]
    exact (h.2.1.scan_quote _ _).trans (congrArg _ (ih h.2.2 _))

/-! ## Spans -/

/-- The literals of a text are apart from each other: between the contents of two of them, there is
the closing quote of the one and the opening quote of the other. -/
theorem Pieces.literals_apart (p : Pieces) (offset : Nat) :
    (∀ l ∈ p.literals offset, offset < l.start) ∧
      (p.literals offset).Pairwise fun l m => l.span.stop + 1 < m.start := by
  induction p generalizing offset with
  | done gap => exact ⟨List.forall_mem_nil _, List.Pairwise.nil⟩
  | unclosed gap rest => exact ⟨List.forall_mem_nil _, List.Pairwise.nil⟩
  | literal gap contents next ih =>
    obtain ⟨hlater, hapart⟩ := ih (offset + byteLength gap + 1 + byteLength contents + 1)
    refine ⟨List.forall_mem_cons.2 ⟨by simp only; omega, fun l hl => ?_⟩,
      List.pairwise_cons.2 ⟨hlater, hapart⟩⟩
    have hstart := hlater l hl
    omega

/-- A span that can be cut out of a text, with a quote right before it and one right after it. -/
structure BetweenQuotes (source : List Char) (s : Span) : Prop where
  ordered : s.start ≤ s.stop
  within : s.stop < byteLength source
  start : IsBoundary source s.start
  stop : IsBoundary source s.stop
  opening : 0 < s.start ∧ (bytes source)[s.start - 1]? = some 0x22
  closing : (bytes source)[s.stop]? = some 0x22

theorem getElem?_bytes_append (before after : List Char) :
    (bytes (before ++ '"' :: after))[byteLength before]? = some 0x22 := by
  rw [bytes_append, ← length_bytes, List.getElem?_append_right (Nat.le_refl _), Nat.sub_self]
  rfl

theorem IsQuoted.betweenQuotes {source : List Char} {l : Literal} (h : IsQuoted source l) :
    BetweenQuotes source l.span := by
  obtain ⟨before, hsource, hstart, hopened, hstop⟩ := h.cuts
  have hopening : source = before ++ '"' :: (l.contents ++ '"' :: l.rest) := by simp [hsource]
  refine ⟨Nat.le_add_right _ _, ?_, ?_, ⟨_, _, hsource, hstop⟩, ?_, ?_⟩
  · have hquote : 0 < byteLength ('"' :: l.rest) := Nat.add_pos_left (by decide) _
    rw [hsource, byteLength_append, hstop]
    exact Nat.lt_add_of_pos_right hquote
  · exact ⟨before ++ ['"'], l.contents ++ '"' :: l.rest, by simp [hsource], hopened⟩
  · rw [← hstart, Nat.add_sub_cancel, hopening]
    exact ⟨Nat.succ_pos _, getElem?_bytes_append _ _⟩
  · rw [hsource, ← hstop]
    exact getElem?_bytes_append _ _

theorem declaring_sublist (isKey : Bool) (ls : List Literal) :
    (declaring isKey ls).Sublist ls := by
  induction ls generalizing isKey with
  | nil => exact .slnil
  | cons l ls ih =>
    rw [declaring]
    split
    · exact (ih _).cons l
    split
    · exact (ih _).cons_cons l
    · exact (ih _).cons l

/-- **The literals of a text**: a text falls into pieces in one way only, and the literals among
them are found. Each of them can be cut out of the text, and so can what comes after its closing
quote. They follow one another with a quote before and after each, and where a key is declared
again, this is one of them. -/
theorem decomposed_in_one_way (source : String) :
    ∃ p : Pieces, (∀ q : Pieces, q.Sound ∧ q.text = source.toList ↔ q = p) ∧
      spans 0 none source.toUTF8.data.toList = (p.literals 0).map span ∧
      all? source.toList = some (p.literals 0) ∧
      (p.literals 0).Pairwise (fun l m => l.span.stop + 1 < m.span.start) ∧
      (∀ l ∈ p.literals 0, BetweenQuotes source.toList l.span) ∧
      ∀ key l, redeclaration? source key = some l → l ∈ p.literals 0 := by
  obtain ⟨p, hp, htext⟩ := exists_pieces source.toList
  have hscan : scan 0 .outside source.toList = p.literals 0 := by
    rw [← htext, hp.scan_text]
  have hstart : Place.outside.IsIn source.toList 0 source.toList := ⟨[], rfl, rfl⟩
  refine ⟨p, fun q => ⟨?_, ?_⟩, ?_, ?_, (p.literals_apart 0).2, ?_, ?_⟩
  · rintro ⟨hq, heq⟩
    exact hq.eq_of_text_eq hp (heq.trans htext.symm)
  · rintro rfl
    exact ⟨hp, htext⟩
  · rw [← hscan, map_span_scan hstart, Utf8.toUTF8_eq_bytes, Place.search]
  · rw [all?_eq_scan, hscan]
  · rw [← hscan]
    exact fun l hl => (isQuoted_of_mem_scan hstart l hl).betweenQuotes
  · intro key l hl
    have hdeclaring := List.mem_of_mem_filter (List.mem_of_getElem? hl)
    rw [← hscan, ← all_eq_scan]
    exact (declaring_sublist _ _).subset hdeclaring

example : (all? "\"a\": \"x\\\"y\", \"\\é\", \"open".toList).map (List.map span) =
    some [⟨1, 2⟩, ⟨6, 10⟩, ⟨14, 17⟩] := by decide +kernel

end ChatCommands.Literal
