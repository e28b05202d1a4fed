import ChatCommands.Proofs.Check.Literals
import ChatCommands.Proofs.Json.Tokens
import ChatCommands.Proofs.Text.Words

/-!
# Where the strings of a document are

The strings of a document whose text has no escapes, each with the bytes that its contents take in
the text (`Check.LaidOut`). A text that is read as such a document is laid out in this way
(`Check.exists_laidOut`).

The search for a redeclared key goes over the text without reading it. It takes a string before a
colon for a name, and any other for a part of the member that was named last. Where that is so
(`Check.NamedLast`), it finds the strings that declare keys (`Check.declaring_of_laidOut`).
-/

namespace ChatCommands.Check

open Json Text

/-- A string in a text: the bytes of its contents, the contents, and the name of the member in
whose value it stands. -/
structure Site where
  span : Span
  raw : List Char
  member : Option (List Char)

/-- Whether the strings in a member declare keys. -/
def declaresKeys : Option (List Char) → Bool
  | none => false
  | some name => name = "key".toList || name = "aliases".toList

/-- The contents of a string without escapes. -/
def Plain (raw : List Char) : Prop :=
  ∀ c ∈ raw, c ≠ '"' ∧ c ≠ '\\'

/-- The blanks that stand between tokens. -/
def IsGap (gap : List Char) : Prop :=
  ∀ c ∈ gap, Token.isGap c = true

/-- A text from a known byte on, its tokens, and the strings among these. Tokens are marks and
strings without escapes, and blanks may stand before and after each. -/
inductive LaidOut : Nat → List Char → List Placed → List Site → Prop where
  | done {offset : Nat} {gap : List Char} (blank : IsGap gap) : LaidOut offset gap [] []
  | mark {offset : Nat} {gap rest : List Char} {c : Char} {token : Token}
      {member : Option (List Char)} {ts : List Placed} {sites : List Site} (blank : IsGap gap)
      (spelled : Token.ofMark? c = some token)
      (next : LaidOut (offset + byteLength gap + 1) rest ts sites) :
      LaidOut offset (gap ++ c :: rest) ((token, member) :: ts) sites
  | text {offset : Nat} {gap raw rest : List Char} {member : Option (List Char)}
      {ts : List Placed} {sites : List Site} (blank : IsGap gap) (plain : Plain raw)
      (next : LaidOut (offset + byteLength gap + 1 + byteLength raw + 1) rest ts sites) :
      LaidOut offset (gap ++ '"' :: (raw ++ '"' :: rest)) ((.text raw, member) :: ts)
        (⟨⟨offset + byteLength gap + 1, offset + byteLength gap + 1 + byteLength raw⟩, raw,
          member⟩ :: sites)

/-! ## Characters between tokens -/

theorem IsGap.append {gap more : List Char} (h : IsGap gap) (hmore : IsGap more) :
    IsGap (gap ++ more) :=
  fun c hc => (List.mem_append.1 hc).elim (h c) (hmore c)

theorem isGap_nil : IsGap [] := by
  simp [IsGap]

theorem isGap_cases {c : Char} (h : Token.isGap c = true) :
    c = ' ' ∨ c = '\t' ∨ c = '\n' ∨ c = '\r' := by
  simpa [Token.isGap, or_assoc] using h

theorem IsGap.isBlankText {gap : List Char} (h : IsGap gap) : isBlankText gap = true := by
  refine List.all_eq_true.2 fun c hc => ?_
  rcases isGap_cases (h c hc) with rfl | rfl | rfl | rfl <;> decide

/-! ## Tokens of a text -/

/-- A scan inside of a word comes to an atom: induction on the rest of the text. -/
theorem exists_atom_of_scan {read cs : List Char} {ts : List Token}
    (h : Token.scan (.inWord read) cs = some ts) : ∃ value, Token.atom value ∈ ts := by
  induction cs generalizing read ts with
  | nil =>
    rw [Token.scan] at h
    obtain ⟨token, htoken, rfl⟩ := Option.map_eq_some_iff.1 h
    obtain ⟨value, rfl, -⟩ := atom_of_ofWord? htoken
    exact ⟨value, List.mem_cons_self⟩
  | cons c cs ih =>
    rw [Token.scan] at h
    split at h
    · exact ih h
    · obtain ⟨token, htoken, hscan⟩ := Option.bind_eq_some_iff.1 h
      obtain ⟨rest, -, rfl⟩ := Option.map_eq_some_iff.1 hscan
      obtain ⟨value, rfl, -⟩ := atom_of_ofWord? htoken
      exact ⟨value, List.mem_cons_self⟩

/-- A scan inside of a string comes to its end, if the text has no escapes: induction on the rest
of the text. -/
theorem text_of_scan {read cs : List Char} {ts : List Token} (unescaped : '\\' ∉ cs)
    (h : Token.scan (.inText read) cs = some ts) :
    ∃ raw rest us, cs = raw ++ '"' :: rest ∧ Plain raw ∧
      ts = .text (read.reverse ++ raw) :: us ∧ Token.scan .between rest = some us := by
  induction cs generalizing read with
  | nil => simp [Token.scan] at h
  | cons c cs ih =>
    rw [List.mem_cons, not_or] at unescaped
    rw [Token.scan, if_neg (Ne.symm unescaped.1)] at h
    split at h
    · next hc =>
      obtain ⟨us, hus, rfl⟩ := Option.map_eq_some_iff.1 h
      exact ⟨[], cs, us, by rw [hc]; rfl, by simp [Plain], by rw [List.append_nil], hus⟩
    · next hc =>
      split at h
      · cases h
      obtain ⟨raw, rest, us, rfl, hplain, rfl, hus⟩ := ih unescaped.2 h
      refine ⟨c :: raw, rest, us, rfl, ?_, by simp, hus⟩
      intro d hd
      rcases List.mem_cons.1 hd with rfl | hd
      · exact ⟨hc, Ne.symm unescaped.1⟩
      · exact hplain d hd

/-- A text without escapes is laid out as it is scanned: induction on its length. Blanks that were
read before it are kept in front. -/
theorem exists_laidOut_of_scan {cs : List Char} {ts : List Placed} (unescaped : '\\' ∉ cs)
    (atomless : ∀ value, Token.atom value ∉ ts.map Prod.fst)
    (h : Token.scan .between cs = some (ts.map Prod.fst)) {gap : List Char} (blank : IsGap gap)
    (offset : Nat) : ∃ sites, LaidOut offset (gap ++ cs) ts sites := by
  induction hlength : cs.length using Nat.strong_induction_on generalizing cs ts gap offset with
  | h length ih =>
    cases cs with
    | nil =>
      rw [Token.scan, Option.some.injEq, eq_comm, List.map_eq_nil_iff] at h
      subst h
      exact ⟨[], by rw [List.append_nil]; exact .done blank⟩
    | cons c cs =>
      rw [List.mem_cons, not_or] at unescaped
      rw [Token.scan, Token.start] at h
      split at h
      · next hblank =>
        -- a blank joins those before it
        obtain ⟨us, hus, hts⟩ := Option.map_eq_some_iff.1 h
        rw [List.nil_append] at hts
        subst hts
        have hmore : IsGap (gap ++ [c]) := blank.append (by simpa [IsGap] using hblank)
        obtain ⟨sites, hsites⟩ := ih cs.length (by simp [← hlength]) unescaped.2 atomless hus hmore
          offset rfl
        exact ⟨sites, by simpa using hsites⟩
      split at h
      · next hquote =>
        obtain ⟨us, hus, hts⟩ := Option.map_eq_some_iff.1 h
        rw [List.nil_append] at hts
        obtain ⟨raw, rest, vs, rfl, hplain, rfl, hvs⟩ := text_of_scan unescaped.2 hus
        obtain ⟨⟨token, member⟩, ts, rfl, rfl, rfl⟩ := List.map_eq_cons_iff.1 hts.symm
        have hatomless : ∀ value, Token.atom value ∉ ts.map Prod.fst :=
          fun value hvalue => atomless value (List.mem_cons_of_mem _ hvalue)
        have hunescaped : '\\' ∉ rest := fun hmem => unescaped.2 (by simp [hmem])
        obtain ⟨sites, hsites⟩ := ih rest.length (by simp [← hlength]; omega) hunescaped hatomless
          hvs isGap_nil (offset + byteLength gap + 1 + byteLength raw + 1) rfl
        rw [hquote]
        exact ⟨_, .text blank hplain hsites⟩
      split at h
      · next token hmark =>
        obtain ⟨us, hus, hts⟩ := Option.map_eq_some_iff.1 h
        obtain ⟨⟨mark, member⟩, ts, rfl, rfl, rfl⟩ := List.map_eq_cons_iff.1 hts.symm
        have hatomless : ∀ value, Token.atom value ∉ ts.map Prod.fst :=
          fun value hvalue => atomless value (List.mem_cons_of_mem _ hvalue)
        obtain ⟨sites, hsites⟩ := ih cs.length (by simp [← hlength]) unescaped.2 hatomless hus
          isGap_nil (offset + byteLength gap + 1) rfl
        exact ⟨sites, .mark blank hmark hsites⟩
      · -- a word would be an atom
        obtain ⟨us, hus, hts⟩ := Option.map_eq_some_iff.1 h
        obtain ⟨value, hvalue⟩ := exists_atom_of_scan hus
        exact absurd (hts ▸ List.mem_append_right _ hvalue) (atomless value)

/-- **A text without escapes is laid out as the document that is read from it**, unless this has
other leaves than strings. -/
theorem exists_laidOut {source : String} {json : Json} (parsed : Json.ofText? source = some json)
    (unescaped : '\\' ∉ source.toList) (atomless : ∀ value, Token.atom value ∉ plainTokens json) :
    ∃ sites, LaidOut 0 source.toList (tokens none json) sites :=
  exists_laidOut_of_scan unescaped atomless (lex_of_ofText? parsed) isGap_nil 0

/-! ## Strings of a text -/

/-- The strings among tokens, each with the name of the member in whose value it stands. -/
def strings (ts : List Placed) : List (List Char × Option (List Char)) :=
  ts.filterMap fun
    | (.text raw, member) => some (raw, member)
    | _ => none

theorem LaidOut.map_sites {offset : Nat} {cs : List Char} {ts : List Placed} {sites : List Site}
    (h : LaidOut offset cs ts sites) : sites.map (fun s => (s.raw, s.member)) = strings ts := by
  induction h with
  | done blank => rfl
  | mark blank spelled next ih =>
    rcases ofMark?_cases spelled with
      ⟨-, rfl⟩ | ⟨-, rfl⟩ | ⟨-, rfl⟩ | ⟨-, rfl⟩ | ⟨-, rfl⟩ | ⟨-, rfl⟩ <;> exact ih
  | text blank plain next ih =>
    rw [List.map_cons, ih]
    rfl

theorem LaidOut.plain {offset : Nat} {cs : List Char} {ts : List Placed} {sites : List Site}
    (h : LaidOut offset cs ts sites) : ∀ p ∈ strings ts, Plain p.1 := by
  rw [← h.map_sites, List.forall_mem_map]
  induction h with
  | done blank => exact List.forall_mem_nil _
  | mark blank spelled next ih => exact ih
  | text blank plain next ih => exact List.forall_mem_cons.2 ⟨plain, ih⟩

/-- The strings of a text start one after the other: induction on the tokens, with the offset below
what is still to come. -/
theorem LaidOut.increasing {offset : Nat} {cs : List Char} {ts : List Placed} {sites : List Site}
    (h : LaidOut offset cs ts sites) :
    (∀ s ∈ sites, offset < s.span.start) ∧
      sites.Pairwise fun s t => s.span.start < t.span.start := by
  induction h with
  | done blank => exact ⟨List.forall_mem_nil _, List.Pairwise.nil⟩
  | mark blank spelled next ih => exact ⟨fun s hs => by have := ih.1 s hs; omega, ih.2⟩
  | @text offset gap raw _ _ _ sites blank plain next ih =>
    have hlater : ∀ s ∈ sites, offset + byteLength gap + 1 < s.span.start := by
      intro s hs
      have := ih.1 s hs
      omega
    refine ⟨List.forall_mem_cons.2 ⟨?_, fun s hs => ?_⟩, List.pairwise_cons.2 ⟨hlater, ih.2⟩⟩
    · simp only
      omega
    · have := hlater s hs
      omega

theorem LaidOut.nodup_spans {offset : Nat} {cs : List Char} {ts : List Placed}
    {sites : List Site} (h : LaidOut offset cs ts sites) : (sites.map Site.span).Nodup := by
  rw [List.Nodup, List.pairwise_map]
  refine h.increasing.2.imp ?_
  intro s t hlt heq
  rw [heq] at hlt
  exact Nat.lt_irrefl _ hlt

/-! ## The search -/

/-- Whether a token is a mark. -/
def isMark : Token → Bool
  | .atom _ | .text _ => false
  | _ => true

/-- Tokens whose strings stand in the member that was named last. A string before a colon is a
name, and stands in no member. All other tokens are marks. -/
inductive NamedLast : Option (List Char) → List Placed → Prop where
  | done {current : Option (List Char)} : NamedLast current []
  | mark {current member : Option (List Char)} {token : Token} {ts : List Placed}
      (mark : isMark token = true) (next : NamedLast current ts) :
      NamedLast current ((token, member) :: ts)
  | name {current member : Option (List Char)} {raw : List Char} {ts : List Placed}
      (next : NamedLast (some raw) ts) :
      NamedLast current ((.text raw, none) :: (.colon, member) :: ts)
  | value {current : Option (List Char)} {raw : List Char} {ts : List Placed}
      (nameless : ts.head?.map Prod.fst ≠ some .colon) (next : NamedLast current ts) :
      NamedLast current ((.text raw, current) :: ts)

theorem NamedLast.atomless {current : Option (List Char)} {ts : List Placed}
    (h : NamedLast current ts) : ∀ value, Token.atom value ∉ ts.map Prod.fst := by
  intro value
  induction h with
  | done => simp
  | mark hmark _ ih =>
    rw [List.map_cons, List.mem_cons, not_or]
    refine ⟨?_, ih⟩
    rintro rfl
    cases hmark
  | name _ ih => simpa using ih
  | value _ _ ih => simpa using ih

theorem scan_gap {gap : List Char} (blank : IsGap gap) (offset : Nat) (cs : List Char) :
    Literal.scan offset .outside (gap ++ cs) =
      Literal.scan (offset + byteLength gap) .outside cs := by
  refine Literal.scan_gap_append (fun hquote => ?_) offset cs
  rcases isGap_cases (blank _ hquote) with h | h | h | h <;> revert h <;> decide

theorem scan_mark {c : Char} {token : Token} (spelled : Token.ofMark? c = some token)
    (offset : Nat) (cs : List Char) :
    Literal.scan offset .outside (c :: cs) = Literal.scan (offset + 1) .outside cs := by
  rcases ofMark?_cases spelled with
    ⟨rfl, -⟩ | ⟨rfl, -⟩ | ⟨rfl, -⟩ | ⟨rfl, -⟩ | ⟨rfl, -⟩ | ⟨rfl, -⟩ <;> rfl

theorem Plain.isContents {raw : List Char} (plain : Plain raw) : Literal.IsContents raw := by
  induction raw with
  | nil => exact .nil
  | cons c raw ih =>
    obtain ⟨⟨hquote, hbackslash⟩, hraw⟩ := List.forall_mem_cons.1 plain
    exact .plain hquote hbackslash (ih hraw)

theorem scan_text {raw : List Char} (plain : Plain raw) (offset : Nat) (rest : List Char) :
    Literal.scan offset .outside ('"' :: (raw ++ '"' :: rest)) =
      ⟨offset + 1, raw, rest⟩ :: Literal.scan (offset + 1 + byteLength raw + 1) .outside rest :=
  plain.isContents.scan_quote (offset + 1) rest

/-- A colon comes next in a text exactly if it is the next token. -/
theorem LaidOut.colon_iff {offset : Nat} {cs : List Char} {ts : List Placed} {sites : List Site}
    (h : LaidOut offset cs ts sites) :
    (trimStart cs).head? = some ':' ↔ ts.head?.map Prod.fst = some .colon := by
  cases h with
  | done blank =>
    rw [← List.append_nil cs, trimStart_append blank.isBlankText]
    simp [trimStart]
  | mark blank spelled next =>
    rw [trimStart_append blank.isBlankText]
    rcases ofMark?_cases spelled with
      ⟨rfl, rfl⟩ | ⟨rfl, rfl⟩ | ⟨rfl, rfl⟩ | ⟨rfl, rfl⟩ | ⟨rfl, rfl⟩ | ⟨rfl, rfl⟩ <;>
    · rw [trimStart_of_not_blank (by decide)]
      simp
  | text blank plain next =>
    rw [trimStart_append blank.isBlankText, trimStart_of_not_blank (by decide)]
    simp

theorem LaidOut.isName_iff {offset start : Nat} {raw rest : List Char} {ts : List Placed}
    {sites : List Site} (h : LaidOut offset rest ts sites) :
    (Literal.mk start raw rest).isName = true ↔ ts.head?.map Prod.fst = some .colon := by
  rw [← h.colon_iff, Literal.isName, beq_iff_eq]

/-- **The search finds the strings that declare keys**, if all strings stand in the member that was
named last: induction on the tokens. -/
theorem declaring_of_laidOut {offset : Nat} {cs : List Char} {ts : List Placed}
    {sites : List Site} (h : LaidOut offset cs ts sites) {current : Option (List Char)}
    (named : NamedLast current ts) :
    (Literal.declaring (declaresKeys current) (Literal.scan offset .outside cs)).map
        (fun l => (l.span, l.contents)) =
      (sites.filter fun s => declaresKeys s.member).map fun s => (s.span, s.raw) := by
  induction h generalizing current with
  | @done offset gap blank =>
    have hscan := scan_gap blank offset []
    rw [List.append_nil] at hscan
    rw [hscan]
    rfl
  | mark blank spelled next ih =>
    rw [scan_gap blank, scan_mark spelled]
    cases named with
    | mark _ named => exact ih named
    | name | value => rcases ofMark?_cases spelled with h | h | h | h | h | h <;> cases h.2
  | @text offset gap raw rest member ts sites blank plain next ih =>
    rw [scan_gap blank, scan_text plain, Literal.declaring]
    cases named with
    | mark hmark => cases hmark
    | name named =>
      have hname : declaresKeys (some raw) =
          (decide (raw = "key".toList) || decide (raw = "aliases".toList)) := rfl
      rw [if_pos (next.isName_iff.2 rfl), ← hname, ih (.mark rfl named)]
      rfl
    | value nameless named =>
      rw [if_neg (fun h => nameless (next.isName_iff.1 h))]
      by_cases hkeys : declaresKeys member = true
      · rw [if_pos hkeys, List.map_cons, List.filter_cons, if_pos hkeys, List.map_cons, ih named]
        rfl
      · rw [if_neg hkeys, List.filter_cons, if_neg hkeys, ih named]

end ChatCommands.Check
