import ChatCommands.Text.Blank
import ChatCommands.Text.Slice

/-!
# String literals

The string literals of a text that may be anything. They are searched for among the bytes of the
text (`Literal.spans`), and then cut out of it (`Literal.all?`). A backslash takes the byte after it
along, where a character may be cut short, and cuts are possible between characters only.

All the same the literals are those that a scan through the characters meets (`Literal.scan`), and
every cut is possible (`Literal.all?_eq_scan`): the bytes that continue a character are neither
quotes nor backslashes, so the search comes back to where the scan is.
-/

namespace ChatCommands

open Text

/-- A part of a text, in bytes from its beginning; `stop` is the first byte after it. -/
structure Span where
  start : Nat
  stop : Nat
  deriving DecidableEq, Repr

/-- A string literal: where its contents start, the contents as written, and the text after the
closing quote. -/
structure Literal where
  start : Nat
  contents : List Char
  rest : List Char
  deriving DecidableEq, Repr

namespace Literal

def span (l : Literal) : Span :=
  ⟨l.start, l.start + byteLength l.contents⟩

/-- Whether the literal names a property: a colon comes next. -/
def isName (l : Literal) : Bool :=
  (trimStart l.rest).head? == some ':'

/-! ## Literals among characters -/

/-- Where a scan for literals stands: outside of them, or inside of one that started at a known
byte. What was read of it is kept in reverse, and `escaped` tells that a backslash came last. -/
inductive Place where
  | outside
  | inside (start : Nat) (escaped : Bool) (read : List Char)

/-- The literals of a text, the first character of which has the given offset. A quote after a
backslash does not close a literal, and one that is never closed is not there. -/
def scan (offset : Nat) : Place → List Char → List Literal
  | _, [] => []
  | .outside, c :: cs =>
    let next := offset + c.utf8Size
    if c = '"' then scan next (.inside next false []) cs else scan next .outside cs
  | .inside start true read, c :: cs =>
    scan (offset + c.utf8Size) (.inside start false (c :: read)) cs
  | .inside start false read, c :: cs =>
    let next := offset + c.utf8Size
    if c = '"' then ⟨start, read.reverse, cs⟩ :: scan next .outside cs
    else scan next (.inside start (c = '\\') (c :: read)) cs

/-! ## Literals among bytes -/

/-- The spans of the literals among bytes, the first of which has the given index. If they begin
inside of a literal, it is known where that starts. There, the next quote closes it, and a backslash
takes the byte after it along, whatever that is. -/
def spans (index : Nat) : Option Nat → List UInt8 → List Span
  | _, [] => []
  | none, b :: bs =>
    if b = 0x22 then spans (index + 1) (some (index + 1)) bs else spans (index + 1) none bs
  | some start, b :: bs =>
    if b = 0x22 then ⟨start, index⟩ :: spans (index + 1) none bs
    else if b = 0x5C then
      match bs with
      | [] => []
      | _ :: bs => spans (index + 2) (some start) bs
    else spans (index + 1) (some start) bs

/-- The literal at a span, if the text can be cut where its contents start, where they stop and
after the byte that comes next. -/
def at? (source : List Char) (span : Span) : Option Literal :=
  (slice? span.start span.stop source).bind fun contents =>
    (cutAt? (span.stop + 1) source).map fun parts => ⟨span.start, contents, parts.2⟩

/-- The string literals of a text, if it can be cut at all of them. -/
def all? (source : List Char) : Option (List Literal) :=
  (spans 0 none (bytes source)).mapM (at? source)

/-! ## What is found -/

theorem spans_outside_append {piece : List UInt8} (quote : 0x22 ∉ piece) (index : Nat)
    (bs : List UInt8) : spans index none (piece ++ bs) = spans (index + piece.length) none bs := by
  induction piece generalizing index with
  | nil => rfl
  | cons b piece ih =>
    rw [List.mem_cons, not_or] at quote
    rw [List.cons_append, spans, if_neg (Ne.symm quote.1), ih quote.2, List.length_cons,
      Nat.add_right_comm, Nat.add_assoc]

theorem spans_inside_append {piece : List UInt8} (quote : 0x22 ∉ piece) (backslash : 0x5C ∉ piece)
    (index start : Nat) (bs : List UInt8) :
    spans index (some start) (piece ++ bs) = spans (index + piece.length) (some start) bs := by
  induction piece generalizing index with
  | nil => rfl
  | cons b piece ih =>
    rw [List.mem_cons, not_or] at quote backslash
    rw [List.cons_append, spans.eq_def]
    simp only [if_neg (Ne.symm quote.1), if_neg (Ne.symm backslash.1)]
    rw [ih quote.2 backslash.2, List.length_cons, Nat.add_right_comm, Nat.add_assoc]

theorem spans_quote (index start : Nat) (bs : List UInt8) :
    spans index (some start) (0x22 :: bs) = ⟨start, index⟩ :: spans (index + 1) none bs := by
  rw [spans.eq_def]
  rfl

theorem spans_backslash (index start : Nat) (bs : List UInt8) :
    spans index (some start) (0x5C :: bs) = spans (index + 2) (some start) bs.tail := by
  cases bs <;> rfl

/-- What is left to find among the bytes of a text when a scan through its characters has come to a
place. After a backslash, the first byte of the next character is behind the search already. -/
def Place.search (offset : Nat) (cs : List Char) : Place → List Span
  | .outside => spans offset none (bytes cs)
  | .inside start false _ => spans offset (some start) (bytes cs)
  | .inside start true _ => spans (offset + 1) (some start) (bytes cs).tail

theorem Place.search_outside_cons {c : Char} (quote : c ≠ '"') (offset : Nat) (cs : List Char) :
    Place.outside.search offset (c :: cs) = Place.outside.search (offset + c.utf8Size) cs := by
  simp only [Place.search]
  rw [bytes_cons, spans_outside_append (not_mem_utf8EncodeChar quote (by decide)),
    String.length_utf8EncodeChar]

theorem Place.search_inside_cons {c : Char} (quote : c ≠ '"') (backslash : c ≠ '\\')
    (offset start : Nat) (read cs : List Char) :
    (Place.inside start false read).search offset (c :: cs) =
      (Place.inside start false (c :: read)).search (offset + c.utf8Size) cs := by
  simp only [Place.search]
  rw [bytes_cons, spans_inside_append (not_mem_utf8EncodeChar quote (by decide))
    (not_mem_utf8EncodeChar backslash (by decide)), String.length_utf8EncodeChar]

/-- Nothing is missed where a character is cut short: the bytes that continue it are neither quotes
nor backslashes. -/
theorem Place.search_escaped_cons (c : Char) (offset start : Nat) (read cs : List Char) :
    (Place.inside start true read).search offset (c :: cs) =
      (Place.inside start false (c :: read)).search (offset + c.utf8Size) cs := by
  have hsize := String.length_utf8EncodeChar c
  have hpos := c.utf8Size_pos
  have hne : String.utf8EncodeChar c ≠ [] := by
    intro hnil
    rw [hnil, List.length_nil] at hsize
    omega
  have hlength : offset + 1 + (String.utf8EncodeChar c).tail.length = offset + c.utf8Size := by
    rw [List.length_tail, hsize]
    omega
  simp only [Place.search]
  rw [bytes_cons, List.tail_append_of_ne_nil hne,
    spans_inside_append (not_mem_tail_utf8EncodeChar c (by decide))
      (not_mem_tail_utf8EncodeChar c (by decide)), hlength]

/-- The place that a scan has come to in a text of which `cs` is still to be read. -/
def Place.IsIn (source : List Char) (offset : Nat) (cs : List Char) : Place → Prop
  | .outside => ∃ before, source = before ++ cs ∧ byteLength before = offset
  | .inside start _ read => ∃ before, source = before ++ '"' :: (read.reverse ++ cs) ∧
      byteLength before + 1 = start ∧ start + byteLength read = offset

/-- A literal that stands between two quotes of a text. -/
def IsQuoted (source : List Char) (l : Literal) : Prop :=
  ∃ before, source = before ++ '"' :: (l.contents ++ '"' :: l.rest) ∧
    byteLength before + 1 = l.start

section

variable {source cs : List Char} {c : Char} {offset start : Nat} {escaped : Bool}
  {read : List Char} {place : Place}

theorem Place.IsIn.skip (h : Place.outside.IsIn source offset (c :: cs)) :
    Place.outside.IsIn source (offset + c.utf8Size) cs := by
  obtain ⟨before, rfl, rfl⟩ := h
  exact ⟨before ++ [c], by simp, by simp [byteLength]⟩

theorem Place.IsIn.enter (h : Place.outside.IsIn source offset ('"' :: cs)) :
    (Place.inside (offset + 1) false []).IsIn source (offset + 1) cs := by
  obtain ⟨before, rfl, rfl⟩ := h
  exact ⟨before, rfl, rfl, rfl⟩

theorem Place.IsIn.stay (h : (Place.inside start escaped read).IsIn source offset (c :: cs))
    (next : Bool) : (Place.inside start next (c :: read)).IsIn source (offset + c.utf8Size) cs := by
  obtain ⟨before, rfl, rfl, rfl⟩ := h
  exact ⟨before, by simp, rfl, by rw [byteLength]; omega⟩

theorem Place.IsIn.leave (h : (Place.inside start escaped read).IsIn source offset ('"' :: cs)) :
    IsQuoted source ⟨start, read.reverse, cs⟩ ∧ start + byteLength read = offset ∧
      Place.outside.IsIn source (offset + 1) cs := by
  obtain ⟨before, rfl, rfl, rfl⟩ := h
  have hone : byteLength ['"'] = 1 := rfl
  refine ⟨⟨before, rfl, rfl⟩, rfl, before ++ ['"'] ++ read.reverse ++ ['"'], by simp, ?_⟩
  rw [byteLength_append, byteLength_append, byteLength_append, byteLength_reverse, hone]

/-- **The search through bytes finds what a scan through characters meets**: induction on the
characters that are left. -/
theorem map_span_scan (h : place.IsIn source offset cs) :
    (scan offset place cs).map span = place.search offset cs := by
  induction cs generalizing offset place with
  | nil =>
    rw [scan]
    cases place with
    | outside => rfl
    | inside start escaped read => cases escaped <;> rfl
  | cons c cs ih =>
    cases place with
    | outside =>
      by_cases hquote : c = '"'
      · subst hquote
        exact ih h.enter
      · rw [Place.search_outside_cons hquote, scan, if_neg hquote]
        exact ih h.skip
    | inside start escaped read =>
      cases escaped with
      | true =>
        rw [Place.search_escaped_cons, scan]
        exact ih (h.stay false)
      | false =>
        by_cases hquote : c = '"'
        · subst hquote
          obtain ⟨-, hstop, hout⟩ := h.leave
          have hsearch : (Place.inside start false read).search offset ('"' :: cs) =
              ⟨start, offset⟩ :: Place.outside.search (offset + 1) cs := spans_quote ..
          rw [hsearch, ← ih hout, ← hstop, ← byteLength_reverse read]
          rfl
        by_cases hbackslash : c = '\\'
        · subst hbackslash
          have hsearch : (Place.inside start false read).search offset ('\\' :: cs) =
              (Place.inside start true ('\\' :: read)).search (offset + 1) cs :=
            spans_backslash ..
          rw [hsearch]
          exact ih (h.stay true)
        · rw [Place.search_inside_cons hquote hbackslash, scan, if_neg hquote,
            decide_eq_false hbackslash]
          exact ih (h.stay false)

/-- What a scan meets stands between quotes: induction on the characters that are left. -/
theorem isQuoted_of_mem_scan (h : place.IsIn source offset cs) :
    ∀ l ∈ scan offset place cs, IsQuoted source l := by
  induction cs generalizing offset place with
  | nil =>
    rw [scan]
    exact List.forall_mem_nil _
  | cons c cs ih =>
    cases place with
    | outside =>
      rw [scan]
      split
      · next hquote =>
        subst hquote
        exact ih h.enter
      · exact ih h.skip
    | inside start escaped read =>
      cases escaped with
      | true => exact ih (h.stay false)
      | false =>
        rw [scan]
        split
        · next hquote =>
          subst hquote
          obtain ⟨hquoted, -, hout⟩ := h.leave
          exact List.forall_mem_cons.2 ⟨hquoted, ih hout⟩
        · exact ih (h.stay _)

/-- The cuts at both ends of a literal. -/
theorem IsQuoted.cuts {l : Literal} (h : IsQuoted source l) :
    ∃ before, source = before ++ ['"'] ++ l.contents ++ '"' :: l.rest ∧
      byteLength before + 1 = l.span.start ∧ byteLength (before ++ ['"']) = l.span.start ∧
      byteLength (before ++ ['"'] ++ l.contents) = l.span.stop := by
  obtain ⟨before, rfl, hstart⟩ := h
  have hopened : byteLength (before ++ ['"']) = l.span.start := by
    rw [byteLength_append]
    exact hstart
  refine ⟨before, by simp, hstart, hopened, ?_⟩
  rw [byteLength_append, hopened]
  rfl

/-- A literal between quotes can be cut out. -/
theorem IsQuoted.at?_span {l : Literal} (h : IsQuoted source l) : at? source l.span = some l := by
  obtain ⟨before, hsource, -, hopened, hstop⟩ := h.cuts
  have hslice : slice? l.span.start l.span.stop source = some l.contents := by
    have hcut := slice?_append (before ++ ['"']) l.contents ('"' :: l.rest)
    rwa [← byteLength_append, hopened, hstop, ← List.append_assoc, ← hsource] at hcut
  have hrest : cutAt? (l.span.stop + 1) source =
      some (before ++ ['"'] ++ l.contents ++ ['"'], l.rest) := by
    refine cutAt?_eq_some_iff.2 ⟨by simp [hsource], ?_⟩
    rw [byteLength_append, hstop]
    rfl
  rw [at?, hslice, Option.bind_some, hrest]
  rfl

theorem mapM_at?_span {ls : List Literal} (h : ∀ l ∈ ls, IsQuoted source l) :
    (ls.map span).mapM (at? source) = some ls := by
  induction ls with
  | nil => rfl
  | cons l ls ih =>
    obtain ⟨hl, hls⟩ := List.forall_mem_cons.1 h
    rw [List.map_cons, List.mapM_cons, hl.at?_span, ih hls]
    rfl

end

/-- **Every cut is possible**, and what is cut out are the literals that a scan through the
characters meets. -/
theorem all?_eq_scan (source : List Char) : all? source = some (scan 0 .outside source) := by
  have hstart : Place.outside.IsIn source 0 source := ⟨[], rfl, rfl⟩
  have hspans : (scan 0 .outside source).map span = spans 0 none (bytes source) :=
    map_span_scan hstart
  rw [all?, ← hspans]
  exact mapM_at?_span (isQuoted_of_mem_scan hstart)

/-- The string literals of a text. -/
def all (source : List Char) : List Literal :=
  (all? source).get (by rw [all?_eq_scan, Option.isSome_some])

theorem all_eq_scan (source : List Char) : all source = scan 0 .outside source := by
  simp only [all, all?_eq_scan, Option.get_some]

end Literal

end ChatCommands
