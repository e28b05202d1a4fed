import ChatCommands.Template
import ChatCommands.Text.Numeral
import Mathlib.Data.List.Basic
import Mathlib.Data.List.TakeWhile

/-!
# The pieces of a template

A template falls into places and characters that stand for themselves in one way only, which
depends on the number of arguments but not on what they are: every place that could be filled is a
piece (`Template.Reading`). Filling a template puts the arguments in the places and copies the rest
(`Template.filled_piece_by_piece`), so that nothing of an argument is ever read as a place.

A template either starts with a place or with a character that stands for itself. All inductions
here follow this alternative (`Template.reading_induction`).
-/

namespace ChatCommands.Template

open Text

/-! ## Places -/

/-- Digits that denote a number below `count`. -/
structure Numbers (count : Nat) (digits : List Char) : Prop where
  present : digits ≠ []
  decimal : ∀ c ∈ digits, c.isDigit = true
  small : digitsValue 0 digits < count

/-- A place as it is written: digits in braces. -/
def placeText (digits : List Char) : List Char :=
  '\x7b' :: (digits ++ ['\x7d'])

/-- Whether a text starts with a place that one of `count` arguments fills. -/
def StartsWithPlace (count : Nat) (text : List Char) : Prop :=
  ∃ digits rest, Numbers count digits ∧ text = placeText digits ++ rest

theorem placeText_append (digits rest : List Char) :
    placeText digits ++ rest = '\x7b' :: (digits ++ '\x7d' :: rest) := by
  simp [placeText]

theorem ne_of_isDigit {c d : Char} (hc : c.isDigit = true) (hd : d.isDigit = false) : c ≠ d := by
  rintro rfl
  rw [hc] at hd
  cases hd

/-- Digits end where a character is no digit. -/
theorem takeWhile_digits {digits rest : List Char} {c : Char}
    (hdigits : ∀ d ∈ digits, d.isDigit = true) (hc : c.isDigit = false) :
    (digits ++ c :: rest).takeWhile Char.isDigit = digits := by
  rw [List.takeWhile_append_of_pos hdigits, List.takeWhile_cons_of_neg (by simp [hc]),
    List.append_nil]

/-- A text starts with at most one place. -/
theorem placeText_append_inj {count : Nat} {digits digits' rest rest' : List Char}
    (h : Numbers count digits) (h' : Numbers count digits')
    (heq : placeText digits ++ rest = placeText digits' ++ rest') :
    digits = digits' ∧ rest = rest' := by
  rw [placeText_append, placeText_append, List.cons_inj_right] at heq
  have hdigits : digits = digits' := by
    rw [← takeWhile_digits h.decimal (by decide : '\x7d'.isDigit = false), heq,
      takeWhile_digits h'.decimal (by decide)]
  subst hdigits
  exact ⟨rfl, (List.cons_inj_right _).1 (List.append_cancel_left heq)⟩

/-- A place that is found behind the beginning of another one is found behind all of it. -/
theorem behind_place {count : Nat} {digits digits' rest before rest' : List Char} {c : Char}
    (h : Numbers count digits)
    (heq : placeText digits ++ rest = (c :: before) ++ (placeText digits' ++ rest')) :
    ∃ between, c :: before = placeText digits ++ between ∧
      rest = between ++ (placeText digits' ++ rest') := by
  rcases List.append_eq_append_iff.1 heq with ⟨between, hbefore, hrest⟩ | ⟨within, hplace, hrest⟩
  · exact ⟨between, hbefore, hrest⟩
  cases within with
  | nil =>
    rw [List.append_nil] at hplace
    exact ⟨[], by rw [List.append_nil, hplace], hrest.symm⟩
  | cons d within =>
    -- a place has no opening brace but its first
    rw [placeText_append] at hrest
    obtain ⟨rfl, -⟩ := List.cons_eq_cons.1 hrest
    rw [placeText, List.cons_append] at hplace
    obtain ⟨-, htail⟩ := List.cons_eq_cons.1 hplace
    have hbrace : '\x7b' ∈ digits ++ ['\x7d'] := by
      rw [htail]
      exact List.mem_append_right _ List.mem_cons_self
    rcases List.mem_append.1 hbrace with hdigit | hclosing
    · exact absurd (h.decimal _ hdigit) (by decide)
    · exact absurd (List.mem_singleton.1 hclosing) (by decide)

/-- A template is empty, starts with a place, or starts with a character that stands for itself. -/
theorem reading_induction (count : Nat) {motive : List Char → Prop} (nil : motive [])
    (place : ∀ digits rest, Numbers count digits → motive rest → motive (placeText digits ++ rest))
    (plain : ∀ c rest, ¬ StartsWithPlace count (c :: rest) → motive rest → motive (c :: rest))
    (text : List Char) : motive text := by
  induction hn : text.length using Nat.strongRecOn generalizing text with
  | ind n ih =>
    cases text with
    | nil => exact nil
    | cons c rest =>
      by_cases hstart : StartsWithPlace count (c :: rest)
      · obtain ⟨digits, rest', hdigits, htext⟩ := hstart
        rw [htext] at hn ⊢
        refine place digits rest' hdigits (ih rest'.length ?_ rest' rfl)
        rw [← hn, List.length_append, placeText, List.length_cons]
        omega
      · refine plain c rest hstart (ih rest.length ?_ rest rfl)
        rw [← hn, List.length_cons]
        omega

/-! ## Pieces -/

/-- A piece of a template: a character that stands for itself, or a place with its digits. -/
inductive Piece where
  | plain (c : Char)
  | place (digits : List Char)
  deriving DecidableEq, Repr

namespace Piece

/-- The piece as it stands in the template. -/
def written : Piece → List Char
  | plain c => [c]
  | place digits => placeText digits

/-- What becomes of the piece: a place is taken by the argument of its number. -/
def filled (args : List (List Char)) : Piece → List Char
  | plain c => [c]
  | place digits => args[digitsValue 0 digits]?.getD []

theorem written_ne_nil (piece : Piece) : piece.written ≠ [] := by
  cases piece <;> exact List.cons_ne_nil _ _

theorem eq_nil_of_written {pieces : List Piece} (h : pieces.flatMap written = []) :
    pieces = [] := by
  cases pieces with
  | nil => rfl
  | cons piece ps =>
    exact absurd (List.flatMap_eq_nil_iff.1 h piece List.mem_cons_self) piece.written_ne_nil

end Piece

/-- A text falls into pieces for a number of arguments: each place has the number of an argument,
and wherever the text holds such a place, this is a piece. -/
structure Reading (count : Nat) (text : List Char) (pieces : List Piece) : Prop where
  text_eq : pieces.flatMap Piece.written = text
  numbered : ∀ digits, .place digits ∈ pieces → Numbers count digits
  every : ∀ before digits rest, Numbers count digits → text = before ++ (placeText digits ++ rest) →
    ∃ ps qs, pieces = ps ++ .place digits :: qs ∧
      ps.flatMap Piece.written = before ∧ qs.flatMap Piece.written = rest

section Reading

variable {count : Nat} {c : Char} {digits rest : List Char} {pieces : List Piece}

theorem reading_nil_iff : Reading count [] pieces ↔ pieces = [] := by
  constructor
  · intro h
    exact Piece.eq_nil_of_written h.text_eq
  · rintro rfl
    refine ⟨rfl, by simp, ?_⟩
    intro before digits rest _ htext
    rw [placeText_append] at htext
    exact absurd htext.symm (List.append_ne_nil_of_right_ne_nil _ (List.cons_ne_nil _ _))

/-- What is read of the text behind the first piece. -/
theorem Reading.tail (piece : Piece) {text : List Char}
    (h : Reading count (piece.written ++ text) (piece :: pieces)) : Reading count text pieces where
  text_eq := by
    have htext := h.text_eq
    rw [List.flatMap_cons] at htext
    exact List.append_cancel_left htext
  numbered digits hmem := h.numbered digits (List.mem_cons_of_mem _ hmem)
  every before digits rest hdigits htext := by
    obtain ⟨ps, qs, hpieces, hbefore, hrest⟩ :=
      h.every (piece.written ++ before) digits rest hdigits (by rw [htext, List.append_assoc])
    cases ps with
    | nil =>
      have hnil := List.append_eq_nil_iff.1 hbefore.symm
      exact absurd hnil.1 piece.written_ne_nil
    | cons first ps =>
      obtain ⟨rfl, rfl⟩ := List.cons_eq_cons.1 hpieces
      rw [List.flatMap_cons] at hbefore
      exact ⟨ps, qs, rfl, List.append_cancel_left hbefore, hrest⟩

/-- A piece before a text that is read, if every place in both of them together is this piece or
behind all of it. -/
theorem Reading.cons (piece : Piece) (h : Reading count rest pieces)
    (hpiece : ∀ digits, piece = .place digits → Numbers count digits)
    (hplace : ∀ before digits rest', Numbers count digits →
      piece.written ++ rest = before ++ (placeText digits ++ rest') →
      (before = [] ∧ piece = .place digits ∧ rest = rest') ∨
      ∃ between, before = piece.written ++ between ∧
        rest = between ++ (placeText digits ++ rest')) :
    Reading count (piece.written ++ rest) (piece :: pieces) where
  text_eq := by rw [List.flatMap_cons, h.text_eq]
  numbered digits hmem := by
    rcases List.mem_cons.1 hmem with heq | hmem
    · exact hpiece digits heq.symm
    · exact h.numbered digits hmem
  every before digits rest' hdigits htext := by
    rcases hplace before digits rest' hdigits htext with
      ⟨rfl, rfl, rfl⟩ | ⟨between, rfl, hrest⟩
    · exact ⟨[], pieces, rfl, rfl, h.text_eq⟩
    · obtain ⟨ps, qs, rfl, hps, hqs⟩ := h.every between digits rest' hdigits hrest
      refine ⟨piece :: ps, qs, rfl, ?_, hqs⟩
      rw [List.flatMap_cons, hps]

/-- A place at the beginning is the first piece. -/
theorem reading_place_iff (hdigits : Numbers count digits) :
    Reading count (placeText digits ++ rest) pieces ↔
      ∃ ps, pieces = .place digits :: ps ∧ Reading count rest ps := by
  constructor
  · intro h
    obtain ⟨ps, qs, rfl, hbefore, -⟩ := h.every [] digits rest hdigits rfl
    obtain rfl := Piece.eq_nil_of_written hbefore
    exact ⟨qs, rfl, Reading.tail (.place digits) h⟩
  · rintro ⟨ps, rfl, h⟩
    refine Reading.cons (.place digits) h ?_ ?_
    · rintro _ ⟨⟩
      exact hdigits
    · intro before digits' rest' hdigits' htext
      cases before with
      | nil =>
        obtain ⟨rfl, rfl⟩ := placeText_append_inj hdigits hdigits' htext
        exact Or.inl ⟨rfl, rfl, rfl⟩
      | cons c before => exact Or.inr (behind_place hdigits htext)

/-- Without a place at the beginning, the first piece is a character. -/
theorem reading_plain_iff (hstart : ¬ StartsWithPlace count (c :: rest)) :
    Reading count (c :: rest) pieces ↔ ∃ ps, pieces = .plain c :: ps ∧ Reading count rest ps := by
  constructor
  · intro h
    cases pieces with
    | nil => cases h.text_eq
    | cons piece ps =>
      have htext := h.text_eq
      rw [List.flatMap_cons] at htext
      cases piece with
      | plain d =>
        obtain ⟨rfl, -⟩ := List.cons_eq_cons.1 htext
        exact ⟨ps, rfl, Reading.tail (.plain d) h⟩
      | place digits =>
        exact absurd ⟨digits, _, h.numbered digits List.mem_cons_self, htext.symm⟩ hstart
  · rintro ⟨ps, rfl, h⟩
    refine Reading.cons (.plain c) h ?_ ?_
    · rintro _ ⟨⟩
    · intro before digits rest' hdigits htext
      cases before with
      | nil => exact absurd ⟨digits, rest', hdigits, htext⟩ hstart
      | cons d before =>
        obtain ⟨rfl, hrest⟩ := List.cons_eq_cons.1 htext
        exact Or.inr ⟨before, rfl, hrest⟩

end Reading

/-- Every text falls into pieces in exactly one way. -/
theorem existsUnique_reading (count : Nat) (text : List Char) :
    ∃ pieces, Reading count text pieces ∧ ∀ other, Reading count text other → other = pieces := by
  induction text using reading_induction count with
  | nil => exact ⟨[], reading_nil_iff.2 rfl, fun other h => reading_nil_iff.1 h⟩
  | place digits rest hdigits ih =>
    obtain ⟨ps, hps, hunique⟩ := ih
    refine ⟨.place digits :: ps, (reading_place_iff hdigits).2 ⟨ps, rfl, hps⟩, ?_⟩
    intro other h
    obtain ⟨ps', rfl, hps'⟩ := (reading_place_iff hdigits).1 h
    rw [hunique ps' hps']
  | plain c rest hstart ih =>
    obtain ⟨ps, hps, hunique⟩ := ih
    refine ⟨.plain c :: ps, (reading_plain_iff hstart).2 ⟨ps, rfl, hps⟩, ?_⟩
    intro other h
    obtain ⟨ps', rfl, hps'⟩ := (reading_plain_iff hstart).1 h
    rw [hunique ps' hps']

/-! ## Filling -/

section Filling

variable {args : List (List Char)}

theorem digitsValue_placeNumber (read digits : List Char) :
    digitsValue (placeNumber read) digits = placeNumber (digits.reverse ++ read) := by
  induction digits generalizing read with
  | nil => rfl
  | cons c cs ih =>
    rw [List.reverse_cons, List.append_assoc, List.singleton_append, ← ih, placeNumber,
      Nat.mul_comm (placeNumber read)]
    rfl

/-- Digits that are kept in reverse denote the same number. -/
theorem placeNumber_reverse (digits : List Char) :
    placeNumber digits.reverse = digitsValue 0 digits := by
  have hread := digitsValue_placeNumber [] digits
  rw [List.append_nil] at hread
  exact hread.symm

/-- Digits after an opening brace are kept until it is known what they are for. -/
theorem fillFrom_digits {digits : List Char} (h : ∀ c ∈ digits, c.isDigit = true)
    (read text : List Char) : fillFrom args (some read) (digits ++ text) =
      fillFrom args (some (digits.reverse ++ read)) text := by
  induction digits generalizing read with
  | nil => rfl
  | cons c cs ih =>
    obtain ⟨hc, hcs⟩ := List.forall_mem_cons.1 h
    rw [List.cons_append, fillFrom, if_pos hc, ih hcs, List.reverse_cons, List.append_assoc,
      List.singleton_append]

theorem fillFrom_brace {digits : List Char} (h : ∀ c ∈ digits, c.isDigit = true)
    (text : List Char) : fillFrom args none ('\x7b' :: (digits ++ text)) =
      fillFrom args (some digits.reverse) text := by
  rw [fillFrom, if_pos rfl, fillFrom_digits h, List.append_nil]

/-- Text without an opening brace is copied. -/
theorem fillFrom_plain {cs : List Char} (h : ∀ c ∈ cs, c ≠ '\x7b') (text : List Char) :
    fillFrom args none (cs ++ text) = cs ++ fillFrom args none text := by
  induction cs with
  | nil => rfl
  | cons c cs ih =>
    obtain ⟨hc, hcs⟩ := List.forall_mem_cons.1 h
    rw [List.cons_append, fillFrom, if_neg hc, ih hcs, List.cons_append]

/-- A brace with digits is copied if the place is not closed after them or is not that of an
argument, and then the text is read on from there. -/
theorem fillFrom_unfilled {read text : List Char} (hend : ∀ c ∈ text.head?, c.isDigit = false)
    (hopen : ∀ rest, text = '\x7d' :: rest → read ≠ [] → args[placeNumber read]? = none) :
    fillFrom args (some read) text = '\x7b' :: (read.reverse ++ fillFrom args none text) := by
  cases text with
  | nil => simp [fillFrom]
  | cons c rest =>
    have hc : c.isDigit = false := hend c rfl
    by_cases hbrace : c = '\x7b'
    · subst hbrace
      simp [fillFrom]
    by_cases hclosed : c = '\x7d' ∧ read ≠ []
    · obtain ⟨rfl, hread⟩ := hclosed
      simp [fillFrom, hopen rest rfl hread]
    · have hfalse : (c = '\x7d' && !read.isEmpty) = false := by simpa using hclosed
      simp [fillFrom, hc, hbrace, hfalse]

/-- A place is taken by its argument, whatever this holds. -/
theorem fillFrom_place {digits : List Char} (h : Numbers args.length digits) (rest : List Char) :
    fillFrom args none (placeText digits ++ rest) =
      (Piece.place digits).filled args ++ fillFrom args none rest := by
  rw [placeText_append, fillFrom_brace h.decimal, fillFrom, if_neg (by decide),
    placeNumber_reverse, Piece.filled, List.getElem?_eq_getElem h.small]
  simp [h.present]

/-- A character that does not begin a place is copied. -/
theorem fillFrom_start {c : Char} {rest : List Char}
    (hstart : ¬ StartsWithPlace args.length (c :: rest)) :
    fillFrom args none (c :: rest) = c :: fillFrom args none rest := by
  by_cases hc : c = '\x7b'
  · subst hc
    let digits := rest.takeWhile Char.isDigit
    have hdigits : ∀ d ∈ digits, d.isDigit = true :=
      fun d hd => List.all_eq_true.1 List.all_takeWhile d hd
    have hrest : digits ++ rest.dropWhile Char.isDigit = rest := List.takeWhile_append_dropWhile
    rw [← hrest, fillFrom_brace hdigits, fillFrom_unfilled ?_ ?_, List.reverse_reverse,
      fillFrom_plain fun d hd => ne_of_isDigit (hdigits d hd) (by decide)]
    · intro d hd
      have hhead := List.head?_dropWhile_not Char.isDigit rest
      rw [Option.mem_def.1 hd] at hhead
      simpa using hhead
    · -- a closed place that is copied has the number of no argument
      intro after hafter hsome
      rw [List.getElem?_eq_none_iff, placeNumber_reverse]
      by_contra hlt
      refine hstart ⟨digits, after, ⟨by simpa using hsome, hdigits, Nat.lt_of_not_le hlt⟩, ?_⟩
      rw [placeText_append, ← hafter, hrest]
  · rw [fillFrom, if_neg hc]

/-- Filling goes piece by piece. -/
theorem fillFrom_of_reading {text : List Char} {pieces : List Piece}
    (h : Reading args.length text pieces) :
    fillFrom args none text = pieces.flatMap (Piece.filled args) := by
  induction text using reading_induction args.length generalizing pieces with
  | nil =>
    rw [reading_nil_iff.1 h]
    rfl
  | place digits rest hdigits ih =>
    obtain ⟨ps, rfl, hps⟩ := (reading_place_iff hdigits).1 h
    rw [fillFrom_place hdigits, ih hps, List.flatMap_cons]
  | plain c rest hstart ih =>
    obtain ⟨ps, rfl, hps⟩ := (reading_plain_iff hstart).1 h
    rw [fillFrom_start hstart, ih hps, List.flatMap_cons]
    rfl

end Filling

/-- Without arguments there is nothing to fill in. -/
theorem fill_nil (template : String) : fill template [] = template := by
  obtain ⟨pieces, hpieces, -⟩ := existsUnique_reading 0 template.toList
  have hcopied : ∀ piece ∈ pieces, piece.filled [] = piece.written := by
    intro piece hmem
    cases piece with
    | plain c => rfl
    | place digits => exact absurd (hpieces.numbered digits hmem).small (Nat.not_lt_zero _)
  have hfilled : fillFrom [] none template.toList = pieces.flatMap (Piece.filled []) :=
    fillFrom_of_reading hpieces
  rw [fill, List.map_nil, hfilled, List.flatMap_congr hcopied, hpieces.text_eq,
    String.ofList_toList]

/-- A number of so many arguments can be read in 64 bits. -/
theorem Numbers.ofDigits?_eq {count : Nat} {digits : List Char} (h : Numbers count digits)
    (hcount : count ≤ maxWord64) : ofDigits? maxWord64 digits = some (digitsValue 0 digits) := by
  have hdecimal : digits.all Char.isDigit = true := List.all_eq_true.2 h.decimal
  have hle : digitsValue 0 digits ≤ maxWord64 := by
    have hsmall := h.small
    omega
  rw [ofDigits?, if_neg (by simp [h.present, hdecimal]), if_pos hle]

/-- **Filled in one pass.** Every template falls into pieces in one way, which the number of
arguments decides and nothing else about them: the places with the number of an argument, wherever
they are, and single characters. Filling puts each argument in its places, as it is, and leaves the
characters. No place has a number too large for 64 bits, and without arguments there is none. -/
theorem filled_piece_by_piece (template : String) (count : Nat) :
    (∃ pieces, Reading count template.toList pieces ∧
      (∀ other, Reading count template.toList other → other = pieces) ∧
      (∀ args : List String, args.length = count → (fill template args).toList =
        pieces.flatMap (Piece.filled (args.map String.toList))) ∧
      (count ≤ maxWord64 → ∀ digits, .place digits ∈ pieces →
        ofDigits? maxWord64 digits = some (digitsValue 0 digits))) ∧
    fill template [] = template := by
  obtain ⟨pieces, hpieces, hunique⟩ := existsUnique_reading count template.toList
  refine ⟨⟨pieces, hpieces, hunique, ?_, ?_⟩, fill_nil template⟩
  · rintro args rfl
    rw [fill, String.toList_ofList]
    refine fillFrom_of_reading ?_
    rwa [List.length_map]
  · intro hcount digits hmem
    exact (hpieces.numbered digits hmem).ofDigits?_eq hcount

/-- A brace before a place, digits before a brace, an argument that looks like a place, and a number
that no argument has. -/
example : fill "\x7b\x7b0\x7d \x7b12\x7b00\x7d \x7b1\x7d" ["\x7b0\x7d"] =
    "\x7b\x7b0\x7d \x7b12\x7b0\x7d \x7b1\x7d" := by
  decide

end ChatCommands.Template
