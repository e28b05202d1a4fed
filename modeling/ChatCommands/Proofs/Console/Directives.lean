import ChatCommands.Console.Directive
import ChatCommands.Proofs.Text.Decimal
import ChatCommands.Proofs.Text.Words
import Mathlib.Algebra.Group.Nat.Defs

/-!
# Directives that are read back

A line of input is read without the line ends at its end (`Directive.Strips`). Two directives name a
message: they start in their own way, and then come the number of the message, a gap and a text
(`Directive.Addresses`). Such a line is read as exactly that, and as nothing else
(`Directive.ofLine_eq_directive_iff`); a number of more than 64 bits is refused. All other lines are
blank, end the session, or are messages themselves (`Directive.ofLine_eq_message_iff`).

The number is read as a numeral in decimal digits, with or without a plus sign, so that what is
written with the digits of a number is read back (`Directive.read_as_typed`).
-/

namespace ChatCommands.Console

open Text

/-! ## The two directives with a number -/

/-- How a directive that takes a number starts. -/
def UsageError.beginning : UsageError → String
  | .edit => ":edit "
  | .reply => ":reply "

/-- What a directive asks for that has its number and its text. -/
def UsageError.directive : UsageError → Nat → String → Directive
  | .edit => .edit
  | .reply => .reply

theorem UsageError.directive_inj {usage usage' : UsageError} {id id' : Nat} {text text' : String}
    (h : usage.directive id text = usage'.directive id' text') :
    usage = usage' ∧ id = id' ∧ text = text' := by
  cases usage <;> cases usage' <;> cases h <;> exact ⟨rfl, rfl, rfl⟩

namespace Directive

/-! ## Line ends -/

/-- A text that does not end in a line end. -/
def NoLineEnd (cs : List Char) : Prop :=
  ∀ c ∈ cs.getLast?, c ≠ '\r' ∧ c ≠ '\n'

instance (cs : List Char) : Decidable (NoLineEnd cs) :=
  decidable_of_iff (cs.getLast?.all fun c => !isLineEnd c) (by
    rw [NoLineEnd]
    cases cs.getLast? <;> simp [isLineEnd])

/-- The text of a line: all of it but the line ends at its end. -/
structure Strips (line text : String) : Prop where
  split : ∃ ends, line.toList = text.toList ++ ends ∧ ∀ c ∈ ends, c = '\r' ∨ c = '\n'
  tight : NoLineEnd text.toList

theorem isLineEnd_iff {c : Char} : isLineEnd c = true ↔ c = '\r' ∨ c = '\n' := by
  simp [isLineEnd]

theorem strips_iff {line text : String} :
    Strips line text ↔ text.toList = withoutLineEnd line.toList := by
  constructor
  · rintro ⟨⟨ends, hline, hends⟩, htight⟩
    have hall : ∀ c ∈ ends, isLineEnd c = true := fun c hc => isLineEnd_iff.2 (hends c hc)
    rw [hline, withoutLineEnd, List.reverse_append,
      List.dropWhile_append_of_pos (by simpa using hall)]
    rcases List.eq_nil_or_concat' text.toList with hnil | ⟨before, c, hlast⟩
    · rw [hnil]
      rfl
    · have hc := htight c (by simp [hlast])
      rw [hlast, List.reverse_concat, List.dropWhile_cons_of_neg (by simpa [isLineEnd] using hc),
        ← List.reverse_concat, List.reverse_reverse]
  · intro htext
    have hrdrop : text.toList = line.toList.rdropWhile isLineEnd := htext
    refine ⟨⟨line.toList.rtakeWhile isLineEnd, ?_, fun c hc => ?_⟩, fun c hc => ?_⟩
    · rw [hrdrop, List.rdropWhile_append_rtakeWhile]
    · exact isLineEnd_iff.1 (List.mem_rtakeWhile_imp hc)
    · obtain ⟨hne, rfl⟩ := List.mem_getLast?_eq_getLast hc
      have hnot := List.rdropWhile_last_not isLineEnd line.toList (hrdrop ▸ hne)
      rw [isLineEnd_iff, not_or] at hnot
      simpa only [hrdrop] using hnot

theorem exists_strips (line : String) : ∃ text, Strips line text :=
  ⟨String.ofList (withoutLineEnd line.toList), strips_iff.2 String.toList_ofList⟩

theorem strips_self {line : String} (h : NoLineEnd line.toList) : Strips line line where
  split := ⟨[], by simp, by simp⟩
  tight := h

/-! ## Numbers and texts -/

/-- What follows the beginning of a directive names a message and has a text: the number is a
numeral, with or without a plus sign, and there are blanks after it. -/
structure Addresses (cs : List Char) (id : Nat) (text : String) : Prop where
  flush : NoLeadingBlank text.toList
  split : ∃ lead sign digits gap, cs = lead ++ (sign ++ digits ++ (gap ++ text.toList)) ∧
    isBlankText lead = true ∧ (sign = [] ∨ sign = ['+']) ∧ Decimal digits id ∧
    gap ≠ [] ∧ isBlankText gap = true

theorem Addresses.of_toDigits {gap : List Char} {text : String} (hne : gap ≠ [])
    (hgap : isBlankText gap = true) (flush : NoLeadingBlank text.toList) (id : Nat) :
    Addresses (Nat.toDigits 10 id ++ (gap ++ text.toList)) id text where
  flush := flush
  split := ⟨[], [], _, gap, rfl, rfl, .inl rfl, decimal_toDigits id, hne, hgap⟩

theorem not_isBlank_of_isDigit {c : Char} (h : c.isDigit = true) : isBlank c = false := by
  obtain ⟨hlo, hhi⟩ := Char.isDigit_iff_toNat.1 h
  have hzero : '0'.toNat = 48 := rfl
  have hnine : '9'.toNat = 57 := rfl
  rw [Bool.eq_false_iff]
  simp only [isBlank, ne_eq, Bool.or_eq_true, Bool.and_eq_true, decide_eq_true_eq, beq_iff_eq]
  omega

/-- The blanks before a number are skipped; the number goes to the first blank after it, and the
text starts behind the blanks there. -/
theorem target?_eq {lead number gap : List Char} {text : String}
    (hlead : isBlankText lead = true) (hnumber : ∀ c ∈ number, isBlank c = false)
    (hpresent : number ≠ []) (hne : gap ≠ []) (hgap : isBlankText gap = true)
    (hflush : NoLeadingBlank text.toList) :
    target? (lead ++ (number ++ (gap ++ text.toList))) =
      (unsigned? maxWord64 number).map fun id => (id, text) := by
  have hhead : ∀ c ∈ (gap ++ text.toList).head?, isBlank c = true := by
    intro c hc
    rw [List.head?_append_of_ne_nil gap hne] at hc
    exact List.all_eq_true.1 hgap c (List.mem_of_mem_head? hc)
  have hstart : NoLeadingBlank number := fun c hc => hnumber c (List.mem_of_mem_head? hc)
  rw [target?, trimStart_append hlead, (hstart.append hpresent _).trimStart_eq,
    word_append hnumber hhead, afterWord_append hnumber hhead, trimStart_append hgap,
    hflush.trimStart_eq, String.ofList_toList]
  rw [if_neg (by simp [hne])]

theorem target?_eq_some_iff {cs : List Char} {id : Nat} {text : String} :
    target? cs = some (id, text) ↔ Addresses cs id text ∧ id < 2 ^ 64 := by
  have hbound : id < 2 ^ 64 ↔ id ≤ maxWord64 := Nat.lt_succ_iff
  rw [hbound]
  constructor
  · intro h
    rw [target?] at h
    split at h
    · cases h
    · next hafter =>
      obtain ⟨n, hnumber, hpair⟩ := Option.map_eq_some_iff.1 h
      obtain ⟨rfl, rfl⟩ := Prod.mk.inj hpair
      obtain ⟨sign, digits, hword, hsign, hdecimal, hle⟩ := unsigned?_eq_some_iff.1 hnumber
      obtain ⟨lead, hlead, hcs⟩ := exists_trimStart cs
      obtain ⟨gap, hgap, hrest⟩ := exists_trimStart (afterWord (trimStart cs))
      refine ⟨⟨?_, lead, sign, digits, gap, ?_, hlead, hsign, hdecimal, ?_, hgap⟩, hle⟩
      · rw [String.toList_ofList]
        exact noLeadingBlank_trimStart _
      · rw [String.toList_ofList, ← hrest, ← hword, word_append_afterWord, ← hcs]
      · -- the number ends at a blank, so there is a gap
        rintro rfl
        rw [List.nil_append] at hrest
        cases hfirst : afterWord (trimStart cs) with
        | nil => exact hafter (by rw [hfirst]; rfl)
        | cons c ds =>
          have hblank := isBlank_of_afterWord hfirst
          rw [not_blank_of_trimStart (hrest.symm.trans hfirst)] at hblank
          cases hblank
  · rintro ⟨⟨hflush, lead, sign, digits, gap, rfl, hlead, hsign, hdecimal, hne, hgap⟩, hle⟩
    have hnumber : ∀ c ∈ sign ++ digits, isBlank c = false := by
      rw [List.forall_mem_append]
      refine ⟨?_, fun c hc => not_isBlank_of_isDigit (hdecimal.decimal c hc)⟩
      rcases hsign with rfl | rfl
      · exact List.forall_mem_nil _
      · exact List.forall_mem_singleton.2 (by decide)
    rw [target?_eq hlead hnumber (List.append_ne_nil_of_right_ne_nil _ hdecimal.present) hne hgap
      hflush, unsigned?_eq_some_iff.2 ⟨sign, digits, rfl, hsign, hdecimal, hle⟩, Option.map_some]

/-! ## Lines -/

/-- The text ends the session: `:quit`, with or without blanks around it. -/
def Quits (text : String) : Prop :=
  ∃ lead trail, isBlankText lead = true ∧ isBlankText trail = true ∧
    text.toList = lead ++ (":quit".toList ++ trail)

theorem quits_iff {text : String} : Quits text ↔ trim text.toList = ":quit".toList := by
  constructor
  · rintro ⟨lead, trail, hlead, htrail, htext⟩
    rw [htext, ← List.append_assoc, trim_append htrail, trim, trimStart_append hlead]
    rfl
  · intro htrim
    obtain ⟨lead, trail, hlead, htrail, htext⟩ := exists_trim text.toList
    exact ⟨lead, trail, hlead, htrail, htrim ▸ htext⟩

theorem not_isBlankText_of_beginning {usage : UsageError} {text : String} {rest : List Char}
    (h : text.toList = usage.beginning.toList ++ rest) : ¬ isBlankText text.toList = true := by
  intro hblank
  have hcolon : ':' ∈ text.toList := by cases usage <;> simp [h, UsageError.beginning]
  exact absurd (List.all_eq_true.1 hblank ':' hcolon) (by decide)

theorem not_quits_of_beginning {usage : UsageError} {text : String} {rest : List Char}
    (h : text.toList = usage.beginning.toList ++ rest) : ¬ Quits text := by
  rintro ⟨lead, trail, hlead, -, htext⟩
  rw [h] at htext
  cases lead with
  | nil => cases usage <;> simp [UsageError.beginning] at htext
  | cons c lead =>
    -- no blank stands before the colon
    have hcolon : ':' = c := by cases usage <;> exact (List.cons.inj htext).1
    exact absurd (List.all_eq_true.1 hlead c List.mem_cons_self) (hcolon ▸ by decide)

variable {line stripped : String}

/-- A line that starts like a directive with a number is this directive, or an error. -/
theorem ofLine_of_beginning (usage : UsageError) {rest : List Char} (h : Strips line stripped)
    (hrest : stripped.toList = usage.beginning.toList ++ rest) :
    ofLine line = match target? rest with
      | some (id, text) => .ok (usage.directive id text)
      | none => .error usage := by
  have hquit := mt quits_iff.2 (not_quits_of_beginning hrest)
  rw [ofLine, ← strips_iff.1 h]
  simp only [if_neg (not_isBlankText_of_beginning hrest), if_neg hquit]
  cases usage with
  | edit =>
    have hedit : after? ":edit ".toList stripped.toList = some rest := after?_eq_some_iff.2 hrest
    simp only [hedit]
    rfl
  | reply =>
    have hreply : after? ":reply ".toList stripped.toList = some rest := after?_eq_some_iff.2 hrest
    have hedit : after? ":edit ".toList stripped.toList = none := by rw [hrest]; rfl
    simp only [hedit, hreply]
    rfl

/-- What a line can be. -/
theorem ofLine_cases (h : Strips line stripped) :
    (isBlankText stripped.toList = true ∧ ofLine line = .ok .blank) ∨
    (Quits stripped ∧ ofLine line = .ok .quit) ∨
    (∃ usage : UsageError, ∃ rest, stripped.toList = usage.beginning.toList ++ rest ∧
      target? rest = none ∧ ofLine line = .error usage) ∨
    (∃ usage : UsageError, ∃ rest id text, stripped.toList = usage.beginning.toList ++ rest ∧
      target? rest = some (id, text) ∧ ofLine line = .ok (usage.directive id text)) ∨
    (¬ isBlankText stripped.toList = true ∧ ¬ Quits stripped ∧
      (∀ usage : UsageError, ¬ usage.beginning.toList <+: stripped.toList) ∧
      ofLine line = .ok (.message stripped)) := by
  by_cases hstart : ∃ usage : UsageError, usage.beginning.toList <+: stripped.toList
  · obtain ⟨usage, rest, hrest⟩ := hstart
    have hline := ofLine_of_beginning usage h hrest.symm
    cases htarget : target? rest with
    | none =>
      rw [htarget] at hline
      exact Or.inr (Or.inr (Or.inl ⟨usage, rest, hrest.symm, htarget, hline⟩))
    | some target =>
      rw [htarget] at hline
      exact Or.inr (Or.inr (Or.inr (Or.inl
        ⟨usage, rest, target.1, target.2, hrest.symm, htarget, hline⟩)))
  have hplain := not_exists.1 hstart
  have hedit : after? ":edit ".toList stripped.toList = none :=
    after?_eq_none_iff.2 (hplain .edit)
  have hreply : after? ":reply ".toList stripped.toList = none :=
    after?_eq_none_iff.2 (hplain .reply)
  rw [ofLine, ← strips_iff.1 h]
  by_cases hblank : isBlankText stripped.toList = true
  · exact Or.inl ⟨hblank, if_pos hblank⟩
  by_cases hquit : Quits stripped
  · refine Or.inr (Or.inl ⟨hquit, ?_⟩)
    simp only [if_neg hblank, if_pos (quits_iff.1 hquit)]
  · refine Or.inr (Or.inr (Or.inr (Or.inr ⟨hblank, hquit, hplain, ?_⟩)))
    simp only [if_neg hblank, if_neg (mt quits_iff.2 hquit), hedit, hreply, String.ofList_toList]

/-- **A directive is read exactly from what is typed for it**: its beginning, a number of at most
64 bits, and a text. -/
theorem ofLine_eq_directive_iff (usage : UsageError) (h : Strips line stripped) {id : Nat}
    {text : String} :
    ofLine line = .ok (usage.directive id text) ↔ id < 2 ^ 64 ∧
      ∃ rest, stripped.toList = usage.beginning.toList ++ rest ∧ Addresses rest id text := by
  constructor
  · intro hline
    rcases ofLine_cases h with ⟨-, hother⟩ | ⟨-, hother⟩ | ⟨_, _, -, -, hother⟩ |
      ⟨usage', rest, id', text', hrest, htarget, hread⟩ | ⟨-, -, -, hother⟩
    · rw [hother] at hline
      cases usage <;> cases hline
    · rw [hother] at hline
      cases usage <;> cases hline
    · rw [hother] at hline
      cases hline
    · rw [hread] at hline
      obtain ⟨rfl, rfl, rfl⟩ := UsageError.directive_inj (Except.ok.inj hline)
      obtain ⟨haddresses, hlt⟩ := target?_eq_some_iff.1 htarget
      exact ⟨hlt, rest, hrest, haddresses⟩
    · rw [hother] at hline
      cases usage <;> cases hline
  · rintro ⟨hlt, rest, hrest, haddresses⟩
    rw [ofLine_of_beginning usage h hrest, target?_eq_some_iff.2 ⟨haddresses, hlt⟩]

/-- **A line is a message exactly if it is nothing else**, and then the message is all of it. -/
theorem ofLine_eq_message_iff (h : Strips line stripped) {said : String} :
    ofLine line = .ok (.message said) ↔ said = stripped ∧
      (∃ c ∈ stripped.toList, isBlank c = false) ∧ ¬ Quits stripped ∧
      ∀ usage : UsageError, ¬ usage.beginning.toList <+: stripped.toList := by
  have hseen : ¬ isBlankText stripped.toList = true ↔ ∃ c ∈ stripped.toList, isBlank c = false := by
    simp [isBlankText]
  rw [← hseen]
  rcases ofLine_cases h with ⟨hblank, hline⟩ | ⟨hquit, hline⟩ | ⟨usage, rest, hrest, -, hline⟩ |
    ⟨usage, rest, id, text, hrest, -, hline⟩ | ⟨hblank, hquit, hplain, hline⟩
  · rw [hline]
    refine iff_of_false (fun hmessage => ?_) fun hmessage => hmessage.2.1 hblank
    cases hmessage
  · rw [hline]
    refine iff_of_false (fun hmessage => ?_) fun hmessage => hmessage.2.2.1 hquit
    cases hmessage
  · rw [hline]
    refine iff_of_false (fun hmessage => ?_) fun hmessage => hmessage.2.2.2 usage ⟨rest, hrest.symm⟩
    cases hmessage
  · rw [hline]
    refine iff_of_false (fun hmessage => ?_) fun hmessage => hmessage.2.2.2 usage ⟨rest, hrest.symm⟩
    cases usage <;> cases hmessage
  · rw [hline]
    constructor
    · intro hsame
      cases hsame
      exact ⟨rfl, hblank, hquit, hplain⟩
    · rintro ⟨rfl, -⟩
      rfl

/-! ## What is typed -/

/-- The beginning of a directive, a number in decimal digits, a gap and a text. -/
def typed (beginning : String) (id : Nat) (gap : List Char) (text : String) : String :=
  beginning ++ toString id ++ String.ofList gap ++ text

theorem toList_typed (beginning : String) (id : Nat) (gap : List Char) (text : String) :
    (typed beginning id gap text).toList =
      beginning.toList ++ (Nat.toDigits 10 id ++ (gap ++ text.toList)) := by
  simp [typed]

section Typed

variable {id : Nat} {gap : List Char} {text : String}

theorem ofLine_typed (usage : UsageError) (hid : id < 2 ^ 64) (hne : gap ≠ [])
    (hgap : isBlankText gap = true) (flush : NoLeadingBlank text.toList)
    (tight : NoLineEnd (typed usage.beginning id gap text).toList) :
    ofLine (typed usage.beginning id gap text) = .ok (usage.directive id text) :=
  (ofLine_eq_directive_iff usage (strips_self tight)).2
    ⟨hid, _, toList_typed _ _ _ _, .of_toDigits hne hgap flush id⟩

/-- A number of more than 64 bits is refused. -/
theorem ofLine_typed_of_le (usage : UsageError) (hid : 2 ^ 64 ≤ id) (hne : gap ≠ [])
    (hgap : isBlankText gap = true) (flush : NoLeadingBlank text.toList)
    (tight : NoLineEnd (typed usage.beginning id gap text).toList) :
    ofLine (typed usage.beginning id gap text) = .error usage := by
  have hdecimal := decimal_toDigits id
  have hnone : unsigned? maxWord64 (Nat.toDigits 10 id) = none := by
    rw [Option.eq_none_iff_forall_ne_some]
    intro n hn
    obtain ⟨sign, digits, hdigits, rfl | rfl, hdenoted, hle⟩ := unsigned?_eq_some_iff.1 hn
    · have hvalue : id = n := by
        rw [← hdecimal.value, hdigits, List.nil_append, hdenoted.value]
      exact absurd (hvalue ▸ hle) (Nat.not_le.2 hid)
    · exact absurd (hdecimal.decimal '+' (by simp [hdigits])) (by decide)
  have htarget : target? (Nat.toDigits 10 id ++ (gap ++ text.toList)) = none := by
    rw [← List.nil_append (Nat.toDigits 10 id ++ _), target?_eq rfl
      (fun c hc => not_isBlank_of_isDigit (hdecimal.decimal c hc)) hdecimal.present hne hgap flush,
      hnone, Option.map_none]
  rw [ofLine_of_beginning usage (strips_self tight) (toList_typed _ _ _ _), htarget]

end Typed

/-- **Directives are read as they are typed.** The number of a message and a text, typed after the
beginning of a directive, are read back; a number of more than 64 bits is refused. Every line has a
text, which is the line without the line ends at its end. A directive with a number is read from
just those texts that are made up of its beginning, a numeral for this number and a text; a message
is read, with all of its text, from just those that are not blank, do not end the session, and do
not start like a directive with a number. -/
theorem read_as_typed :
    (∀ id gap text, gap ≠ [] → isBlankText gap = true → NoLeadingBlank text.toList →
      (NoLineEnd (typed ":edit " id gap text).toList →
        ofLine (typed ":edit " id gap text) =
          if id < 2 ^ 64 then .ok (.edit id text) else .error .edit) ∧
      (NoLineEnd (typed ":reply " id gap text).toList →
        ofLine (typed ":reply " id gap text) =
          if id < 2 ^ 64 then .ok (.reply id text) else .error .reply)) ∧
    ∀ line, ∃ stripped, Strips line stripped ∧
      (∀ id text, ofLine line = .ok (.edit id text) ↔ id < 2 ^ 64 ∧
        ∃ rest, stripped.toList = ":edit ".toList ++ rest ∧ Addresses rest id text) ∧
      (∀ id text, ofLine line = .ok (.reply id text) ↔ id < 2 ^ 64 ∧
        ∃ rest, stripped.toList = ":reply ".toList ++ rest ∧ Addresses rest id text) ∧
      ∀ said, ofLine line = .ok (.message said) ↔ said = stripped ∧
        (∃ c ∈ stripped.toList, isBlank c = false) ∧ ¬ Quits stripped ∧
        ¬ ":edit ".toList <+: stripped.toList ∧ ¬ ":reply ".toList <+: stripped.toList := by
  refine ⟨fun id gap text hne hgap flush => ?_, fun line => ?_⟩
  · have htyped : ∀ usage : UsageError, NoLineEnd (typed usage.beginning id gap text).toList →
        ofLine (typed usage.beginning id gap text) =
          if id < 2 ^ 64 then .ok (usage.directive id text) else .error usage := by
      intro usage tight
      split
      · next hid => exact ofLine_typed usage hid hne hgap flush tight
      · next hid => exact ofLine_typed_of_le usage (Nat.not_lt.1 hid) hne hgap flush tight
    exact ⟨htyped .edit, htyped .reply⟩
  · obtain ⟨stripped, hstrips⟩ := exists_strips line
    refine ⟨stripped, hstrips, fun id text => ofLine_eq_directive_iff .edit hstrips,
      fun id text => ofLine_eq_directive_iff .reply hstrips, fun said => ?_⟩
    rw [ofLine_eq_message_iff hstrips]
    have hplain : (∀ usage : UsageError, ¬ usage.beginning.toList <+: stripped.toList) ↔
        ¬ ":edit ".toList <+: stripped.toList ∧ ¬ ":reply ".toList <+: stripped.toList :=
      ⟨fun h => ⟨h .edit, h .reply⟩, fun h usage => by cases usage <;> [exact h.1; exact h.2]⟩
    rw [hplain]

theorem read_as_typed_spaced :
    ofLine (typed ":edit " 18446744073709551615 ['\t', '\u2003'] "!echo  hi ") =
      .ok (.edit 18446744073709551615 "!echo  hi ") ∧
    ofLine (typed ":reply " 18446744073709551616 [' '] "") = .error .reply ∧
    ofLine " :edit 3 x\r\n" = .ok (.message " :edit 3 x") ∧
    Strips " :edit 3 x\r\n" " :edit 3 x" ∧ ¬ Quits " :edit 3 x" := by
  have hedit := (read_as_typed.1 18446744073709551615 ['\t', '\u2003'] "!echo  hi "
    (by decide) (by decide) (by decide)).1 (by decide +kernel)
  have hreply := (read_as_typed.1 18446744073709551616 [' '] ""
    (by decide) (by decide) (by decide)).2 (by decide +kernel)
  have hmessage : ofLine " :edit 3 x\r\n" = .ok (.message " :edit 3 x") := by decide +kernel
  obtain ⟨stripped, hstrips, -, -, hiff⟩ := read_as_typed.2 " :edit 3 x\r\n"
  obtain ⟨rfl, -, hquit, -⟩ := (hiff _).1 hmessage
  exact ⟨hedit, hreply, hmessage, hstrips, hquit⟩

end Directive

end ChatCommands.Console
