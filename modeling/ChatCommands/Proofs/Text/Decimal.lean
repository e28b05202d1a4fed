import ChatCommands.Json.Token
import ChatCommands.Text.Numeral

/-!
# Numbers in decimal digits

A run of digits denotes a number (`Decimal`), and the digits that a number is written with denote
it (`decimal_toDigits`). The readers of numerals accept exactly what denotes a number up to their
bound (`ofDigits?_eq_some_iff`, `unsigned?_eq_some_iff`), so a larger number is neither read nor
wrapped. Many runs of digits denote one number, but only one of them is a JSON numeral: the one that
the number is written with (`Decimal.eq_toDigits`).
-/

namespace ChatCommands.Text

/-- A run of decimal digits that denotes a number. -/
structure Decimal (digits : List Char) (n : Nat) : Prop where
  present : digits ≠ []
  decimal : ∀ c ∈ digits, c.isDigit = true
  value : Nat.ofDigitChars 10 digits 0 = n

theorem digitsValue_eq (read : Nat) (cs : List Char) :
    digitsValue read cs = Nat.ofDigitChars 10 cs read := by
  induction cs generalizing read with
  | nil => exact Nat.ofDigitChars_nil.symm
  | cons c cs ih => exact (ih _).trans Nat.ofDigitChars_cons.symm

/-- A number is denoted by the digits that it is written with. -/
theorem decimal_toDigits (n : Nat) : Decimal (Nat.toDigits 10 n) n where
  present := Nat.toDigits_ne_nil
  decimal _ := Nat.isDigit_of_mem_toDigits (by decide) (by decide)
  value := Nat.ofDigitChars_ten_toDigits

theorem toDigits_inj {m n : Nat} (h : Nat.toDigits 10 m = Nat.toDigits 10 n) : m = n := by
  rw [← (decimal_toDigits m).value, h, (decimal_toDigits n).value]

/-! ## Reading -/

theorem ofDigits?_eq_some_iff {bound n : Nat} {cs : List Char} :
    ofDigits? bound cs = some n ↔ Decimal cs n ∧ n ≤ bound := by
  rw [ofDigits?]
  split
  · next hbad =>
    rw [Bool.or_eq_true, List.isEmpty_iff, Bool.not_eq_true', List.all_eq_false] at hbad
    refine iff_of_false nofun ?_
    rintro ⟨hdecimal, -⟩
    rcases hbad with hnil | ⟨c, hc, hnot⟩
    · exact hdecimal.present hnil
    · exact hnot (hdecimal.decimal c hc)
  · next hgood =>
    simp only [Bool.or_eq_true, List.isEmpty_iff, Bool.not_eq_true', not_or, Bool.not_eq_false,
      List.all_eq_true] at hgood
    obtain ⟨hpresent, hdecimal⟩ := hgood
    simp only [digitsValue_eq]
    constructor
    · intro h
      split at h
      · next hle =>
        cases h
        exact ⟨⟨hpresent, hdecimal, rfl⟩, hle⟩
      · cases h
    · rintro ⟨hn, hle⟩
      rw [hn.value, if_pos hle]

/-- A numeral may have a plus sign. -/
theorem unsigned?_eq_some_iff {bound n : Nat} {cs : List Char} :
    unsigned? bound cs = some n ↔
      ∃ sign digits, cs = sign ++ digits ∧ (sign = [] ∨ sign = ['+']) ∧ Decimal digits n ∧
        n ≤ bound := by
  rw [unsigned?.eq_def]
  split
  · next rest =>
    rw [ofDigits?_eq_some_iff]
    constructor
    · rintro ⟨hn, hle⟩
      exact ⟨['+'], rest, rfl, .inr rfl, hn, hle⟩
    · rintro ⟨sign, digits, hcs, rfl | rfl, hn, hle⟩
      · -- a plus sign is no digit
        obtain rfl : '+' :: rest = digits := hcs
        exact absurd (hn.decimal '+' List.mem_cons_self) (by decide)
      · obtain rfl : rest = digits := (List.cons.inj hcs).2
        exact ⟨hn, hle⟩
  · next hunsigned =>
    rw [ofDigits?_eq_some_iff]
    constructor
    · rintro ⟨hn, hle⟩
      exact ⟨[], cs, rfl, .inl rfl, hn, hle⟩
    · rintro ⟨sign, digits, hcs, rfl | rfl, hn, hle⟩
      · obtain rfl : cs = digits := hcs
        exact ⟨hn, hle⟩
      · exact absurd hcs (hunsigned digits)

/-! ## Numerals without leading zeros -/

/-- A digit is what its own value is written with. -/
theorem toDigits_digit {c : Char} (h : c.isDigit = true) :
    c.toNat - '0'.toNat < 10 ∧ Nat.toDigits 10 (c.toNat - '0'.toNat) = [c] := by
  obtain ⟨hlo, hhi⟩ := Char.isDigit_iff_toNat.1 h
  have hzero : '0'.toNat = 48 := rfl
  have hnine : '9'.toNat = 57 := rfl
  have hlt : c.toNat - '0'.toNat < 10 := by omega
  have hchar : Nat.digitChar (c.toNat - '0'.toNat) = c := by
    rw [← Char.toNat_inj, Nat.toNat_digitChar_of_lt_ten hlt]
    omega
  exact ⟨hlt, by rw [Nat.toDigits_of_lt_base hlt, hchar]⟩

/-- Digits after those of a positive number continue it: induction on the digits that follow. -/
theorem toDigits_append {n : Nat} (hn : 0 < n) {cs : List Char}
    (h : ∀ c ∈ cs, c.isDigit = true) :
    Nat.toDigits 10 n ++ cs = Nat.toDigits 10 (Nat.ofDigitChars 10 cs n) := by
  induction cs generalizing n with
  | nil => rw [List.append_nil, Nat.ofDigitChars_nil]
  | cons c cs ih =>
    obtain ⟨hc, hcs⟩ := List.forall_mem_cons.1 h
    obtain ⟨hlt, hdigit⟩ := toDigits_digit hc
    rw [Nat.ofDigitChars_cons, ← ih (by omega) hcs,
      ← Nat.toDigits_append_toDigits (by decide) hn hlt, hdigit, List.append_assoc,
      List.singleton_append]

/-- No digit starts a fraction or an exponent. -/
theorem not_isFraction_of_isDigit {c : Char} (h : c.isDigit = true) (cs : List Char) :
    Json.isFraction (c :: cs) = false := by
  have hne : ∀ d : Char, d.isDigit = false → c ≠ d := by
    rintro d hd rfl
    rw [h] at hd
    cases hd
  rw [Json.isFraction, Json.isExponent.eq_def]
  · simp [hne 'e' rfl, hne 'E' rfl]
  · rintro d ds hcons
    exact hne '.' rfl (List.cons.inj hcons).1

/-- **Of the digits that denote a number, one run is a numeral**: the one that it is written
with. -/
theorem Decimal.eq_toDigits {digits : List Char} {n : Nat} (h : Decimal digits n)
    (numeral : Json.isNumeral digits = true) : digits = Nat.toDigits 10 n := by
  obtain ⟨hpresent, hdecimal, rfl⟩ := h
  cases digits with
  | nil => exact absurd rfl hpresent
  | cons c cs =>
    obtain ⟨hc, hcs⟩ := List.forall_mem_cons.1 hdecimal
    by_cases hzero : c = '0'
    · subst hzero
      -- after a leading zero there is no other digit
      cases cs with
      | nil => rfl
      | cons d ds =>
        have hfraction : Json.isFraction (d :: ds) = true := numeral
        rw [not_isFraction_of_isDigit (hcs d List.mem_cons_self)] at hfraction
        cases hfraction
    · obtain ⟨hlt, hdigit⟩ := toDigits_digit hc
      have hpos : 0 < c.toNat - '0'.toNat := by
        have hlo := (Char.isDigit_iff_toNat.1 hc).1
        have hne : c.toNat ≠ '0'.toNat := fun heq => hzero (Char.toNat_inj.1 heq)
        omega
      have hread := toDigits_append hpos hcs
      rw [hdigit, List.singleton_append] at hread
      rw [Nat.ofDigitChars_cons, Nat.mul_zero, Nat.zero_add]
      exact hread

end ChatCommands.Text
