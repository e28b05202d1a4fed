import ChatCommands.Text.Utf8
import Mathlib.Data.List.Basic

/-!
# Bytes that encode a text

`Decodes` says what the decoder does without its bookkeeping: bytes encode characters one after the
other (`decodeFrom_eq_ok_iff`). The bytes of every text encode it (`decode_toUTF8`).

A byte below 0x80 stands for a character of its own wherever it occurs, so the text can be cut there
(`Decodes.split`). That is why the bytes of a text can be cut into lines before they are decoded:
each line encodes the characters between two line feeds, except that a carriage return at its end is
left out (`forall₂_lines`).
-/

namespace ChatCommands.Text.Utf8

/-- The bytes that encode one character. -/
inductive Encoded : List UInt8 → Char → Prop where
  | one {a : UInt8} (lead : a < 0x80) : Encoded [a] (Char.ofNat a.toNat)
  | two {a b : UInt8} (lead : (0xC2 ≤ a && a ≤ 0xDF) = true) (second : isContinuation b = true) :
    Encoded [a, b] (Char.ofNat ((a.toNat - 0xC0) * 0x40 + bits b))
  | three {a b c : UInt8} (lead : (0xE0 ≤ a && a ≤ 0xEF) = true)
    (second : isSecondOfThree a b = true) (third : isContinuation c = true) :
    Encoded [a, b, c] (Char.ofNat (((a.toNat - 0xE0) * 0x40 + bits b) * 0x40 + bits c))
  | four {a b c d : UInt8} (lead : (0xF0 ≤ a && a ≤ 0xF4) = true)
    (second : isSecondOfFour a b = true) (third : isContinuation c = true)
    (fourth : isContinuation d = true) :
    Encoded [a, b, c, d]
      (Char.ofNat ((((a.toNat - 0xF0) * 0x40 + bits b) * 0x40 + bits c) * 0x40 + bits d))

/-- The bytes that encode characters one after the other. -/
inductive Decodes : List UInt8 → List Char → Prop where
  | nil : Decodes [] []
  | char {bytes rest : List UInt8} {c : Char} {cs : List Char} (first : Encoded bytes c)
    (more : Decodes rest cs) : Decodes (bytes ++ rest) (c :: cs)

/-- One more character is decoded if those after it are. -/
theorem Decodes.of_map {bytes rest : List UInt8} {c : Char} {cs : List Char}
    {x : Except Utf8Error (List Char)} (first : Encoded bytes c)
    (more : ∀ {cs}, x = .ok cs → Decodes rest cs) (h : x.map (c :: ·) = .ok cs) :
    Decodes (bytes ++ rest) cs := by
  cases x with
  | error e => cases h
  | ok after =>
    cases h
    exact .char first (more rfl)

theorem decodes_of_decodeFrom {index : Nat} {bytes : List UInt8} {cs : List Char}
    (h : decodeFrom index bytes = .ok cs) : Decodes bytes cs := by
  fun_induction decodeFrom index bytes generalizing cs
  case case1 =>
    cases h
    exact .nil
  case case2 lead ih => exact .of_map (.one lead) ih h
  case case5 lead b rest second code ih => exact .of_map (.two lead (by simpa using second)) ih h
  case case10 lead b second c rest third code ih =>
    exact .of_map (.three lead (by simpa using second) (by simpa using third)) ih h
  case case17 lead b second c third d rest fourth code ih =>
    exact .of_map (.four lead (by simpa using second) (by simpa using third)
      (by simpa using fourth)) ih h
  -- in all other cases the bytes end too early or do not go on as they have to
  all_goals cases h

theorem decodeFrom_of_decodes {bytes : List UInt8} {cs : List Char} (h : Decodes bytes cs)
    (index : Nat) : decodeFrom index bytes = .ok cs := by
  induction h generalizing index with
  | nil => rfl
  | char first more ih =>
    cases first with
    | one lead =>
      rw [List.singleton_append, decodeFrom.eq_def]
      simp only [if_pos lead, ih]
      rfl
    | @two a b lead second =>
      have hone : ¬ a < 0x80 := by grind
      rw [List.cons_append, decodeFrom.eq_def]
      simp only [if_neg hone, if_pos lead, List.cons_append, List.nil_append, second, ih]
      rfl
    | @three a b c lead second third =>
      have hone : ¬ a < 0x80 := by grind
      have htwo : ¬ (0xC2 ≤ a && a ≤ 0xDF) = true := by grind
      rw [List.cons_append, decodeFrom.eq_def]
      simp only [if_neg hone, if_neg htwo, if_pos lead, List.cons_append, List.nil_append, second,
        third, ih]
      rfl
    | @four a b c d lead second third fourth =>
      have hone : ¬ a < 0x80 := by grind
      have htwo : ¬ (0xC2 ≤ a && a ≤ 0xDF) = true := by grind
      have hthree : ¬ (0xE0 ≤ a && a ≤ 0xEF) = true := by grind
      rw [List.cons_append, decodeFrom.eq_def]
      simp only [if_neg hone, if_neg htwo, if_neg hthree, if_pos lead, List.cons_append,
        List.nil_append, second, third, fourth, ih]
      rfl

theorem decodeFrom_eq_ok_iff {index : Nat} {bytes : List UInt8} {cs : List Char} :
    decodeFrom index bytes = .ok cs ↔ Decodes bytes cs :=
  ⟨decodes_of_decodeFrom, fun h => decodeFrom_of_decodes h index⟩

theorem decode_eq_ok_iff {bytes : List UInt8} {text : String} :
    decode bytes = .ok text ↔ Decodes bytes text.toList := by
  have hfrom : decodeFrom 0 bytes = .ok text.toList ↔ _ := decodeFrom_eq_ok_iff
  rw [← hfrom, decode]
  cases decodeFrom 0 bytes with
  | error e => simp [Except.map]
  | ok cs => simp [Except.map, ← String.toList_inj]

theorem decode_of_decodes {bytes : List UInt8} {cs : List Char} (h : Decodes bytes cs) :
    decode bytes = .ok (String.ofList cs) := by
  rw [decode_eq_ok_iff, String.toList_ofList]
  exact h

theorem Decodes.eq_nil {cs : List Char} (h : Decodes [] cs) : cs = [] := by
  have hnil := decodeFrom_of_decodes h 0
  cases hnil
  rfl

/-! ## Bounds of the bytes -/

theorem lead_iff {a first last : UInt8} :
    (first ≤ a && a ≤ last) = true ↔ first.toNat ≤ a.toNat ∧ a.toNat ≤ last.toNat := by
  simp only [Bool.and_eq_true, decide_eq_true_eq, UInt8.le_iff_toNat_le]

theorem isContinuation_iff {b : UInt8} :
    isContinuation b = true ↔ 0x80 ≤ b.toNat ∧ b.toNat ≤ 0xBF :=
  lead_iff

theorem isSecondOfThree_iff {lead b : UInt8} : isSecondOfThree lead b = true ↔
    (if lead.toNat = 0xE0 then 0xA0 ≤ b.toNat else 0x80 ≤ b.toNat) ∧
      if lead.toNat = 0xED then b.toNat ≤ 0x9F else b.toNat ≤ 0xBF := by
  simp only [isSecondOfThree, Bool.and_eq_true, ← UInt8.toNat_inj, UInt8.le_iff_toNat_le,
    UInt8.reduceToNat]
  split <;> split <;> simp [*]

theorem isSecondOfFour_iff {lead b : UInt8} : isSecondOfFour lead b = true ↔
    (if lead.toNat = 0xF0 then 0x90 ≤ b.toNat else 0x80 ≤ b.toNat) ∧
      if lead.toNat = 0xF4 then b.toNat ≤ 0x8F else b.toNat ≤ 0xBF := by
  simp only [isSecondOfFour, Bool.and_eq_true, ← UInt8.toNat_inj, UInt8.le_iff_toNat_le,
    UInt8.reduceToNat]
  split <;> split <;> simp [*]

theorem bits_eq (b : UInt8) : bits b = b.toNat - 0x80 := rfl

/-! ## The bytes of a text -/

theorem toNat_ofNat_of_lt {n : Nat} (h : n < 0x100) : (UInt8.ofNat n).toNat = n := by
  rw [UInt8.toNat_ofNat', Nat.mod_eq_of_lt h]

/-- A byte that adds six bits. -/
theorem bits_ofNat {n : Nat} (h : n < 0x40) : bits (UInt8.ofNat (n + 0x80)) = n := by
  rw [bits_eq, toNat_ofNat_of_lt (by omega), Nat.add_sub_cancel]

theorem isContinuation_ofNat {n : Nat} (h : n < 0x40) :
    isContinuation (UInt8.ofNat (n + 0x80)) = true := by
  rw [isContinuation_iff, toNat_ofNat_of_lt (by omega)]
  omega

/-- The bytes of a character encode it. -/
theorem encoded_utf8EncodeChar (c : Char) : Encoded (String.utf8EncodeChar c) c := by
  have hvalid : c.val.toNat < 0xD800 ∨ 0xDFFF < c.val.toNat ∧ c.val.toNat < 0x110000 := c.valid
  have hc : Char.ofNat c.val.toNat = c := Char.ofNat_toNat c
  have hsix : ∀ n, n % 0x40 < 0x40 := fun n => Nat.mod_lt n (by decide)
  fun_cases String.utf8EncodeChar c with
  | case1 v hone =>
    have hlead : (UInt8.ofNat v).toNat = v := toNat_ofNat_of_lt (by omega)
    have h : Encoded [UInt8.ofNat v] _ := .one (by
      rw [UInt8.lt_iff_toNat_lt, hlead]
      exact Nat.lt_succ_of_le hone)
    rwa [hlead, hc] at h
  | case2 v hone htwo =>
    have hlead : (UInt8.ofNat (v / 64 % 0x20 + 0xC0)).toNat = v / 64 + 0xC0 := by
      rw [toNat_ofNat_of_lt (by omega)]
      omega
    have h := Encoded.two (a := UInt8.ofNat (v / 64 % 0x20 + 0xC0))
      (lead_iff.2 (by rw [hlead]; simp only [UInt8.reduceToNat]; omega))
      (isContinuation_ofNat (hsix v))
    have hcode : (v / 64 + 0xC0 - 0xC0) * 0x40 + v % 0x40 = v := by omega
    rwa [hlead, bits_ofNat (hsix v), hcode, hc] at h
  | case3 v hone htwo hthree =>
    have hlead : (UInt8.ofNat (v / 4096 % 0x10 + 0xE0)).toNat = v / 4096 + 0xE0 := by
      rw [toNat_ofNat_of_lt (by omega)]
      omega
    have hsecond : (UInt8.ofNat (v / 64 % 0x40 + 0x80)).toNat = v / 64 % 0x40 + 0x80 :=
      toNat_ofNat_of_lt (by omega)
    have h := Encoded.three (a := UInt8.ofNat (v / 4096 % 0x10 + 0xE0))
      (b := UInt8.ofNat (v / 64 % 0x40 + 0x80))
      (lead_iff.2 (by rw [hlead]; simp only [UInt8.reduceToNat]; omega))
      (isSecondOfThree_iff.2 (by rw [hlead, hsecond]; constructor <;> split <;> omega))
      (isContinuation_ofNat (hsix v))
    have hcode : ((v / 4096 + 0xE0 - 0xE0) * 0x40 + v / 64 % 0x40) * 0x40 + v % 0x40 = v := by omega
    rwa [hlead, bits_ofNat (hsix (v / 64)), bits_ofNat (hsix v), hcode, hc] at h
  | case4 v hone htwo hthree =>
    have hlead : (UInt8.ofNat (v / 262144 % 0x08 + 0xF0)).toNat = v / 262144 + 0xF0 := by
      rw [toNat_ofNat_of_lt (by omega)]
      omega
    have hsecond : (UInt8.ofNat (v / 4096 % 0x40 + 0x80)).toNat = v / 4096 % 0x40 + 0x80 :=
      toNat_ofNat_of_lt (by omega)
    have h := Encoded.four (a := UInt8.ofNat (v / 262144 % 0x08 + 0xF0))
      (b := UInt8.ofNat (v / 4096 % 0x40 + 0x80))
      (lead_iff.2 (by rw [hlead]; simp only [UInt8.reduceToNat]; omega))
      (isSecondOfFour_iff.2 (by rw [hlead, hsecond]; constructor <;> split <;> omega))
      (isContinuation_ofNat (hsix (v / 64))) (isContinuation_ofNat (hsix v))
    have hcode : (((v / 262144 + 0xF0 - 0xF0) * 0x40 + v / 4096 % 0x40) * 0x40 +
        v / 64 % 0x40) * 0x40 + v % 0x40 = v := by omega
    rwa [hlead, bits_ofNat (hsix (v / 4096)), bits_ofNat (hsix (v / 64)), bits_ofNat (hsix v),
      hcode, hc] at h

theorem decodes_bytes (cs : List Char) : Decodes (bytes cs) cs := by
  induction cs with
  | nil => exact .nil
  | cons c cs ih =>
    rw [bytes_cons]
    exact .char (encoded_utf8EncodeChar c) ih

theorem toUTF8_eq_bytes (text : String) : text.toUTF8.data.toList = bytes text.toList := by
  rw [String.toUTF8_eq_toByteArray, ← String.utf8Encode_toList, List.utf8Encode,
    List.data_toByteArray]
  rfl

/-- The bytes of a text encode it. -/
theorem decode_toUTF8 (text : String) : decode text.toUTF8.data.toList = .ok text := by
  rw [decode_eq_ok_iff, toUTF8_eq_bytes]
  exact decodes_bytes text.toList

/-! ## Characters of one byte -/

theorem le_of_isContinuation {b : UInt8} (h : isContinuation b = true) : 0x80 ≤ b :=
  UInt8.le_iff_toNat_le.2 (isContinuation_iff.1 h).1

theorem le_of_isSecondOfThree {lead b : UInt8} (h : isSecondOfThree lead b = true) :
    0x80 ≤ b := by
  obtain ⟨hlow, -⟩ := isSecondOfThree_iff.1 h
  rw [UInt8.le_iff_toNat_le]
  split at hlow
  · exact Nat.le_trans (by decide) hlow
  · exact hlow

theorem le_of_isSecondOfFour {lead b : UInt8} (h : isSecondOfFour lead b = true) :
    0x80 ≤ b := by
  obtain ⟨hlow, -⟩ := isSecondOfFour_iff.1 h
  rw [UInt8.le_iff_toNat_le]
  split at hlow
  · exact Nat.le_trans (by decide) hlow
  · exact hlow

/-- A byte below 0x80 is a character of its own. -/
theorem Encoded.of_mem_ascii {bytes : List UInt8} {c : Char} {b : UInt8} (h : Encoded bytes c)
    (hb : b ∈ bytes) (hascii : b < 0x80) : bytes = [b] ∧ c = Char.ofNat b.toNat := by
  have hnot : ∀ {d : UInt8}, 0x80 ≤ d → b ≠ d := by grind
  cases h with
  | one lead =>
    rw [List.mem_singleton.1 hb]
    exact ⟨rfl, rfl⟩
  | two lead second =>
    have hsecond := hnot (le_of_isContinuation second)
    grind
  | three lead second third =>
    have hsecond := hnot (le_of_isSecondOfThree second)
    have hthird := hnot (le_of_isContinuation third)
    grind
  | four lead second third fourth =>
    have hsecond := hnot (le_of_isSecondOfFour second)
    have hthird := hnot (le_of_isContinuation third)
    have hfourth := hnot (le_of_isContinuation fourth)
    grind

theorem eq_of_ofNat_eq_lineFeed {n : Nat} (h : Char.ofNat n = '\n') : n = 10 := by
  by_cases hvalid : n.isValidChar
  · rw [Char.ofNat, dif_pos hvalid] at h
    exact congrArg Char.toNat h
  · rw [Char.ofNat, dif_neg hvalid] at h
    exact absurd h (by decide)

/-- A line feed is encoded by one byte. -/
theorem Encoded.of_lineFeed {bytes : List UInt8} (h : Encoded bytes '\n') : bytes = [0x0A] := by
  generalize hc : '\n' = c at h
  cases h with
  | @one a lead =>
    have ha : a.toNat = 10 := eq_of_ofNat_eq_lineFeed hc.symm
    rw [UInt8.toNat_inj.1 (ha.trans rfl : a.toNat = (0x0A : UInt8).toNat)]
  | two lead second =>
    have hcode := eq_of_ofNat_eq_lineFeed hc.symm
    obtain ⟨hlead, -⟩ := lead_iff.1 lead
    simp only [UInt8.reduceToNat] at hlead
    omega
  | three lead second third =>
    have hcode := eq_of_ofNat_eq_lineFeed hc.symm
    obtain ⟨hlead, -⟩ := lead_iff.1 lead
    obtain ⟨hlow, -⟩ := isSecondOfThree_iff.1 second
    simp only [UInt8.reduceToNat] at hlead
    rw [bits_eq, bits_eq] at hcode
    split at hlow <;> omega
  | four lead second third fourth =>
    have hcode := eq_of_ofNat_eq_lineFeed hc.symm
    obtain ⟨hlead, -⟩ := lead_iff.1 lead
    obtain ⟨hlow, -⟩ := isSecondOfFour_iff.1 second
    simp only [UInt8.reduceToNat] at hlead
    rw [bits_eq, bits_eq, bits_eq] at hcode
    split at hlow <;> omega

/-- A text can be cut at a byte below 0x80: induction on the characters. -/
theorem Decodes.split {bytes before after : List UInt8} {b : UInt8} {cs : List Char}
    (h : Decodes bytes cs) (hbytes : bytes = before ++ b :: after) (hascii : b < 0x80) :
    ∃ xs ys, cs = xs ++ Char.ofNat b.toNat :: ys ∧ Decodes before xs ∧ Decodes after ys := by
  induction h generalizing before with
  | nil => simp at hbytes
  | @char first rest c cs hfirst more ih =>
    rcases List.append_eq_append_iff.1 hbytes with ⟨mid, rfl, hrest⟩ | ⟨mid, hcut, hmid⟩
    · obtain ⟨xs, ys, rfl, hxs, hys⟩ := ih hrest
      exact ⟨c :: xs, ys, rfl, .char hfirst hxs, hys⟩
    cases mid with
    | nil =>
      have hrest : rest = [] ++ b :: after := hmid.symm
      obtain ⟨xs, ys, rfl, hxs, hys⟩ := ih hrest
      rw [List.append_nil] at hcut
      rw [← hcut, ← List.append_nil first]
      exact ⟨c :: xs, ys, rfl, .char hfirst hxs, hys⟩
    | cons d mid =>
      -- the byte is in the first character, and so is all of it
      obtain ⟨rfl, rfl⟩ := List.cons.inj hmid
      obtain ⟨hone, rfl⟩ := hfirst.of_mem_ascii (b := b) (by simp [hcut]) hascii
      rw [hcut] at hone
      obtain ⟨rfl, rfl⟩ : before = [] ∧ mid = [] := by simpa [List.append_eq_cons_iff] using hone
      exact ⟨[], cs, rfl, .nil, more⟩

/-! ## Lines -/

theorem linesFrom_append {piece : List UInt8} (h : 0x0A ∉ piece) (line rest : List UInt8) :
    linesFrom line (piece ++ rest) = linesFrom (piece.reverse ++ line) rest := by
  induction piece generalizing line with
  | nil => rfl
  | cons b piece ih =>
    rw [List.mem_cons, not_or] at h
    rw [List.cons_append, linesFrom, if_neg (Ne.symm h.1), ih h.2, List.reverse_cons,
      List.append_assoc, List.singleton_append]

/-- The line before the first line feed. -/
theorem lines_append {piece : List UInt8} (h : 0x0A ∉ piece) (rest : List UInt8) :
    lines (piece ++ 0x0A :: rest) = withoutLineEnd (piece ++ [0x0A]) :: lines rest := by
  rw [lines, linesFrom_append h, linesFrom, if_pos rfl, List.append_nil, List.reverse_cons,
    List.reverse_reverse]
  rfl

/-- What comes after the last line feed is a line if it is anything. -/
theorem lines_of_not_mem {piece : List UInt8} (h : 0x0A ∉ piece) :
    lines piece = if piece = [] then [] else [withoutLineEnd piece] := by
  have hall := linesFrom_append h [] []
  rw [List.append_nil, List.append_nil, linesFrom] at hall
  rw [lines, hall]
  by_cases hpiece : piece = [] <;> simp [hpiece]

theorem withoutLineEnd_cons {b : UInt8} {rest : List UInt8} (h : b :: rest ≠ [0x0A])
    (h' : b :: rest ≠ [0x0D, 0x0A]) : withoutLineEnd (b :: rest) = b :: withoutLineEnd rest := by
  rw [withoutLineEnd, if_neg]
  rw [Bool.or_eq_true, decide_eq_true_eq, decide_eq_true_eq, not_or]
  exact ⟨h, h'⟩

theorem withoutLineEnd_of_not_mem {piece : List UInt8} (h : 0x0A ∉ piece) :
    withoutLineEnd piece = piece := by
  induction piece with
  | nil => rfl
  | cons b piece ih =>
    have hrest : 0x0A ∉ piece := fun hmem => h (List.mem_cons_of_mem b hmem)
    rw [withoutLineEnd_cons _ _, ih hrest]
    · intro heq
      simp [heq] at h
    · intro heq
      simp [heq] at h

/-- Together with the line feed, a carriage return before it is left out. -/
theorem withoutLineEnd_cases {piece : List UInt8} (h : 0x0A ∉ piece) :
    withoutLineEnd (piece ++ [0x0A]) = piece ∨
      ∃ before, piece = before ++ [0x0D] ∧ withoutLineEnd (piece ++ [0x0A]) = before := by
  induction piece with
  | nil => exact Or.inl rfl
  | cons b piece ih =>
    rw [List.mem_cons, not_or] at h
    by_cases hreturn : b = 0x0D ∧ piece = []
    · obtain ⟨rfl, rfl⟩ := hreturn
      exact Or.inr ⟨[], rfl, rfl⟩
    · rw [List.cons_append, withoutLineEnd_cons (by simp)
        (by simpa [List.append_eq_cons_iff] using hreturn)]
      rcases ih h.2 with hsame | ⟨before, rfl, hbefore⟩
      · exact Or.inl (by rw [hsame])
      · exact Or.inr ⟨b :: before, rfl, by rw [hbefore]⟩

/-- A text that has a line feed is encoded by bytes that have one. -/
theorem Decodes.lineFeed_mem {bytes : List UInt8} {cs : List Char} (h : Decodes bytes cs)
    (hmem : '\n' ∈ cs) : 0x0A ∈ bytes := by
  induction h with
  | nil => cases hmem
  | @char first rest c cs hfirst more ih =>
    rcases List.mem_cons.1 hmem with rfl | hmem
    · rw [hfirst.of_lineFeed]
      exact List.mem_cons_self
    · exact List.mem_append_right first (ih hmem)

variable {β : Type} {f : String → β}

/-- A line is read as the characters that it stands for, if a carriage return at the end makes no
difference. -/
theorem map_decode_withoutLineEnd {piece : List UInt8} {cs : List Char} (h : Decodes piece cs)
    (hpiece : 0x0A ∉ piece) (hf : ∀ cs, f (String.ofList (cs ++ ['\r'])) = f (String.ofList cs)) :
    (decode (withoutLineEnd (piece ++ [0x0A]))).map f = .ok (f (String.ofList cs)) := by
  rcases withoutLineEnd_cases hpiece with hsame | ⟨before, hbefore, hcut⟩
  · rw [hsame, decode_of_decodes h]
    rfl
  · obtain ⟨xs, ys, rfl, hxs, hys⟩ := h.split hbefore (by decide)
    obtain rfl : ys = [] := hys.eq_nil
    rw [hcut, decode_of_decodes hxs]
    exact congrArg Except.ok (hf xs).symm

/-- **Lines can be cut before they are decoded**: what is read from the lines of a text is read from
what stands between its line feeds, without the last piece if that is empty. -/
theorem map_lines {bytes : List UInt8} {text : String} (h : decode bytes = .ok text)
    (hf : ∀ cs, f (String.ofList (cs ++ ['\r'])) = f (String.ofList cs)) :
    ∃ pieces, (lines bytes).map (fun line => (decode line).map f) =
        pieces.map (fun piece => .ok (f (String.ofList piece))) ∧
      (text.toList.splitOn '\n' = pieces ∨ text.toList.splitOn '\n' = pieces ++ [[]]) := by
  rw [decode_eq_ok_iff] at h
  generalize text.toList = cs at h
  induction hlength : bytes.length using Nat.strongRecOn generalizing bytes cs with
  | _ n ih =>
    subst hlength
    by_cases hmem : 0x0A ∈ bytes
    · obtain ⟨piece, rest, rfl, hpiece⟩ := List.eq_append_cons_of_mem hmem
      obtain ⟨xs, ys, rfl, hxs, hys⟩ := h.split rfl (by decide)
      have hlt : rest.length < (piece ++ 0x0A :: rest).length := by
        rw [List.length_append, List.length_cons]
        omega
      obtain ⟨pieces, hread, hpieces⟩ := ih rest.length hlt ys hys rfl
      have hfeed : '\n' ∉ xs := fun hfeed => hpiece (hxs.lineFeed_mem hfeed)
      refine ⟨xs :: pieces, ?_, ?_⟩
      · rw [lines_append hpiece, List.map_cons, map_decode_withoutLineEnd hxs hpiece hf, hread,
          List.map_cons]
      · show (xs ++ '\n' :: ys).splitOn '\n' = _ ∨ (xs ++ '\n' :: ys).splitOn '\n' = _
        rw [List.splitOn_append_cons_self_of_not_mem hfeed]
        rcases hpieces with hpieces | hpieces
        · exact Or.inl (by rw [hpieces])
        · exact Or.inr (by rw [hpieces, List.cons_append])
    · have hfeed : '\n' ∉ cs := fun hfeed => hmem (h.lineFeed_mem hfeed)
      rw [lines_of_not_mem hmem, List.splitOn_eq_singleton hfeed]
      by_cases hbytes : bytes = []
      · subst hbytes
        obtain rfl : cs = [] := h.eq_nil
        exact ⟨[], rfl, Or.inr rfl⟩
      · refine ⟨[cs], ?_, Or.inl rfl⟩
        rw [if_neg hbytes, withoutLineEnd_of_not_mem hmem, List.map_singleton, decode_of_decodes h]
        rfl

end ChatCommands.Text.Utf8
