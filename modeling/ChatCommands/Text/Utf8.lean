/-!
# UTF-8

Decoding bytes, with a precise account of the first bytes that are not UTF-8: where they start
and how many of them belong together. The other way round, the bytes of a text (`Text.bytes`):
those below 0x80 are characters of their own wherever they occur (`Text.utf8EncodeChar_of_mem`).
-/

namespace ChatCommands.Text

/-- Bytes that are not UTF-8. `length` is missing if the text ends in the middle of a character. -/
structure Utf8Error where
  index : Nat
  length : Option Nat
  deriving DecidableEq, Repr

def Utf8Error.message (e : Utf8Error) : String :=
  match e.length with
  | some n => s!"invalid utf-8 sequence of {n} bytes from index {e.index}"
  | none => s!"incomplete utf-8 byte sequence from index {e.index}"

namespace Utf8

/-- Whether a byte continues a character. -/
def isContinuation (b : UInt8) : Bool :=
  0x80 ≤ b && b ≤ 0xBF

/-- Whether a byte may follow the first of a character of three bytes. This leaves out characters
that have a shorter form, and surrogates. -/
def isSecondOfThree (lead b : UInt8) : Bool :=
  (if lead = 0xE0 then 0xA0 ≤ b else 0x80 ≤ b) && (if lead = 0xED then b ≤ 0x9F else b ≤ 0xBF)

/-- Whether a byte may follow the first of a character of four bytes. This leaves out characters
that have a shorter form, and numbers that are too large. -/
def isSecondOfFour (lead b : UInt8) : Bool :=
  (if lead = 0xF0 then 0x90 ≤ b else 0x80 ≤ b) && (if lead = 0xF4 then b ≤ 0x8F else b ≤ 0xBF)

/-- The six bits that a continuation byte adds. -/
def bits (b : UInt8) : Nat :=
  b.toNat - 0x80

/-- The text that bytes encode, the first of which has the given index. -/
def decodeFrom (index : Nat) : List UInt8 → Except Utf8Error (List Char)
  | [] => .ok []
  | a :: rest =>
    if a < 0x80 then (decodeFrom (index + 1) rest).map (Char.ofNat a.toNat :: ·)
    else if 0xC2 ≤ a && a ≤ 0xDF then
      match rest with
      | [] => .error ⟨index, none⟩
      | b :: rest =>
        if !isContinuation b then .error ⟨index, some 1⟩
        else
          let code := (a.toNat - 0xC0) * 0x40 + bits b
          (decodeFrom (index + 2) rest).map (Char.ofNat code :: ·)
    else if 0xE0 ≤ a && a ≤ 0xEF then
      match rest with
      | [] => .error ⟨index, none⟩
      | b :: rest =>
        if !isSecondOfThree a b then .error ⟨index, some 1⟩
        else match rest with
          | [] => .error ⟨index, none⟩
          | c :: rest =>
            if !isContinuation c then .error ⟨index, some 2⟩
            else
              let code := ((a.toNat - 0xE0) * 0x40 + bits b) * 0x40 + bits c
              (decodeFrom (index + 3) rest).map (Char.ofNat code :: ·)
    else if 0xF0 ≤ a && a ≤ 0xF4 then
      match rest with
      | [] => .error ⟨index, none⟩
      | b :: rest =>
        if !isSecondOfFour a b then .error ⟨index, some 1⟩
        else match rest with
          | [] => .error ⟨index, none⟩
          | c :: rest =>
            if !isContinuation c then .error ⟨index, some 2⟩
            else match rest with
              | [] => .error ⟨index, none⟩
              | d :: rest =>
                if !isContinuation d then .error ⟨index, some 3⟩
                else
                  let code :=
                    (((a.toNat - 0xF0) * 0x40 + bits b) * 0x40 + bits c) * 0x40 + bits d
                  (decodeFrom (index + 4) rest).map (Char.ofNat code :: ·)
    else .error ⟨index, some 1⟩

/-- The text that bytes encode. -/
def decode (bytes : List UInt8) : Except Utf8Error String :=
  (decodeFrom 0 bytes).map String.ofList

/-- The lines of a byte sequence, each with the line feed that ends it. `line` holds, in reverse,
what was read of the line so far. -/
def linesFrom (line : List UInt8) : List UInt8 → List (List UInt8)
  | [] => if line.isEmpty then [] else [line.reverse]
  | b :: rest =>
    if b = 0x0A then (b :: line).reverse :: linesFrom [] rest else linesFrom (b :: line) rest

/-- A line without the line feed that ends it and a carriage return right before that. A carriage
return at the end of a line that has no line feed stays. -/
def withoutLineEnd : List UInt8 → List UInt8
  | [] => []
  | b :: rest =>
    if b :: rest = [0x0A] || b :: rest = [0x0D, 0x0A] then [] else b :: withoutLineEnd rest

/-- The lines of a byte sequence, without their line ends. -/
def lines (bytes : List UInt8) : List (List UInt8) :=
  (linesFrom [] bytes).map withoutLineEnd

end Utf8

/-! ## The bytes of a text -/

/-- The number of bytes that a text takes in UTF-8. -/
def byteLength : List Char → Nat
  | [] => 0
  | c :: cs => c.utf8Size + byteLength cs

@[simp] theorem byteLength_append (cs ds : List Char) :
    byteLength (cs ++ ds) = byteLength cs + byteLength ds := by
  induction cs with
  | nil => rw [List.nil_append, byteLength, Nat.zero_add]
  | cons c cs ih => rw [List.cons_append, byteLength, byteLength, ih, Nat.add_assoc]

@[simp] theorem byteLength_reverse (cs : List Char) : byteLength cs.reverse = byteLength cs := by
  induction cs with
  | nil => rfl
  | cons c cs ih =>
    rw [List.reverse_cons, byteLength_append, ih, byteLength, byteLength, byteLength, Nat.add_zero,
      Nat.add_comm]

/-- The bytes of a text in UTF-8. -/
def bytes (cs : List Char) : List UInt8 :=
  cs.flatMap String.utf8EncodeChar

theorem bytes_cons (c : Char) (cs : List Char) :
    bytes (c :: cs) = String.utf8EncodeChar c ++ bytes cs :=
  List.flatMap_cons

theorem bytes_append (cs ds : List Char) : bytes (cs ++ ds) = bytes cs ++ bytes ds :=
  List.flatMap_append

@[simp] theorem length_bytes (cs : List Char) : (bytes cs).length = byteLength cs := by
  induction cs with
  | nil => rfl
  | cons c cs ih =>
    rw [bytes_cons, List.length_append, String.length_utf8EncodeChar, ih, byteLength]

/-- An ASCII byte is all there is of its character. -/
theorem utf8EncodeChar_of_mem {c : Char} {b : UInt8} (h : b ∈ String.utf8EncodeChar c)
    (ascii : b.toNat < 0x80) : String.utf8EncodeChar c = [b] ∧ c.toNat = b.toNat := by
  have hbyte : ∀ n, n < 0x100 → (UInt8.ofNat n).toNat = n := by
    intro n hn
    rw [UInt8.toNat_ofNat', Nat.mod_eq_of_lt hn]
  -- the bytes of a longer character are 0x80 or more, the first like all that continue it
  have hbeyond : ∀ n, 0x80 ≤ n → n < 0x100 → b ≠ UInt8.ofNat n := by
    rintro n hlow hn rfl
    rw [hbyte n hn] at ascii
    omega
  revert h
  fun_cases String.utf8EncodeChar c with
  | case1 v hone =>
    intro h
    have hb : b = UInt8.ofNat v := List.mem_singleton.1 h
    exact ⟨by rw [hb], by rw [hb, hbyte v (by omega)]; rfl⟩
  | case2 v hone htwo =>
    simp only [List.mem_cons, List.not_mem_nil, or_false]
    rintro (h | h) <;> exact absurd h (hbeyond _ (by omega) (by omega))
  | case3 v hone htwo hthree =>
    simp only [List.mem_cons, List.not_mem_nil, or_false]
    rintro (h | h | h) <;> exact absurd h (hbeyond _ (by omega) (by omega))
  | case4 v hone htwo hthree =>
    simp only [List.mem_cons, List.not_mem_nil, or_false]
    rintro (h | h | h | h) <;> exact absurd h (hbeyond _ (by omega) (by omega))

/-- A character other than an ASCII one has no byte in common with it. -/
theorem not_mem_utf8EncodeChar {c d : Char} (h : c ≠ d) (ascii : d.toNat < 0x80) :
    UInt8.ofNat d.toNat ∉ String.utf8EncodeChar c := by
  have hbyte : (UInt8.ofNat d.toNat).toNat = d.toNat := by
    rw [UInt8.toNat_ofNat', Nat.mod_eq_of_lt (by omega)]
  intro hmem
  obtain ⟨-, hcode⟩ := utf8EncodeChar_of_mem hmem (by omega)
  exact h (Char.toNat_inj.1 (hcode.trans hbyte))

/-- After its first byte, a character has no ASCII bytes. -/
theorem not_mem_tail_utf8EncodeChar (c : Char) {b : UInt8} (ascii : b.toNat < 0x80) :
    b ∉ (String.utf8EncodeChar c).tail := by
  intro hmem
  obtain ⟨hone, -⟩ := utf8EncodeChar_of_mem (List.mem_of_mem_tail hmem) ascii
  rw [hone] at hmem
  cases hmem

end ChatCommands.Text
