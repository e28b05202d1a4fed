import ChatCommands.Json.Printer
import ChatCommands.Json.Record
import ChatCommands.Message

/-!
# Documents that are read back

What the library writes into a document is what it reads out of it: texts (`text?_ofString`), lists
of texts, the members of an object (`fields?_ofMembers`, whatever their order) and messages
(`OutboundMessage.ofJson?_toJson`). All of it rests on the escapes of a string, which are undone
one character at a time (`decode?_encodeChar_append`).
-/

namespace ChatCommands.Json

/-! ## Strings -/

theorem decode?_plain {c : Char} (h : c ≠ '\\') (rest : List Char) :
    decode? (c :: rest) = (decode? rest).map (c :: ·) := by
  rw [decode?, if_neg h]
  · rintro a b c d cs rfl
    exact absurd rfl h
  · rintro d cs rfl
    exact absurd rfl h

theorem decode?_letter {letter c : Char} (h : escaped? letter = some c) (rest : List Char) :
    decode? ('\\' :: letter :: rest) = (decode? rest).map (c :: ·) := by
  rw [decode?, h]
  · cases decode? rest <;> rfl
  · rintro a b c d cs rfl
    cases h

theorem decode?_codeUnit {a b c d : Char} {unit : Nat} (h : codeUnit? a b c d = some unit)
    (hplain : unit < 0xD800) (rest : List Char) :
    decode? ('\\' :: 'u' :: a :: b :: c :: d :: rest) =
      (decode? rest).map (Char.ofNat unit :: ·) := by
  rw [decode?, h]
  simp only [Option.bind_eq_bind, Option.bind_some]
  rw [if_neg (by omega), if_neg (by omega)]
  cases decode? rest <;> rfl

/-- The code unit of a control character. -/
theorem codeUnit?_hexDigit :
    ∀ n < 0x20, codeUnit? '0' '0' (hexDigit (n / 16)) (hexDigit (n % 16)) = some n := by
  decide

/-- A character is written by a letter, by its code unit, or as it is. -/
theorem encodeChar_cases (c : Char) :
    (∃ letter, encodeChar c = ['\\', letter] ∧ escaped? letter = some c) ∨
    (c.toNat < 0x20 ∧ encodeChar c =
      ['\\', 'u', '0', '0', hexDigit (c.toNat / 16), hexDigit (c.toNat % 16)]) ∨
    (c ≠ '\\' ∧ encodeChar c = [c]) := by
  rw [encodeChar]
  -- seven characters have a letter of their own
  iterate 7
    split
    · next h => exact Or.inl ⟨_, rfl, by rw [h]; rfl⟩
  split
  · next hcontrol => exact Or.inr (Or.inl ⟨hcontrol, rfl⟩)
  · next hbackslash _ _ _ _ _ _ => exact Or.inr (Or.inr ⟨hbackslash, rfl⟩)

/-- A character is read back, whatever follows it. -/
theorem decode?_encodeChar_append (c : Char) (rest : List Char) :
    decode? (encodeChar c ++ rest) = (decode? rest).map (c :: ·) := by
  rcases encodeChar_cases c with
    ⟨letter, hencode, hescaped⟩ | ⟨hcontrol, hencode⟩ | ⟨hplain, hencode⟩
  · rw [hencode]
    exact decode?_letter hescaped rest
  · have hunit := codeUnit?_hexDigit c.toNat hcontrol
    have hread := decode?_codeUnit hunit (by omega) rest
    rw [Char.ofNat_toNat] at hread
    rw [hencode]
    exact hread
  · rw [hencode]
    exact decode?_plain hplain rest

theorem decode?_encode (cs : List Char) : decode? (encode cs) = some cs := by
  induction cs with
  | nil => rfl
  | cons c cs ih =>
    rw [encode, List.flatMap_cons, decode?_encodeChar_append]
    rw [encode] at ih
    rw [ih]
    rfl

/-! ## Values -/

@[simp] theorem text?_ofString (s : String) : text? (ofString s) = some s := by
  rw [ofString, text?, decode?_encode, Option.map_some, String.ofList_toList]

/-- A list is read back if each of its items is. -/
theorem list?_map {α β : Type} {read : Json → Option β} {write : α → Json} {view : α → β}
    (h : ∀ x, read (write x) = some (view x)) (xs : List α) :
    list? read (.array (xs.map write)) = some (xs.map view) := by
  rw [list?]
  induction xs with
  | nil => rfl
  | cons x xs ih =>
    rw [List.map_cons, List.mapM_cons, ih, h]
    rfl

@[simp] theorem list?_text?_ofStrings (ss : List String) :
    list? text? (ofStrings ss) = some ss := by
  rw [ofStrings, list?_map text?_ofString, List.map_id']

@[simp] theorem nullable?_text?_ofString (s : String) :
    nullable? text? (ofString s) = some (some s) := by
  have hread := text?_ofString s
  rw [ofString] at hread ⊢
  rw [nullable?, hread, Option.map_some]
  nofun

/-! ## Objects -/

/-- An object lists its members in increasing order of their names, each name once. -/
theorem members?_ofMembers (members : List (String × Json)) :
    members? (ofMembers members) = some (Dictionary.ofList members).entries := by
  rw [ofMembers, members?]
  induction (Dictionary.ofList members).entries with
  | nil => rfl
  | cons member rest ih =>
    obtain ⟨name, value⟩ := member
    rw [List.map_cons, List.mapM_cons, ih]
    simp only [decode?_encode, Option.map_some, String.ofList_toList]
    rfl

/-- Where no name is given twice, what is given under a name is what is found under it. -/
theorem filter_name_eq {members : List (String × Json)} (distinct : (members.map (·.1)).Nodup)
    (name : String) :
    members.filter (·.1 == name) = (members.lookup name).toList.map (name, ·) := by
  induction members with
  | nil => rfl
  | cons member rest ih =>
    obtain ⟨other, value⟩ := member
    obtain ⟨hnew, hrest⟩ := List.nodup_cons.1 distinct
    by_cases hname : other = name
    · subst hname
      have hnone : rest.filter (·.1 == other) = [] := by
        rw [List.filter_eq_nil_iff]
        intro member hmem heq
        have hnamed : member.1 ∈ rest.map (·.1) := List.mem_map_of_mem hmem
        exact hnew (beq_iff_eq.1 heq ▸ hnamed)
      rw [List.filter_cons_of_pos (by simp), hnone, List.lookup_cons_self]
      rfl
    · rw [List.filter_cons_of_neg (by simpa using hname), ih hrest, List.lookup_cons,
        beq_false_of_ne (Ne.symm hname)]

theorem field?_entries (d : Dictionary String Json) (name : String) :
    field? d.entries name = some (d.get? name) := by
  rw [field?, filter_name_eq d.nodup_keys, Dictionary.get?]
  cases d.entries.lookup name <;> rfl

/-- The fields of a record are those of its members; the last one of a name counts. -/
theorem fields?_ofMembers (names : List String) (members : List (String × Json)) :
    fields? names (ofMembers members) =
      some (names.map fun name => members.reverse.lookup name) := by
  have hread := members?_ofMembers members
  have hfields : names.mapM (field? (Dictionary.ofList members).entries) =
      some (names.map fun name => members.reverse.lookup name) := by
    induction names with
    | nil => rfl
    | cons name names ih =>
      rw [List.mapM_cons, ih, field?_entries, Dictionary.get?_ofList]
      rfl
  rw [ofMembers] at hread ⊢
  rw [fields?, hread]
  · exact hfields
  · nofun

end ChatCommands.Json

namespace ChatCommands

open Json

/-! ## Messages -/

theorem MessageKind.ofJson?_name (kind : MessageKind) :
    MessageKind.ofJson? (ofString kind.name) = some kind := by
  have hread := text?_ofString kind.name
  rw [ofString] at hread ⊢
  rw [ofJson?, hread]
  · cases kind <;> rfl
  · nofun

theorem OutboundMessage.ofJson?_toJson (m : OutboundMessage) :
    OutboundMessage.ofJson? m.toJson = some m := by
  obtain ⟨kind, title, body⟩ := m
  have hfields : fields? ["kind", "title", "body"] (toJson { kind, title, body }) =
      some [some (ofString kind.name), title.map ofString, some (ofString body)] := by
    rw [toJson, fields?_ofMembers]
    cases title <;> rfl
  rw [ofJson?, hfields]
  cases title <;> simp [required?, optional?, MessageKind.ofJson?_name]

end ChatCommands
