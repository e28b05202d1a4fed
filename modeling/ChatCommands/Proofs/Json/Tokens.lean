import ChatCommands.Json.Reader

/-!
# The tokens of a document

A text that is read as a document has the tokens of this document (`Json.lex_of_ofText?`), so the
document tells for each of them what it is part of. `Json.tokens` gives the tokens in order, each
with the name of the member in whose value it stands.

The builder keeps what it has read in frames. The tokens that these were read from are told by
`Frame.consumed`, and no step of the builder changes what was consumed and is still to come
together.
-/

namespace ChatCommands.Json

/-- A token and the name of the innermost member in whose value it stands, if there is one. An
object's own tokens, its names among them, stand in none. -/
abbrev Placed := Token × Option (List Char)

mutual

/-- The tokens of a document in order, for a document that stands in a member. -/
def tokens (member : Option (List Char)) : Json → List Placed
  | .string raw => [(.text raw, member)]
  | .array items =>
    (.beginArray, member) ::
      ([(.comma, member)].intercalate (itemTokens member items) ++ [(.endArray, member)])
  | .object members =>
    (.beginObject, none) ::
      ([(.comma, none)].intercalate (memberTokens members) ++ [(.endObject, none)])
  | value => [(.atom value, member)]

/-- The tokens of each item of an array. -/
def itemTokens (member : Option (List Char)) : List Json → List (List Placed)
  | [] => []
  | item :: items => tokens member item :: itemTokens member items

/-- The tokens of each member of an object. -/
def memberTokens : List (List Char × Json) → List (List Placed)
  | [] => []
  | (name, value) :: members =>
    ((.text name, none) :: (.colon, none) :: tokens (some name) value) :: memberTokens members

end

theorem itemTokens_eq (member : Option (List Char)) (items : List Json) :
    itemTokens member items = items.map (tokens member) := by
  induction items with
  | nil => rw [itemTokens, List.map_nil]
  | cons item items ih => rw [itemTokens, ih, List.map_cons]

theorem memberTokens_eq (members : List (List Char × Json)) :
    memberTokens members = members.map fun m =>
      (.text m.1, none) :: (.colon, none) :: tokens (some m.1) m.2 := by
  induction members with
  | nil => rw [memberTokens, List.map_nil]
  | cons m members ih => rw [memberTokens, ih, List.map_cons]

/-! ## Tokens alone -/

/-- The tokens of a document without their members. -/
def plainTokens (json : Json) : List Token :=
  (tokens none json).map Prod.fst

theorem map_fst_intercalate (separator : Placed) (pieces : List (List Placed)) :
    ([separator].intercalate pieces).map Prod.fst =
      [separator.1].intercalate (pieces.map (List.map Prod.fst)) := by
  induction pieces with
  | nil => rfl
  | cons piece pieces ih =>
    by_cases hlast : pieces = []
    · simp [hlast]
    · have hmapped : pieces.map (List.map Prod.fst) ≠ [] := by simpa using hlast
      rw [List.intercalate_cons_of_ne_nil hlast, List.map_cons,
        List.intercalate_cons_of_ne_nil hmapped, List.map_append, List.map_append, ih]
      rfl

mutual

/-- Where a document stands does not matter to its tokens. -/
theorem map_fst_tokens (member : Option (List Char)) :
    ∀ json, (tokens member json).map Prod.fst = plainTokens json
  | .null | .bool _ | .number _ | .string _ => by simp [plainTokens, tokens]
  | .array items => by
    simp only [plainTokens, tokens, List.map_cons, List.map_append, List.map_nil,
      map_fst_intercalate, map_fst_itemTokens member items, map_fst_itemTokens none items]
  | .object members => by simp only [plainTokens, tokens]

theorem map_fst_itemTokens (member : Option (List Char)) :
    ∀ items, (itemTokens member items).map (List.map Prod.fst) = items.map plainTokens
  | [] => by rw [itemTokens, List.map_nil, List.map_nil]
  | item :: items => by
    rw [itemTokens, List.map_cons, map_fst_tokens member item, map_fst_itemTokens member items,
      List.map_cons]

end

theorem plainTokens_array (items : List Json) : plainTokens (.array items) =
    .beginArray :: ([Token.comma].intercalate (items.map plainTokens) ++ [.endArray]) := by
  simp only [plainTokens, tokens, List.map_cons, List.map_append, List.map_nil,
    map_fst_intercalate, map_fst_itemTokens none items]

/-- The tokens of a member. -/
def memberPlainTokens (member : List Char × Json) : List Token :=
  .text member.1 :: .colon :: plainTokens member.2

theorem plainTokens_object (members : List (List Char × Json)) : plainTokens (.object members) =
    .beginObject ::
      ([Token.comma].intercalate (members.map memberPlainTokens) ++ [.endObject]) := by
  have hmember : ∀ m : List Char × Json,
      List.map Prod.fst (((.text m.1, none) : Placed) :: (.colon, none) ::
        tokens (some m.1) m.2) = memberPlainTokens m := by
    intro m
    rw [List.map_cons, List.map_cons, map_fst_tokens (some m.1) m.2, memberPlainTokens]
  simp only [plainTokens, tokens, List.map_cons, List.map_append, List.map_nil,
    map_fst_intercalate, memberTokens_eq, List.map_map, Function.comp_def, hmember]

/-- Pieces with a comma between any two are the pieces with a comma after each but the last. -/
theorem intercalate_comma_concat (pieces : List (List Token)) (last : List Token) :
    [Token.comma].intercalate (pieces ++ [last]) =
      pieces.flatMap (· ++ [.comma]) ++ last := by
  induction pieces with
  | nil => simp
  | cons piece pieces ih =>
    rw [List.cons_append, List.intercalate_cons_of_ne_nil (by simp), ih, List.flatMap_cons,
      ← List.append_assoc]

/-! ## What the builder has consumed -/

/-- The tokens that a frame was read from. Its items or members are complete, and the last name is
that of the value to come. -/
def Frame.consumed : Frame → List Token
  | .array items => .beginArray :: items.reverse.flatMap fun item => plainTokens item ++ [.comma]
  | .object members name =>
    .beginObject :: (members.reverse.flatMap (fun m => memberPlainTokens m ++ [.comma]) ++
      [.text name, .colon])

/-- The tokens that open frames were read from, innermost first. -/
def consumed : List Frame → List Token
  | [] => []
  | frame :: frames => consumed frames ++ frame.consumed

/-- The tokens that were read in the innermost frame since it was complete. -/
def Due.consumed : Due → List Token
  | .value => []
  | .name members =>
    .beginObject :: members.reverse.flatMap fun m => memberPlainTokens m ++ [.comma]
  | .colon members last =>
    .beginObject :: (members.reverse.flatMap (fun m => memberPlainTokens m ++ [.comma]) ++
      [.text last])
  | .after complete => plainTokens complete

theorem plainTokens_array_reverse (items : List Json) (last : Json) :
    plainTokens (.array (last :: items).reverse) =
      (Frame.array items).consumed ++ (plainTokens last ++ [.endArray]) := by
  rw [plainTokens_array, List.reverse_cons, List.map_append, List.map_singleton,
    intercalate_comma_concat, List.flatMap_map, Frame.consumed]
  simp

theorem plainTokens_object_reverse (members : List (List Char × Json)) (name : List Char)
    (last : Json) :
    plainTokens (.object ((name, last) :: members).reverse) =
      (Frame.object members name).consumed ++ (plainTokens last ++ [.endObject]) := by
  rw [plainTokens_object, List.reverse_cons, List.map_append, List.map_singleton,
    intercalate_comma_concat, List.flatMap_map, Frame.consumed, memberPlainTokens]
  simp

/-- The atoms among the tokens are no strings, arrays or objects. -/
def Leaves (ts : List Token) : Prop :=
  ∀ value, Token.atom value ∈ ts → plainTokens value = [.atom value]

theorem Leaves.tail {t : Token} {ts : List Token} (h : Leaves (t :: ts)) : Leaves ts :=
  fun value hvalue => h value (List.mem_cons_of_mem t hvalue)

theorem Leaves.append {ts us : List Token} (hts : Leaves ts) (hus : Leaves us) :
    Leaves (ts ++ us) :=
  fun value hvalue => (List.mem_append.1 hvalue).elim (hts value) (hus value)

/-- The marks of JSON. -/
theorem ofMark?_cases {c : Char} {token : Token} (h : Token.ofMark? c = some token) :
    (c = '[' ∧ token = .beginArray) ∨ (c = ']' ∧ token = .endArray) ∨
      (c = '\x7b' ∧ token = .beginObject) ∨ (c = '\x7d' ∧ token = .endObject) ∨
      (c = ':' ∧ token = .colon) ∨ (c = ',' ∧ token = .comma) := by
  unfold Token.ofMark? at h
  split at h <;> cases h <;> simp

/-- A word is an atom that is no string, array or object. -/
theorem atom_of_ofWord? {word : List Char} {t : Token} (h : Token.ofWord? word = some t) :
    ∃ value, t = .atom value ∧ plainTokens value = [.atom value] := by
  rw [Token.ofWord?] at h
  split at h
  · cases h
    exact ⟨.null, rfl, by simp [plainTokens, tokens]⟩
  split at h
  · cases h
    exact ⟨.bool true, rfl, by simp [plainTokens, tokens]⟩
  split at h
  · cases h
    exact ⟨.bool false, rfl, by simp [plainTokens, tokens]⟩
  split at h
  · cases h
    exact ⟨.number word, rfl, by simp [plainTokens, tokens]⟩
  · cases h

theorem leaves_of_ofWord? {word : List Char} {t : Token} (h : Token.ofWord? word = some t) :
    Leaves [t] := by
  obtain ⟨value, rfl, hvalue⟩ := atom_of_ofWord? h
  intro other hother
  cases List.mem_singleton.1 hother
  exact hvalue

theorem leaves_start (c : Char) : Leaves (Token.start c).1 := by
  rw [Token.start]
  split
  · simp [Leaves]
  split
  · simp [Leaves]
  split
  · next mark hmark =>
    intro value hvalue
    rw [← List.mem_singleton.1 hvalue] at hmark
    rcases ofMark?_cases hmark with h | h | h | h | h | h <;> cases h.2
  · simp [Leaves]

/-- The atoms that are scanned are words: induction on the text, in which only a word that ends
becomes an atom. -/
theorem leaves_of_scan {place : Token.Place} {cs : List Char} {ts : List Token}
    (h : Token.scan place cs = some ts) : Leaves ts := by
  fun_induction Token.scan place cs generalizing ts with
  | case1 =>
    cases h
    simp [Leaves]
  | case2 c cs ih =>
    obtain ⟨rest, hrest, rfl⟩ := Option.map_eq_some_iff.1 h
    exact (leaves_start c).append (ih hrest)
  | case3 read =>
    obtain ⟨word, hword, rfl⟩ := Option.map_eq_some_iff.1 h
    exact leaves_of_ofWord? hword
  | case5 read c cs _ ih =>
    obtain ⟨word, hword, hscan⟩ := Option.bind_eq_some_iff.1 h
    obtain ⟨rest, hrest, rfl⟩ := Option.map_eq_some_iff.1 hscan
    exact (leaves_of_ofWord? hword).append ((leaves_start c).append (ih hrest))
  | case6 read cs ih =>
    obtain ⟨rest, hrest, rfl⟩ := Option.map_eq_some_iff.1 h
    have htext : Leaves [.text read.reverse] := by simp [Leaves]
    exact htext.append (ih hrest)
  | case4 | case7 | case9 | case10 | case11 | case14 | case15 =>
    rename_i ih
    exact ih h
  | case8 | case12 | case13 | case16 => cases h

/-- The document that is built has the tokens that were consumed and those still to come:
induction on the latter, each of which a step of the builder moves to the former. -/
theorem consumed_of_build {due : Due} {frames : List Frame} {ts : List Token} {json : Json}
    (leaves : Leaves ts) (h : build due frames ts = some json) :
    plainTokens json = consumed frames ++ (due.consumed ++ ts) := by
  fun_induction build due frames ts with
  | case1 frames value ts ih =>
    have hleaf : (Due.after value).consumed = [.atom value] := leaves value List.mem_cons_self
    rw [ih leaves.tail h, hleaf]
    rfl
  | case2 frames raw ts ih =>
    rw [ih leaves.tail h]
    rfl
  | case3 frames ts ih =>
    rw [ih leaves.tail h]
    simp [consumed, Due.consumed, Frame.consumed]
  | case4 frames ts ih =>
    rw [ih leaves.tail h]
    rfl
  | case5 frames ts ih =>
    rw [ih leaves.tail h]
    simp [consumed, Due.consumed, Frame.consumed, plainTokens_array]
  | case6 members frames raw ts ih =>
    rw [ih leaves.tail h]
    simp [Due.consumed]
  | case7 frames ts ih =>
    rw [ih leaves.tail h]
    simp [Due.consumed, plainTokens_object]
  | case8 members name frames ts ih =>
    rw [ih leaves.tail h]
    simp [consumed, Due.consumed, Frame.consumed]
  | case9 value items frames ts ih =>
    rw [ih leaves.tail h]
    simp [consumed, Due.consumed, Frame.consumed]
  | case10 value items frames ts ih =>
    rw [ih leaves.tail h, Due.consumed, plainTokens_array_reverse]
    simp [consumed, Due.consumed]
  | case11 value members name frames ts ih =>
    rw [ih leaves.tail h]
    simp [consumed, Due.consumed, Frame.consumed, memberPlainTokens]
  | case12 value members name frames ts ih =>
    rw [ih leaves.tail h, Due.consumed, plainTokens_object_reverse]
    simp [consumed, Due.consumed]
  | case13 value =>
    cases h
    simp [consumed, Due.consumed]
  | case14 => cases h

/-- **A text that is read as a document has the tokens of the document.** -/
theorem lex_of_ofText? {text : String} {json : Json} (h : ofText? text = some json) :
    Token.lex text.toList = some (plainTokens json) := by
  obtain ⟨ts, hlex, hbuild⟩ := Option.bind_eq_some_iff.1 h
  rw [hlex, consumed_of_build (leaves_of_scan hlex) hbuild]
  rfl

end ChatCommands.Json
