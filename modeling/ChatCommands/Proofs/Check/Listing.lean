import ChatCommands.Proofs.Check.Layout
import ChatCommands.Proofs.Command.Compiled
import ChatCommands.Proofs.Json.Fields
import ChatCommands.Proofs.Json.RoundTrip
import Mathlib.Data.List.Perm.Basic

/-!
# Documents that list declarations

A list of objects with no fields but those of a declaration (`Check.IsListing`). If declarations
are read from it, all values in it are strings and arrays of strings (`Check.Flat`). Then its
strings stand in the member that was named last (`Check.namedLast_listing`), and those that declare
keys are the names of the declarations (`Check.declarations_of_listing`).
-/

namespace ChatCommands.Check

open Json Text

/-- The names of the fields of a declaration. -/
def fieldNames : List String :=
  ["key", "aliases", "params", "description", "permissions"]

/-- An object with no fields but those of a declaration. -/
def IsRecord (json : Json) : Prop :=
  ∃ members, json = .object members ∧ ∀ m ∈ members, String.ofList m.1 ∈ fieldNames

/-- A document that lists objects with no fields but those of a declaration. -/
def IsListing (json : Json) : Prop :=
  ∃ items, json = .array items ∧ ∀ item ∈ items, IsRecord item

/-- A string, or an array of strings, and their contents. -/
inductive Flat : Json → List (List Char) → Prop where
  | text (raw : List Char) : Flat (.string raw) [raw]
  | texts (raws : List (List Char)) : Flat (.array (raws.map .string)) raws

/-- An object whose values are strings and arrays of strings. -/
def IsFlatRecord (json : Json) : Prop :=
  ∃ members, json = .object members ∧ ∀ m ∈ members, ∃ raws, Flat m.2 raws

/-! ## Strings of a document -/

theorem strings_append (ts us : List Placed) : strings (ts ++ us) = strings ts ++ strings us :=
  List.filterMap_append

theorem strings_comma_intercalate (member : Option (List Char)) (pieces : List (List Placed)) :
    strings ([(.comma, member)].intercalate pieces) = pieces.flatMap strings := by
  induction pieces with
  | nil => rfl
  | cons piece pieces ih =>
    by_cases hlast : pieces = []
    · simp [hlast]
    · rw [List.intercalate_cons_of_ne_nil hlast, strings_append, strings_append, ih,
        List.flatMap_cons]
      simp [strings]

theorem strings_array (member : Option (List Char)) (items : List Json) :
    strings (tokens member (.array items)) = items.flatMap fun i => strings (tokens member i) := by
  rw [tokens, itemTokens_eq]
  change strings ([(.beginArray, member)] ++ (_ ++ _)) = _
  rw [strings_append, strings_append, strings_comma_intercalate, List.flatMap_map]
  simp [strings]

theorem strings_object (member : Option (List Char)) (members : List (List Char × Json)) :
    strings (tokens member (.object members)) =
      members.flatMap fun m => (m.1, none) :: strings (tokens (some m.1) m.2) := by
  rw [tokens, memberTokens_eq]
  change strings ([(.beginObject, none)] ++ (_ ++ _)) = _
  rw [strings_append, strings_append, strings_comma_intercalate, List.flatMap_map]
  simp [strings]

theorem Flat.strings_eq {json : Json} {raws : List (List Char)} (h : Flat json raws)
    (member : Option (List Char)) :
    strings (tokens member json) = raws.map fun raw => (raw, member) := by
  cases h with
  | text raw => simp [strings, tokens]
  | texts raws =>
    rw [strings_array, List.flatMap_map, List.map_eq_flatMap]
    simp [strings, tokens]

/-! ## Names before strings -/

/-- Tokens that may follow a complete value: no colon comes next, and their strings stand in the
member that was named last. -/
structure Follows (current : Option (List Char)) (ts : List Placed) : Prop where
  nameless : ts.head?.map Prod.fst ≠ some .colon
  named : NamedLast current ts

/-- What holds after pieces with commas between them holds before them, if it is kept from the end
to the beginning of each piece and of each comma. -/
theorem comma_intercalate_induction {P : List Placed → Prop} {member : Option (List Char)}
    {pieces : List (List Placed)} {rest : List Placed} (hrest : P rest)
    (comma : ∀ ts, P ts → P ((.comma, member) :: ts))
    (piece : ∀ p ∈ pieces, ∀ ts, P ts → P (p ++ ts)) :
    P ([(.comma, member)].intercalate pieces ++ rest) := by
  induction pieces with
  | nil => exact hrest
  | cons p pieces ih =>
    obtain ⟨hfirst, hpieces⟩ := List.forall_mem_cons.1 piece
    by_cases hlast : pieces = []
    · rw [hlast]
      simpa using hfirst rest hrest
    · rw [List.intercalate_cons_of_ne_nil hlast, List.append_assoc, List.append_assoc]
      exact hfirst _ (comma _ (ih hpieces))

theorem Follows.mark {current member : Option (List Char)} {token : Token} {ts : List Placed}
    (h : NamedLast current ts) (mark : isMark token = true) (nameless : token ≠ .colon) :
    Follows current ((token, member) :: ts) :=
  ⟨by simpa using nameless, .mark mark h⟩

theorem Follows.text {current : Option (List Char)} {raw : List Char} {ts : List Placed}
    (h : Follows current ts) : Follows current ((.text raw, current) :: ts) :=
  ⟨by simp, .value h.nameless h.named⟩

theorem Flat.follows {json : Json} {raws : List (List Char)} (h : Flat json raws)
    {current : Option (List Char)} {ts : List Placed} (hts : Follows current ts) :
    Follows current (tokens current json ++ ts) := by
  cases h with
  | text raw =>
    rw [tokens]
    exact hts.text
  | texts raws =>
    rw [tokens, itemTokens_eq, List.cons_append, List.append_assoc]
    refine .mark (Follows.named ?_) rfl nofun
    refine comma_intercalate_induction ?_ ?_ ?_
    · exact .mark hts.named rfl nofun
    · exact fun ts h => .mark h.named rfl nofun
    · simp only [List.map_map, List.forall_mem_map]
      intro raw _ ts h
      rw [Function.comp_apply, tokens]
      exact h.text

theorem IsFlatRecord.follows {item : Json} (h : IsFlatRecord item) {ts : List Placed}
    (hts : ∀ current, Follows current ts) (member current : Option (List Char)) :
    Follows current (tokens member item ++ ts) := by
  obtain ⟨members, rfl, hflat⟩ := h
  rw [tokens, memberTokens_eq, List.cons_append, List.append_assoc]
  refine .mark (Follows.named ?_) rfl nofun
  -- each member starts with a name, so what was named before it does not matter
  refine comma_intercalate_induction (P := fun ts => ∀ current, Follows current ts) ?_ ?_ ?_ current
  · exact fun current => .mark (hts current).named rfl nofun
  · exact fun ts h current => .mark (h current).named rfl nofun
  · simp only [List.forall_mem_map]
    intro m hm ts h current
    obtain ⟨raws, hraws⟩ := hflat m hm
    exact ⟨by simp, .name (hraws.follows (h (some m.1))).named⟩

theorem namedLast_listing {items : List Json} (flat : ∀ item ∈ items, IsFlatRecord item) :
    NamedLast none (tokens none (.array items)) := by
  rw [tokens, itemTokens_eq]
  refine .mark rfl (Follows.named ?_)
  refine comma_intercalate_induction (P := fun ts => ∀ current, Follows current ts) ?_ ?_ ?_ none
  · exact fun current => .mark .done rfl nofun
  · exact fun ts h current => .mark (h current).named rfl nofun
  · simp only [List.forall_mem_map]
    exact fun item hitem ts h current => (flat item hitem).follows h none current

/-! ## Contents -/

/-- The contents of the strings in a document. -/
def contents (json : Json) : List String :=
  (strings (tokens none json)).map fun p => String.ofList p.1

/-- The strings of a document that declare keys. -/
def declaredIn (json : Json) : List String :=
  ((strings (tokens none json)).filter fun p => declaresKeys p.2).map fun p => String.ofList p.1

/-- A document whose strings have no escapes. -/
def IsPlain (json : Json) : Prop :=
  ∀ s ∈ contents json, Plain s.toList

theorem contents_string (raw : List Char) : contents (.string raw) = [String.ofList raw] := by
  simp [contents, tokens, strings]

theorem contents_array (items : List Json) : contents (.array items) = items.flatMap contents := by
  rw [contents, strings_array, List.map_flatMap]
  rfl

theorem declaredIn_array (items : List Json) :
    declaredIn (.array items) = items.flatMap declaredIn := by
  rw [declaredIn, strings_array, List.filter_flatMap, List.map_flatMap]
  rfl

theorem Flat.contents_eq {json : Json} {raws : List (List Char)} (h : Flat json raws)
    (member : Option (List Char)) :
    (strings (tokens member json)).map (fun p => String.ofList p.1) = contents json := by
  rw [contents, h.strings_eq, h.strings_eq, List.map_map, List.map_map]
  rfl

theorem decode?_of_plain {raw : List Char} (h : Plain raw) : decode? raw = some raw := by
  induction raw with
  | nil => rfl
  | cons c raw ih =>
    obtain ⟨⟨-, hc⟩, hraw⟩ := List.forall_mem_cons.1 h
    rw [decode?_plain hc, ih hraw]
    rfl

theorem contents_of_text? {json : Json} {s : String} (plain : IsPlain json)
    (h : text? json = some s) : contents json = [s] := by
  obtain ⟨raw, rfl, hdecode⟩ := exists_string_of_text? h
  have hraw : Plain raw := by simpa [IsPlain, contents_string] using plain
  rw [decode?_of_plain hraw] at hdecode
  rw [contents_string, Option.some.inj hdecode]

theorem contents_of_list? {json : Json} {ss : List String} (plain : IsPlain json)
    (h : list? text? json = some ss) : contents json = ss := by
  obtain ⟨items, rfl, hitems⟩ := forall₂_of_list? h
  clear h
  rw [IsPlain, contents_array] at plain
  rw [contents_array]
  induction hitems with
  | nil => rfl
  | cons hs _ ih =>
    rw [List.flatMap_cons, List.forall_mem_append] at plain
    rw [List.flatMap_cons, contents_of_text? plain.1 hs, ih plain.2]
    rfl

theorem flat_of_text? {json : Json} {s : String} (h : text? json = some s) :
    ∃ raws, Flat json raws := by
  obtain ⟨raw, rfl, -⟩ := exists_string_of_text? h
  exact ⟨_, .text raw⟩

theorem flat_of_list? {json : Json} {ss : List String} (h : list? text? json = some ss) :
    ∃ raws, Flat json raws := by
  obtain ⟨items, rfl, hitems⟩ := forall₂_of_list? h
  clear h
  have hstrings : ∃ raws : List (List Char), items = raws.map .string := by
    induction hitems with
    | nil => exact ⟨[], rfl⟩
    | cons hs _ ih =>
      obtain ⟨raws, rfl⟩ := ih
      obtain ⟨raw, rfl, -⟩ := exists_string_of_text? hs
      exact ⟨raw :: raws, rfl⟩
  obtain ⟨raws, rfl⟩ := hstrings
  exact ⟨raws, .texts raws⟩

/-! ## Reading declarations -/

section

variable {members : List (List Char × Json)} {d : Declaration}

/-- The values of the members with a name. -/
def valuesOf (members : List (List Char × Json)) (name : String) : List Json :=
  (members.filter fun m => String.ofList m.1 == name).map Prod.snd

/-- What the members of an object have to be for a declaration to be read from them. -/
structure ReadFrom (members : List (List Char × Json)) (d : Declaration) : Prop where
  key : ∃ value, valuesOf members "key" = [value] ∧ text? value = some d.key
  aliases : (valuesOf members "aliases" = [] ∧ d.aliases = []) ∨
    ∃ value, valuesOf members "aliases" = [value] ∧ list? text? value = some d.aliases
  params : ∀ value ∈ valuesOf members "params", text? value = some d.params
  description : ∀ value ∈ valuesOf members "description", text? value = some d.description
  permissions : ∀ value ∈ valuesOf members "permissions",
    list? text? value = some d.permissions

theorem plain_of_known {raw : List Char} (h : String.ofList raw ∈ fieldNames) : Plain raw := by
  have hnames : (fieldNames.all fun name =>
      name.toList.all fun c => c != '"' && c != '\\') = true := by decide +kernel
  intro c hc
  have hname := List.all_eq_true.1 hnames _ h
  rw [String.toList_ofList] at hname
  simpa using List.all_eq_true.1 hname c hc

/-- Names without escapes are read as they are. -/
theorem members?_of_plain (plain : ∀ m ∈ members, Plain m.1) :
    members? (.object members) = some (members.map fun m => (String.ofList m.1, m.2)) := by
  rw [members?]
  induction members with
  | nil => rfl
  | cons m members ih =>
    obtain ⟨hm, hmembers⟩ := List.forall_mem_cons.1 plain
    rw [List.mapM_cons, ih hmembers]
    simp only [decode?_of_plain hm]
    rfl

theorem valuesOf_of_field? {name : String} {field : Option Json}
    (h : field? (members.map fun m => (String.ofList m.1, m.2)) name = some field) :
    valuesOf members name = field.toList := by
  rw [← values_of_field? h, List.filter_map, List.map_map]
  rfl

theorem readFrom_of_ofJson? (plain : ∀ m ∈ members, Plain m.1)
    (h : Declaration.ofJson? (.object members) = some d) : ReadFrom members d := by
  rw [Declaration.ofJson?] at h
  obtain ⟨fields, hfields, h⟩ := Option.bind_eq_some_iff.1 h
  split at h
  · next key aliases params description permissions =>
    rw [fields?, members?_of_plain plain] at hfields
    · have hall := forall₂_of_mapM hfields
      simp only [List.forall₂_cons, List.forall₂_nil_left_iff] at hall
      obtain ⟨hkey, haliases, hparams, hdescription, hpermissions, -⟩ := hall
      simp only [Option.bind_eq_bind, Option.bind_eq_some_iff] at h
      obtain ⟨k, hk, as, has, ps, hps, t, ht, cs, hcs, h⟩ := h
      cases h
      obtain ⟨value, rfl, hvalue⟩ := Option.bind_eq_some_iff.1 hk
      refine ⟨⟨value, valuesOf_of_field? hkey, hvalue⟩, ?_, ?_, ?_, ?_⟩
      · rw [valuesOf_of_field? haliases]
        rcases of_optional? has with ⟨rfl, rfl⟩ | ⟨value, rfl, hvalue⟩
        · exact Or.inl ⟨rfl, rfl⟩
        · exact Or.inr ⟨value, rfl, hvalue⟩
      · exact valuesOf_of_field? hparams ▸ read_of_optional? hps
      · exact valuesOf_of_field? hdescription ▸ read_of_optional? ht
      · exact valuesOf_of_field? hpermissions ▸ read_of_optional? hcs
    · intro items h
      cases h
  · cases h

/-- A declaration is read from strings and arrays of strings. -/
theorem ReadFrom.flat (h : ReadFrom members d)
    (known : ∀ m ∈ members, String.ofList m.1 ∈ fieldNames) :
    ∀ m ∈ members, ∃ raws, Flat m.2 raws := by
  intro m hm
  have hmem : m.2 ∈ valuesOf members (String.ofList m.1) :=
    List.mem_map_of_mem (List.mem_filter.2 ⟨hm, beq_self_eq_true _⟩)
  have hname := known m hm
  simp only [fieldNames, List.mem_cons, List.not_mem_nil, or_false] at hname
  rcases hname with hname | hname | hname | hname | hname <;> rw [hname] at hmem
  · obtain ⟨value, hvalues, hread⟩ := h.key
    obtain rfl := List.mem_singleton.1 (hvalues ▸ hmem)
    exact flat_of_text? hread
  · rcases h.aliases with ⟨hvalues, -⟩ | ⟨value, hvalues, hread⟩
    · rw [hvalues] at hmem
      cases hmem
    · obtain rfl := List.mem_singleton.1 (hvalues ▸ hmem)
      exact flat_of_list? hread
  · exact flat_of_text? (h.params _ hmem)
  · exact flat_of_text? (h.description _ hmem)
  · exact flat_of_list? (h.permissions _ hmem)

/-! ## Strings that declare keys -/

theorem flatMap_valuesOf (members : List (List Char × Json)) (name : String) :
    (valuesOf members name).flatMap contents =
      members.flatMap fun m => if String.ofList m.1 == name then contents m.2 else [] := by
  induction members with
  | nil => rfl
  | cons m members ih =>
    rw [valuesOf] at ih ⊢
    rw [List.filter_cons, List.flatMap_cons, ← ih]
    split <;> rfl

theorem ofList_beq (raw : List Char) (name : String) :
    (String.ofList raw == name) = decide (raw = name.toList) := by
  rw [Bool.eq_iff_iff, beq_iff_eq, decide_eq_true_iff, ← String.toList_inj, String.toList_ofList]

/-- The strings of a member that declare keys, if its value is a string or an array of strings. -/
theorem declared_of_member {m : List Char × Json} {raws : List (List Char)} (h : Flat m.2 raws) :
    (((m.1, none) :: strings (tokens (some m.1) m.2)).filter fun p => declaresKeys p.2).map
        (fun p => String.ofList p.1) =
      (if String.ofList m.1 == "key" then contents m.2 else []) ++
        (if String.ofList m.1 == "aliases" then contents m.2 else []) := by
  have hmember : ∀ p ∈ strings (tokens (some m.1) m.2), declaresKeys p.2 =
      (decide (m.1 = "key".toList) || decide (m.1 = "aliases".toList)) := by
    rw [h.strings_eq, List.forall_mem_map]
    exact fun raw _ => rfl
  have hcontents : (strings (tokens (some m.1) m.2)).map (fun p => String.ofList p.1) =
      contents m.2 := h.contents_eq (some m.1)
  rw [List.filter_cons_of_neg Bool.false_ne_true, List.filter_congr hmember, ofList_beq, ofList_beq,
    ← hcontents]
  by_cases hkey : m.1 = "key".toList
  · have hother : "key".toList ≠ "aliases".toList := by decide
    simp only [hkey, hother, decide_true, decide_false, Bool.true_or, List.filter_true, if_true,
      Bool.false_eq_true, if_false, List.append_nil]
  · by_cases haliases : m.1 = "aliases".toList
    · simp only [haliases, haliases ▸ hkey, decide_true, decide_false, Bool.or_true,
        List.filter_true, if_true, Bool.false_eq_true, if_false, List.nil_append]
    · simp only [hkey, haliases, decide_false, Bool.or_false, List.filter_false,
        Bool.false_eq_true, if_false, List.append_nil, List.map_nil]

/-- **The strings that declare keys in an object are the names of the declaration** that is read
from it, though the aliases may come first. -/
theorem ReadFrom.declaredIn_perm (h : ReadFrom members d) (plain : ∀ m ∈ members, IsPlain m.2)
    (flat : ∀ m ∈ members, ∃ raws, Flat m.2 raws) :
    (declaredIn (.object members)).Perm d.names := by
  have hsplit : declaredIn (.object members) = members.flatMap fun m =>
      (if String.ofList m.1 == "key" then contents m.2 else []) ++
        (if String.ofList m.1 == "aliases" then contents m.2 else []) := by
    rw [declaredIn, strings_object, List.filter_flatMap, List.map_flatMap]
    refine List.flatMap_congr fun m hm => ?_
    obtain ⟨raws, hraws⟩ := flat m hm
    exact declared_of_member hraws
  have hplain : ∀ name, ∀ value ∈ valuesOf members name, IsPlain value := by
    intro name value hvalue
    obtain ⟨m, hm, rfl⟩ := List.mem_map.1 hvalue
    exact plain m (List.mem_of_mem_filter hm)
  have hkey : (valuesOf members "key").flatMap contents = [d.key] := by
    obtain ⟨value, hvalues, hread⟩ := h.key
    rw [hvalues, List.flatMap_singleton]
    exact contents_of_text? (hplain "key" value (by simp [hvalues])) hread
  have haliases : (valuesOf members "aliases").flatMap contents = d.aliases := by
    rcases h.aliases with ⟨hvalues, hnone⟩ | ⟨value, hvalues, hread⟩
    · rw [hvalues, hnone, List.flatMap_nil]
    · rw [hvalues, List.flatMap_singleton]
      exact contents_of_list? (hplain "aliases" value (by simp [hvalues])) hread
  rw [hsplit, Declaration.names]
  refine (List.flatMap_append_perm _ _ _).symm.trans (List.Perm.of_eq ?_)
  rw [← flatMap_valuesOf, ← flatMap_valuesOf, hkey, haliases, List.singleton_append]

end

/-- What a record of known fields has in it, if a declaration is read from it. -/
theorem declaration_of_record {item : Json} {d : Declaration} (h : IsRecord item)
    (hread : Declaration.ofJson? item = some d) :
    IsFlatRecord item ∧ (IsPlain item → (declaredIn item).Perm d.names) := by
  obtain ⟨members, rfl, known⟩ := h
  have hfrom := readFrom_of_ofJson? (fun m hm => plain_of_known (known m hm)) hread
  have hflat := hfrom.flat known
  refine ⟨⟨members, rfl, hflat⟩, fun plain => hfrom.declaredIn_perm ?_ hflat⟩
  intro m hm s hs
  obtain ⟨raws, hraws⟩ := hflat m hm
  refine plain s ?_
  rw [contents, strings_object, List.map_flatMap]
  refine List.mem_flatMap.2 ⟨m, hm, ?_⟩
  rw [List.map_cons, hraws.contents_eq]
  exact List.mem_cons_of_mem _ hs

/-- **What a listing has in it**, if declarations are read from it: induction on the list. -/
theorem declarations_of_listing {items : List Json} {ds : List Declaration}
    (h : ∀ item ∈ items, IsRecord item) (hread : items.mapM Declaration.ofJson? = some ds) :
    (∀ item ∈ items, IsFlatRecord item) ∧
      (IsPlain (.array items) →
        (declaredIn (.array items)).Perm (ds.flatMap Declaration.names)) := by
  have hall := forall₂_of_mapM hread
  clear hread
  rw [IsPlain, contents_array, declaredIn_array]
  induction hall with
  | nil => exact ⟨List.forall_mem_nil _, fun _ => List.Perm.refl _⟩
  | cons hitem _ ih =>
    rw [List.forall_mem_cons] at h
    obtain ⟨hflat, hperm⟩ := declaration_of_record h.1 hitem
    obtain ⟨hflats, hperms⟩ := ih h.2
    refine ⟨List.forall_mem_cons.2 ⟨hflat, hflats⟩, fun plain => ?_⟩
    rw [List.flatMap_cons, List.forall_mem_append] at plain
    rw [List.flatMap_cons, List.flatMap_cons]
    exact (hperm plain.1).append (hperms plain.2)

end ChatCommands.Check
