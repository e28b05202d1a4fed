import ChatCommands.Json.Reader
import ChatCommands.Json.Record
import Mathlib.Data.List.Forall2

/-!
# What values were read from

The readers of values with known shape, followed back to the documents that they accept: a text was
a string (`Json.exists_string_of_text?`), each item of a list was read on its own
(`Json.forall₂_of_list?`), and the value of a field is the only one that was given under its name
(`Json.values_of_field?`). An object gives its fields values by their names and an array by their
places (`Json.Gives`); either way a field is read from what it is given, and what holds in its
absence is used for no other field (`Json.reads_of_fields?`).
-/

namespace ChatCommands.Json

/-- What is read one by one is read in order. -/
theorem forall₂_of_mapM {α β : Type} {f : α → Option β} {xs : List α} {ys : List β}
    (h : xs.mapM f = some ys) : List.Forall₂ (fun x y => f x = some y) xs ys := by
  induction xs generalizing ys with
  | nil =>
    cases h
    exact .nil
  | cons x xs ih =>
    rw [List.mapM_cons] at h
    obtain ⟨y, hy, h⟩ := Option.bind_eq_some_iff.1 h
    obtain ⟨rest, hrest, h⟩ := Option.bind_eq_some_iff.1 h
    cases h
    exact .cons hy (ih hrest)

/-- The results are those of the single items. -/
theorem mem_iff_of_mapM {α β : Type} {f : α → Option β} {xs : List α} {ys : List β}
    (h : xs.mapM f = some ys) {y : β} : y ∈ ys ↔ ∃ x ∈ xs, f x = some y := by
  have hall := forall₂_of_mapM h
  clear h
  induction hall with
  | nil => simp
  | cons hxy _ ih => simp [ih, hxy, eq_comm]

theorem exists_string_of_text? {json : Json} {s : String} (h : text? json = some s) :
    ∃ raw, json = .string raw ∧ (decode? raw).map String.ofList = some s := by
  unfold text? at h
  split at h
  · next raw => exact ⟨raw, rfl, h⟩
  · cases h

/-- Each item of a list was read on its own. -/
theorem forall₂_of_list? {α : Type} {read : Json → Option α} {json : Json} {xs : List α}
    (h : list? read json = some xs) :
    ∃ items, json = .array items ∧ List.Forall₂ (fun item x => read item = some x) items xs := by
  unfold list? at h
  split at h
  · next items => exact ⟨items, rfl, forall₂_of_mapM h⟩
  · cases h

/-- The value that the members give a field is the only one under its name. -/
theorem values_of_field? {members : List (String × Json)} {name : String} {field : Option Json}
    (h : field? members name = some field) :
    (members.filter (·.1 == name)).map Prod.snd = field.toList := by
  rw [field?] at h
  split at h
  · next hnone =>
    cases h
    rw [hnone]
    rfl
  · next value hone =>
    cases h
    rw [hone]
    rfl
  · cases h

theorem of_optional? {α : Type} {absent x : α} {read : Json → Option α} {field : Option Json}
    (h : optional? absent read field = some x) :
    (field = none ∧ x = absent) ∨ ∃ value, field = some value ∧ read value = some x := by
  cases field with
  | none =>
    cases h
    exact Or.inl ⟨rfl, rfl⟩
  | some value => exact Or.inr ⟨value, rfl, h⟩

theorem read_of_optional? {α : Type} {absent x : α} {read : Json → Option α} {field : Option Json}
    (h : optional? absent read field = some x) : ∀ value ∈ field.toList, read value = some x := by
  rcases of_optional? h with ⟨rfl, -⟩ | ⟨value, rfl, hvalue⟩
  · exact List.forall_mem_nil _
  · exact List.forall_mem_singleton.2 hvalue

/-! ## Fields of a record -/

/-- A record gives a value to one of its fields: as a member of the field's name, or as the item in
the field's place. -/
inductive Gives (names : List String) : Json → String → Json → Prop where
  | member {members : List (List Char × Json)} {raw : List Char} {name : String} {value : Json}
      (listed : (raw, value) ∈ members) (named : decode? raw = some name.toList) :
    Gives names (.object members) name value
  | item {items : List Json} {i : Nat} {name : String} {value : Json}
      (field : names[i]? = some name) (listed : items[i]? = some value) :
    Gives names (.array items) name value

/-- A field of a record is read: from the value that it is given, or else as what holds in its
absence. -/
structure Reads {α : Type} (names : List String) (record : Json) (name : String)
    (read : Json → Option α) (absent x : α) : Prop where
  given : ∀ value, record.Gives names name value → read value = some x
  left_out : (∀ value, ¬ record.Gives names name value) → x = absent

section Fields

variable {names : List String} {record : Json} {fields : List (Option Json)}

theorem gives_object_iff {members : List (List Char × Json)} {decoded : List (String × Json)}
    (h : (Json.object members).members? = some decoded) {name : String} {value : Json} :
    (Json.object members).Gives names name value ↔ (name, value) ∈ decoded := by
  rw [mem_iff_of_mapM h]
  constructor
  · rintro (⟨listed, named⟩ | -)
    exact ⟨_, listed, by simp [named]⟩
  · rintro ⟨⟨raw, value⟩, listed, hread⟩
    obtain ⟨cs, hcs, heq⟩ := Option.map_eq_some_iff.1 hread
    cases heq
    exact .member listed (by rw [hcs, String.toList_ofList])

theorem gives_array_iff {items : List Json} (distinct : names.Nodup) {i : Nat} {name : String}
    (hname : names[i]? = some name) {value : Json} :
    (Json.array items).Gives names name value ↔ items[i]? = some value := by
  constructor
  · rintro (- | ⟨field, listed⟩)
    have hi := (List.getElem?_eq_some_iff.1 field).1
    rwa [← (List.getElem?_inj hi distinct).1 (field.trans hname.symm)]
  · exact .item hname

/-- What a record gives a field is what is read for it. -/
theorem gives_iff_of_fields? (distinct : names.Nodup) (h : record.fields? names = some fields)
    {i : Nat} {name : String} (hname : names[i]? = some name) {value : Json} :
    record.Gives names name value ↔ fields[i]? = some (some value) := by
  have hi : i < names.length := (List.getElem?_eq_some_iff.1 hname).1
  unfold fields? at h
  split at h
  · next items =>
    split at h
    · next hle =>
      cases h
      rw [gives_array_iff distinct hname]
      -- an array may end before the place of the field
      by_cases hlt : i < items.length
      · simp [List.getElem?_append, hlt]
      · simp [List.getElem?_append, hlt, List.getElem?_replicate]
    · cases h
  · cases record with
    | object members =>
      obtain ⟨decoded, hdecoded, h⟩ := Option.bind_eq_some_iff.1 h
      -- the field's own reading is the one in its place
      have hfields := forall₂_of_mapM h
      have hi' : i < fields.length := hfields.length_eq ▸ hi
      have hfield : field? decoded names[i] = some fields[i] := hfields.get hi hi'
      rw [List.getElem?_eq_getElem hi, Option.some_inj] at hname
      rw [gives_object_iff hdecoded, List.getElem?_eq_getElem hi', Option.some_inj,
        ← Option.mem_toList, ← values_of_field? hfield, hname]
      simp
    | _ => cases h

/-- A field is read from what the record gives it. -/
theorem reads_of_fields? {α : Type} {read : Json → Option α} {absent x : α}
    (distinct : names.Nodup) (h : record.fields? names = some fields) {i : Nat} {name : String}
    (hname : names[i]? = some name) {field : Option Json} (hfield : fields[i]? = some field)
    (hread : optional? absent read field = some x) : Reads names record name read absent x := by
  have hgives : ∀ value, record.Gives names name value ↔ field = some value := fun value => by
    rw [gives_iff_of_fields? distinct h hname, hfield, Option.some_inj]
  rcases of_optional? hread with ⟨rfl, rfl⟩ | ⟨value, rfl, hvalue⟩
  · exact ⟨fun value hgiven => (nomatch (hgives value).1 hgiven), fun _ => rfl⟩
  · refine ⟨fun other hgiven => ?_, fun hnone => absurd ((hgives value).2 rfl) (hnone value)⟩
    cases (hgives other).1 hgiven
    exact hvalue

end Fields

end ChatCommands.Json
