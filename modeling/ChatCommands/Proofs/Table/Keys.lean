import ChatCommands.Proofs.Table.Lookup
import ChatCommands.Proofs.Text.LowerCase

/-!
# The keys of a table

A key that a declaration declares is one word, and the command gets the lower case of it. Lower
case is settled, and has no blanks that were not there before. So a key or alias of a declared
table is read back as itself when it is typed: it is one word, and its own lower case
(`Table.Declared.readsBack`).
-/

namespace ChatCommands

open Text

/-- A key that is read as itself when it is typed. -/
structure ReadsBack (key : String) : Prop where
  ne_nil : key.toList ≠ []
  word : ∀ c ∈ key.toList, isBlank c = false
  lowered : lower key.toList = key.toList

namespace Command

theorem readsBack_of_foldKey {raw key : String} (h : foldKey raw = .ok key) : ReadsBack key := by
  rw [foldKey] at h
  split at h
  · cases h
  next hvalid =>
  cases h
  rw [Bool.or_eq_true, not_or, List.isEmpty_iff, List.any_eq_true] at hvalid
  obtain ⟨hne, hword⟩ := hvalid
  refine ⟨?_, ?_, ?_⟩
  · rw [String.toList_ofList]
    exact lower_ne_nil hne
  · intro c hc
    rw [String.toList_ofList] at hc
    rw [Bool.eq_false_iff]
    intro hblank
    exact hword ⟨c, isBlank_of_mem_lower hc hblank, hblank⟩
  · rw [String.toList_ofList, lower_lower]

theorem readsBack_of_foldKeys {raws keys : List String} (h : foldKeys raws = .ok keys) :
    ∀ key ∈ keys, ReadsBack key := by
  induction raws generalizing keys with
  | nil =>
    cases h
    simp
  | cons raw raws ih =>
    rw [foldKeys] at h
    cases hfirst : foldKey raw with
    | error e =>
      rw [hfirst] at h
      cases h
    | ok first =>
      cases hrest : foldKeys raws with
      | error e =>
        rw [hfirst, hrest] at h
        cases h
      | ok rest =>
        rw [hfirst, hrest] at h
        cases h
        intro key hkey
        rcases List.mem_cons.1 hkey with rfl | hkey
        · exact readsBack_of_foldKey hfirst
        · exact ih hrest key hkey

end Command

/-- Every key and alias of a declared table is read as itself. -/
theorem Table.Declared.readsBack {t : Table} (h : t.Declared) {key : String} (hkey : key ∈ t.keys) :
    ReadsBack key := by
  obtain ⟨e, he, hkey⟩ := mem_keys_iff.1 hkey
  obtain ⟨declaration, hcommand⟩ := h e he
  obtain ⟨hfold, haliases, -⟩ := Command.parts_of_ofDeclaration hcommand
  rw [Command.keys] at hkey
  rcases List.mem_cons.1 hkey with rfl | halias
  · exact Command.readsBack_of_foldKey hfold
  · exact Command.readsBack_of_foldKeys haliases key halias

end ChatCommands
