import ChatCommands.Proofs.Table.Lookup

/-!
# Building tables

A table is built exactly from entries whose keys and aliases are all different, and it has them in
their order (`Table.built_from_distinct_keys`). Then each key leads to one position
(`Table.position_unique`), the one that the index has for it.
-/

namespace ChatCommands

namespace Command

theorem conflict?_eq_none_of_nodup {earlier : List Command} {c : Command}
    (h : (allKeys (earlier ++ [c])).Nodup) : c.conflict? earlier = none := by
  simp only [allKeys, List.flatMap_append, List.flatMap_singleton] at h
  obtain ⟨-, hown, hdisjoint⟩ := List.nodup_append.1 h
  rw [conflict?, List.findSome?_eq_none_iff]
  intro key hkey
  refine conflictAt?_eq_none_iff.2 ⟨List.nodup_iff_count.1 hown key, ?_⟩
  rw [List.find?_eq_none]
  intro e he hkeys
  have hearlier : key ∈ earlier.flatMap keys := List.mem_flatMap.2 ⟨e, he, by simpa using hkeys⟩
  exact hdisjoint key hearlier key hkey rfl

/-- Commands whose keys are all different have no conflict: induction on those still to come, each
of which joins the earlier ones. -/
theorem firstConflict?_eq_none_of_nodup {earlier rest : List Command}
    (h : (allKeys (earlier ++ rest)).Nodup) : firstConflict? earlier rest = none := by
  induction rest generalizing earlier with
  | nil => rfl
  | cons c rest ih =>
    rw [← List.singleton_append, ← List.append_assoc] at h
    have hfirst : (allKeys (earlier ++ [c])).Nodup := by
      rw [allKeys, List.flatMap_append] at h
      exact (List.nodup_append.1 h).1
    rw [firstConflict?, conflict?_eq_none_of_nodup hfirst, Option.none_or]
    exact ih h

theorem firstConflict?_eq_none_iff {commands : List Command} :
    firstConflict? [] commands = none ↔ (allKeys commands).Nodup :=
  ⟨fun h => nodup_of_firstConflict?_eq_none h List.nodup_nil,
    fun h => firstConflict?_eq_none_of_nodup (by simpa using h)⟩

theorem count_of_conflict? {earlier : List Command} {c : Command} {duplicate : DuplicateKey}
    (h : c.conflict? earlier = some duplicate) :
    1 < (allKeys (earlier ++ [c])).count duplicate.key := by
  obtain ⟨key, hkey, hconflict⟩ := List.exists_of_findSome?_eq_some h
  rw [conflictAt?] at hconflict
  rw [allKeys, List.flatMap_append, List.flatMap_singleton, List.count_append]
  split at hconflict
  · next htwice =>
    cases hconflict
    simp only
    omega
  · obtain ⟨e, he, rfl⟩ := Option.map_eq_some_iff.1 hconflict
    have hown : 0 < c.keys.count key := List.count_pos_iff.2 hkey
    have hearlier : 0 < (earlier.flatMap keys).count key := by
      have hkeys := List.find?_some he
      exact List.count_pos_iff.2 (List.mem_flatMap.2 ⟨e, List.mem_of_find?_eq_some he,
        by simpa using hkeys⟩)
    simp only
    omega

/-- A conflict is about a key that the commands have more than once: induction on those still to
come, each of which joins the earlier ones. -/
theorem count_of_firstConflict? {earlier rest : List Command} {duplicate : DuplicateKey}
    (h : firstConflict? earlier rest = some duplicate) :
    1 < (allKeys (earlier ++ rest)).count duplicate.key := by
  induction rest generalizing earlier with
  | nil => cases h
  | cons c rest ih =>
    rw [firstConflict?, Option.or_eq_some_iff] at h
    rw [← List.singleton_append, ← List.append_assoc]
    rcases h with hconflict | ⟨-, hrest⟩
    · have hcount := count_of_conflict? hconflict
      rw [allKeys, List.flatMap_append, List.count_append, ← allKeys]
      omega
    · exact ih hrest

end Command

namespace Table

/-- A key belongs to the entry at one position only. -/
theorem position_unique {t : Table} {i j : Nat} {e e' : Entry} {key : String}
    (he : t.entries[i]? = some e) (he' : t.entries[j]? = some e') (hkey : key ∈ e.command.keys)
    (hkey' : key ∈ e'.command.keys) : i = j := by
  have hdistinct := t.distinct
  rw [Command.allKeys, List.flatMap_map, List.nodup_flatMap, List.pairwise_iff_getElem] at hdistinct
  obtain ⟨hi, rfl⟩ := List.getElem?_eq_some_iff.1 he
  obtain ⟨hj, rfl⟩ := List.getElem?_eq_some_iff.1 he'
  rcases Nat.lt_trichotomy i j with hlt | heq | hgt
  · exact absurd hkey' (hdistinct.2 i j hi hj hlt hkey)
  · exact heq
  · exact absurd hkey (hdistinct.2 j i hj hi hgt hkey')

/-- A key leads to an entry exactly if it is a key or alias of this entry and of no other. -/
theorem find?_eq_some_iff_position {t : Table} {key : String} {e : Entry} :
    t.find? key = some e ↔ ∃ position, t.entries[position]? = some e ∧ key ∈ e.command.keys ∧
      ∀ (other : Nat) (e' : Entry), t.entries[other]? = some e' → key ∈ e'.command.keys →
        other = position := by
  rw [find?_eq_some_iff]
  constructor
  · rintro ⟨he, hkey⟩
    obtain ⟨position, hposition⟩ := List.mem_iff_getElem?.1 he
    refine ⟨position, hposition, hkey, ?_⟩
    intro other e' hother hkey'
    exact position_unique hother hposition hkey' hkey
  · rintro ⟨position, hposition, hkey, -⟩
    exact ⟨List.mem_of_getElem? hposition, hkey⟩

/-- **Tables represent their entries**: a table is built exactly from entries whose keys and
aliases are all different. It has the entries and their keys in order, and leads from every text
to the one entry that has it as a key or alias, if there is one. While it is built, whether or not
that succeeds, no key leads to a position without an entry. -/
theorem built_from_distinct_keys (entries : List Entry) :
    ((∃ t, ofEntries entries = .ok t) ↔ (Command.allKeys (entries.map Entry.command)).Nodup) ∧
    (∀ t, ofEntries entries = .ok t →
      t.entries = entries ∧ t.keys = Command.allKeys (entries.map Entry.command) ∧
      ∀ key e, t.find? key = some e ↔
        ∃ position, entries[position]? = some e ∧ key ∈ e.command.keys ∧
          ∀ (other : Nat) (e' : Entry), entries[other]? = some e' → key ∈ e'.command.keys →
            other = position) ∧
    ∀ position, Draft.ofCommands (entries.map Entry.command) ≠ .error (.dangling position) := by
  refine ⟨?_, ?_, Draft.ofCommands_ne_dangling _⟩
  · rw [← Command.firstConflict?_eq_none_iff]
    rcases ofEntries_cases entries with ⟨conflict, hconflict, hfault⟩ | ⟨hnone, t, hbuilt, -⟩
    · rw [hconflict, hfault]
      simp
    · rw [hnone, hbuilt]
      simp
  · intro t hbuilt
    obtain rfl := entries_of_ofEntries hbuilt
    exact ⟨rfl, rfl, fun key e => find?_eq_some_iff_position⟩

theorem built_from_distinct_keys_demo :
    (Command.allKeys (Demo.entries.map Entry.command)).Nodup ∧
      ofEntries Demo.entries = .ok Demo.table ∧
      Demo.table.keys = ["help", "commands", "ping", "echo", "say", "purge"] := by
  obtain ⟨hdistinct, hbuilt, -⟩ := built_from_distinct_keys Demo.entries
  obtain ⟨-, hkeys, -⟩ := hbuilt Demo.table Demo.ofEntries_entries
  refine ⟨hdistinct.1 ⟨Demo.table, Demo.ofEntries_entries⟩, Demo.ofEntries_entries, ?_⟩
  rw [hkeys]
  decide +kernel

end Table

end ChatCommands
