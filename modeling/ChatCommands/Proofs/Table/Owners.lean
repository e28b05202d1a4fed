import ChatCommands.Proofs.Table.Construction

/-!
# The owners of a key that is taken

Each occurrence of a key among all keys has a holder, the command that has it there
(`Command.holders`). A table is refused for a key that occurs at least twice, and of its holders the
second is the command that cannot be added. The first is the one that the key belongs to already,
and is named as such unless the second has the key twice itself: then the second is named as its own
predecessor (`Table.named_owners`, `Table.not_first_owner_of_repeated`).
-/

namespace ChatCommands

namespace Command

/-- All keys of commands, in order, each with the command that has it there. -/
def occurrences (commands : List Command) : List (String × Command) :=
  commands.flatMap fun c => c.keys.map fun key => (key, c)

/-- The commands that have a key, in order, one for each occurrence of the key. -/
def holders (commands : List Command) (key : String) : List Command :=
  ((occurrences commands).filter (·.1 = key)).map Prod.snd

theorem map_fst_occurrences (commands : List Command) :
    (occurrences commands).map Prod.fst = allKeys commands := by
  simp [occurrences, allKeys, List.map_flatMap, Function.comp_def]

/-- A key has as many holders as it has occurrences. -/
theorem length_holders (commands : List Command) (key : String) :
    (holders commands key).length = (allKeys commands).count key := by
  rw [holders, List.length_map, ← map_fst_occurrences, List.count, List.countP_map,
    List.countP_eq_length_filter]
  congr 1

theorem holders_append (before after : List Command) (key : String) :
    holders (before ++ after) key = holders before key ++ holders after key := by
  simp only [holders, occurrences, List.flatMap_append, List.filter_append, List.map_append]

/-- One command holds a key as often as it has it. -/
theorem holders_singleton (c : Command) (key : String) :
    holders [c] key = List.replicate (c.keys.count key) c := by
  rw [List.eq_replicate_iff, length_holders, allKeys, List.flatMap_singleton]
  refine ⟨rfl, ?_⟩
  intro holder hholder
  obtain ⟨⟨k, c'⟩, hmem, rfl⟩ := List.mem_map.1 hholder
  obtain ⟨hocc, -⟩ := List.mem_filter.1 hmem
  rw [occurrences, List.flatMap_singleton] at hocc
  obtain ⟨k', -, hpair⟩ := List.mem_map.1 hocc
  exact (Prod.ext_iff.1 hpair).2.symm

theorem mem_holders_iff {commands : List Command} {key : String} {c : Command} :
    c ∈ holders commands key ↔ c ∈ commands ∧ key ∈ c.keys := by
  simp [holders, occurrences]

/-- Among commands whose keys are all different, a key has at most one holder. -/
theorem holders_of_nodup {commands : List Command} (h : (allKeys commands).Nodup) (key : String) :
    holders commands key = [] ∨ ∃ c, holders commands key = [c] := by
  have honce : (holders commands key).length ≤ 1 := by
    rw [length_holders]
    exact List.nodup_iff_count_le_one.1 h key
  match hholders : holders commands key with
  | [] => exact Or.inl rfl
  | [c] => exact Or.inr ⟨c, rfl⟩
  | _ :: _ :: _ => simp [hholders] at honce

/-- The command that a conflict is found at is the second holder of the key. The first is found
before it or, if the command has the key twice, not looked for. -/
theorem holders_of_conflict? {earlier : List Command} {c : Command} {duplicate : DuplicateKey}
    (distinct : (allKeys earlier).Nodup) (h : c.conflict? earlier = some duplicate) :
    ∃ first others, holders (earlier ++ [c]) duplicate.key = first :: c :: others ∧
      duplicate.command = c.key ∧
      duplicate.existing = (if 1 < c.keys.count duplicate.key then c else first).key := by
  obtain ⟨key, hkey, hconflict⟩ := List.exists_of_findSome?_eq_some h
  have hown : 0 < c.keys.count key := List.count_pos_iff.2 hkey
  rw [conflictAt?] at hconflict
  split at hconflict
  · next htwice =>
    cases hconflict
    obtain ⟨n, hn⟩ : ∃ n, c.keys.count key = n + 2 := ⟨c.keys.count key - 2, by omega⟩
    rcases holders_of_nodup distinct key with hnone | ⟨e, hone⟩
    · refine ⟨c, List.replicate n c, ?_, rfl, by rw [if_pos htwice]⟩
      rw [holders_append, holders_singleton, hnone, hn]
      rfl
    · refine ⟨e, List.replicate (n + 1) c, ?_, rfl, by rw [if_pos htwice]⟩
      rw [holders_append, holders_singleton, hone, hn]
      rfl
  · next honce =>
    obtain ⟨e, hfind, rfl⟩ := Option.map_eq_some_iff.1 hconflict
    have hholder : e ∈ holders earlier key := by
      have hhas := List.find?_some hfind
      exact mem_holders_iff.2 ⟨List.mem_of_find?_eq_some hfind, by simpa using hhas⟩
    have hcount : c.keys.count key = 1 := by omega
    rcases holders_of_nodup distinct key with hnone | ⟨e', hone⟩
    · rw [hnone] at hholder
      cases hholder
    · rw [hone, List.mem_singleton] at hholder
      subst hholder
      refine ⟨e, [], ?_, rfl, by rw [if_neg honce]⟩
      rw [holders_append, holders_singleton, hone, hcount]
      rfl

/-- The holders of the key of the first conflict: induction on the commands still to come, each of
which joins the earlier ones if it has no conflict with them. -/
theorem holders_of_firstConflict? {earlier rest : List Command} {duplicate : DuplicateKey}
    (distinct : (allKeys earlier).Nodup) (h : firstConflict? earlier rest = some duplicate) :
    ∃ first second others, holders (earlier ++ rest) duplicate.key = first :: second :: others ∧
      duplicate.command = second.key ∧
      duplicate.existing = (if 1 < second.keys.count duplicate.key then second else first).key := by
  induction rest generalizing earlier with
  | nil => cases h
  | cons c rest ih =>
    rw [firstConflict?, Option.or_eq_some_iff] at h
    rw [← List.singleton_append, ← List.append_assoc]
    rcases h with hconflict | ⟨hnone, hrest⟩
    · obtain ⟨first, others, hholders, hnames⟩ := holders_of_conflict? distinct hconflict
      refine ⟨first, c, others ++ holders rest duplicate.key, ?_, hnames⟩
      rw [holders_append, hholders]
      rfl
    · exact ih (nodup_of_conflict?_eq_none hnone distinct) hrest

end Command

/-- A command with nothing but names, which takes no arguments and does nothing. -/
def Entry.idle (key : String) (aliases : List String) : Entry where
  command :=
    { key, aliases, paramText := "", parameters := [], description := "", capabilities := [] }
  handler _ _ := .succeed

namespace Table

open Command (holders)

/-- A table is refused with the first conflict among the commands. -/
theorem ofEntries_eq_error_iff {entries : List Entry} {duplicate : DuplicateKey} :
    ofEntries entries = .error duplicate ↔
      Command.firstConflict? [] (entries.map Entry.command) = some duplicate := by
  rcases ofEntries_cases entries with ⟨conflict, hconflict, hfault⟩ | ⟨hnone, t, hbuilt, -⟩
  · rw [hconflict, hfault, Except.error.injEq, Option.some.injEq]
  · rw [hnone, hbuilt]
    simp

/-- **The owners that a refusal names**: when no table can be built from entries, the key at fault
occurs at least twice among all their keys, and the command that is refused is the one with the
second occurrence. The command named as the owner is the one with the first occurrence, as long as
the refused one does not have the key twice; if it does, it is named itself. So the owner is named
rightly exactly if the key is not repeated there or both occurrences belong to commands of one
name. -/
theorem named_owners {entries : List Entry} {duplicate : DuplicateKey}
    (refused : ofEntries entries = .error duplicate) :
    let commands := entries.map Entry.command
    2 ≤ (Command.allKeys commands).count duplicate.key ∧
    ∃ first second others, holders commands duplicate.key = first :: second :: others ∧
      duplicate.command = second.key ∧
      duplicate.existing = (if 1 < second.keys.count duplicate.key then second else first).key ∧
      (duplicate.existing = first.key ↔
        second.keys.count duplicate.key ≤ 1 ∨ first.key = second.key) := by
  intro commands
  have hnone : (Command.allKeys []).Nodup := List.nodup_nil
  obtain ⟨first, second, others, hholders, hcommand, hexisting⟩ :=
    Command.holders_of_firstConflict? hnone (ofEntries_eq_error_iff.1 refused)
  have hlength : (holders commands duplicate.key).length = others.length + 2 :=
    congrArg List.length hholders
  refine ⟨?_, first, second, others, hholders, hcommand, hexisting, ?_⟩
  · rw [← Command.length_holders]
    omega
  · rw [hexisting]
    by_cases htwice : 1 < second.keys.count duplicate.key
    · rw [if_pos htwice, or_iff_right (by omega), eq_comm]
    · rw [if_neg htwice]
      exact iff_of_true rfl (Or.inl (by omega))

theorem named_owners_late_alias :
    let declared : List Declaration :=
      [{ key := "Ban", aliases := ["b"] }, { key := "mute" }, { key := "kick", aliases := ["B"] }]
    let entries := [Entry.idle "ban" ["b"], Entry.idle "mute" [], Entry.idle "kick" ["b"]]
    let commands := entries.map Entry.command
    Command.ofDeclarations declared = .ok commands ∧
      ∃ duplicate, ofEntries entries = .error duplicate ∧ duplicate.key = "b" ∧
        ∃ first second, holders commands "b" = [first, second] ∧
          duplicate.command = second.key ∧ duplicate.existing = first.key := by
  intro declared entries commands
  have refused : ofEntries entries = .error { key := "b", existing := "ban", command := "kick" } :=
    ofEntries_eq_error_iff.2 (by decide +kernel)
  obtain ⟨-, first, second, others, hholders, hcommand, -, hexisting⟩ := named_owners refused
  have hboth : (holders commands "b").map Command.key = ["ban", "kick"] := by decide +kernel
  have honce : second.keys.count "b" ≤ 1 := by
    have hall : ∀ c ∈ holders commands "b", c.keys.count "b" ≤ 1 := by decide +kernel
    exact hall second (by rw [hholders]; simp)
  have hlast : others = [] := by
    rw [hholders] at hboth
    simpa using congrArg List.length hboth
  refine ⟨by decide +kernel, _, refused, rfl, first, second, ?_, hcommand, hexisting.2 (.inl honce)⟩
  rw [hholders, hlast]

/-- A command that repeats a key of an earlier one is named as the owner of the key itself. -/
theorem not_first_owner_of_repeated :
    let declared : List Declaration :=
      [{ key := "ban" }, { key := "kick", aliases := ["ban", "ban"] }]
    let entries := [Entry.idle "ban" [], Entry.idle "kick" ["ban", "ban"]]
    let commands := entries.map Entry.command
    Command.ofDeclarations declared = .ok commands ∧
      ofEntries entries = .error { key := "ban", existing := "kick", command := "kick" } ∧
      (holders commands "ban").map Command.key = ["ban", "kick", "kick"] := by
  intro declared entries commands
  have refused :
      ofEntries entries = .error { key := "ban", existing := "kick", command := "kick" } :=
    ofEntries_eq_error_iff.2 (by decide +kernel)
  exact ⟨by decide +kernel, refused, by decide +kernel⟩

end Table

end ChatCommands
