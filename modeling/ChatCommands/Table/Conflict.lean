import ChatCommands.Command

/-!
# Conflicts between commands

No key or alias may belong to two commands of a table or appear twice in one.
`Command.firstConflict?` looks for the first key that breaks this among commands in order of their
registration; if there is none, all keys are different
(`Command.nodup_of_firstConflict?_eq_none`).
-/

namespace ChatCommands

/-- A key that two commands claim, or one command twice. `existing` and `command` are the keys of
the command that has it and of the one that claims it. -/
structure DuplicateKey where
  key : String
  existing : String
  command : String
  deriving DecidableEq, Repr

def DuplicateKey.message (d : DuplicateKey) : String :=
  s!"command key '{d.key}' of '{d.command}' is already registered by '{d.existing}'"

namespace Command

/-- The conflict at one key of a command: the command has it twice, or an earlier command has
it. -/
def conflictAt? (earlier : List Command) (c : Command) (key : String) : Option DuplicateKey :=
  if 1 < c.keys.count key then some { key, existing := c.key, command := c.key }
  else (earlier.find? (·.keys.contains key)).map fun e =>
    { key, existing := e.key, command := c.key }

/-- The first key of a command that it has twice or that an earlier command has. -/
def conflict? (earlier : List Command) (c : Command) : Option DuplicateKey :=
  c.keys.findSome? (c.conflictAt? earlier)

/-- The first conflict among commands that are registered in order after earlier ones. -/
def firstConflict? (earlier : List Command) : List Command → Option DuplicateKey
  | [] => none
  | c :: rest => (c.conflict? earlier).or (firstConflict? (earlier ++ [c]) rest)

/-- All keys of commands, in order. -/
def allKeys (commands : List Command) : List String :=
  commands.flatMap keys

theorem conflictAt?_eq_none_iff {earlier : List Command} {c : Command} {key : String} :
    c.conflictAt? earlier key = none ↔
      c.keys.count key ≤ 1 ∧ earlier.find? (·.keys.contains key) = none := by
  rw [conflictAt?]
  split
  · next htwice =>
    constructor
    · intro h
      cases h
    · rintro ⟨honce, -⟩
      omega
  · next honce =>
    rw [Option.map_eq_none_iff]
    exact ⟨fun h => ⟨by omega, h⟩, fun h => h.2⟩

theorem nodup_of_conflict?_eq_none {earlier : List Command} {c : Command}
    (h : c.conflict? earlier = none) (distinct : (allKeys earlier).Nodup) :
    (allKeys (earlier ++ [c])).Nodup := by
  rw [conflict?, List.findSome?_eq_none_iff] at h
  have own : c.keys.Nodup := by
    rw [List.nodup_iff_count]
    intro key
    by_cases mem : key ∈ c.keys
    · exact (conflictAt?_eq_none_iff.1 (h key mem)).1
    · simp [List.count_eq_zero_of_not_mem mem]
  simp only [allKeys, List.flatMap_append, List.flatMap_cons, List.flatMap_nil, List.append_nil]
  refine List.nodup_append.2 ⟨distinct, own, ?_⟩
  rintro key inEarlier key' inOwn rfl
  obtain ⟨e, he, hkey⟩ := List.mem_flatMap.1 inEarlier
  have hnone := (conflictAt?_eq_none_iff.1 (h key inOwn)).2
  rw [List.find?_eq_none] at hnone
  exact hnone e he (by simpa using hkey)

theorem nodup_of_firstConflict?_eq_none {earlier rest : List Command}
    (h : firstConflict? earlier rest = none) (distinct : (allKeys earlier).Nodup) :
    (allKeys (earlier ++ rest)).Nodup := by
  induction rest generalizing earlier with
  | nil => simpa using distinct
  | cons c rest ih =>
    simp only [firstConflict?, Option.or_eq_none_iff] at h
    simpa using ih h.2 (nodup_of_conflict?_eq_none h.1 distinct)

end Command

end ChatCommands
