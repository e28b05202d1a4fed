/-!
# Dictionaries

Finite maps as lists of entries in increasing order of their keys, so that no key has two entries.
What a dictionary holds is said by `get?`: `get?_put` says what writing an entry does to it,
`get?_putAll_eq_lookup` what writing a list of entries does, of which the last one of a key counts,
and `get?_putAll` what writing all entries of another dictionary does. `mem_keys_iff` says that the
keys are those with a value.
-/

namespace ChatCommands

/-- Keys that can be listed in increasing order: of two that differ, one comes first. -/
class KeyOrder (α : Type) [LT α] : Prop where
  irrefl (a : α) : ¬ a < a
  trans {a b c : α} : a < b → b < c → a < c
  eq_of_not_lt {a b : α} : ¬ a < b → ¬ b < a → a = b

instance : KeyOrder String where
  irrefl := String.lt_irrefl
  trans := String.lt_trans
  eq_of_not_lt hlt hgt := String.le_antisymm (String.not_lt.1 hgt) (String.not_lt.1 hlt)

instance : KeyOrder Nat where
  irrefl := Nat.lt_irrefl
  trans := Nat.lt_trans
  eq_of_not_lt hlt hgt := Nat.le_antisymm (Nat.not_lt.1 hgt) (Nat.not_lt.1 hlt)

/-- A finite map whose entries are listed in increasing order of their keys. -/
structure Dictionary (α β : Type) [LT α] where
  entries : List (α × β)
  ordered : entries.Pairwise fun e e' => e.1 < e'.1
  deriving DecidableEq, Repr

namespace Dictionary

variable {α β : Type} [LT α]

def empty : Dictionary α β := ⟨[], .nil⟩

/-- The value of a key. -/
def get? [DecidableEq α] (d : Dictionary α β) (key : α) : Option β :=
  d.entries.lookup key

def keys (d : Dictionary α β) : List α :=
  d.entries.map (·.1)

theorem nodup_keys [KeyOrder α] (d : Dictionary α β) : d.keys.Nodup := by
  rw [keys, List.nodup_iff_pairwise_ne, List.pairwise_map]
  refine d.ordered.imp ?_
  intro e e' hlt heq
  rw [heq] at hlt
  exact KeyOrder.irrefl _ hlt

section Writing

variable [DecidableEq α] [DecidableLT α]

/-- The entries with one more, in its place; an entry of the same key is replaced. -/
def putEntry (key : α) (value : β) : List (α × β) → List (α × β)
  | [] => [(key, value)]
  | (k, v) :: rest =>
    if key = k then (key, value) :: rest
    else if key < k then (key, value) :: (k, v) :: rest
    else (k, v) :: putEntry key value rest

theorem mem_of_mem_putEntry {key : α} {value : β} {e : α × β} {entries : List (α × β)}
    (h : e ∈ putEntry key value entries) : e = (key, value) ∨ e ∈ entries := by
  induction entries with
  | nil => exact Or.inl (List.mem_singleton.1 h)
  | cons entry rest ih =>
    obtain ⟨k, v⟩ := entry
    rw [putEntry] at h
    split at h
    · exact (List.mem_cons.1 h).imp_right (List.mem_cons_of_mem _)
    · split at h
      · exact List.mem_cons.1 h
      · rcases List.mem_cons.1 h with rfl | h
        · exact Or.inr List.mem_cons_self
        · exact (ih h).imp_right (List.mem_cons_of_mem _)

variable [KeyOrder α]

theorem ordered_putEntry {key : α} {value : β} {entries : List (α × β)}
    (h : entries.Pairwise fun e e' => e.1 < e'.1) :
    (putEntry key value entries).Pairwise fun e e' => e.1 < e'.1 := by
  induction entries with
  | nil => exact List.pairwise_singleton _ _
  | cons entry rest ih =>
    obtain ⟨k, v⟩ := entry
    obtain ⟨hfirst, hrest⟩ := List.pairwise_cons.1 h
    rw [putEntry]
    split
    · next heq =>
      subst heq
      exact List.pairwise_cons.2 ⟨hfirst, hrest⟩
    · next hne =>
      split
      · next hlt =>
        refine List.pairwise_cons.2 ⟨?_, h⟩
        intro e he
        rcases List.mem_cons.1 he with rfl | he
        · exact hlt
        · exact KeyOrder.trans hlt (hfirst e he)
      · next hge =>
        refine List.pairwise_cons.2 ⟨?_, ih hrest⟩
        intro e he
        rcases mem_of_mem_putEntry he with rfl | he
        · exact Classical.byContradiction fun hnlt => hne (KeyOrder.eq_of_not_lt hge hnlt)
        · exact hfirst e he

/-- The dictionary in which `key` has the given value. -/
def put (d : Dictionary α β) (key : α) (value : β) : Dictionary α β :=
  ⟨putEntry key value d.entries, ordered_putEntry d.ordered⟩

/-- The dictionary with entries written one after the other, so that a later one wins. -/
def putAll (d : Dictionary α β) (new : List (α × β)) : Dictionary α β :=
  new.foldl (fun d (key, value) => d.put key value) d

/-- The dictionary of a list of entries, of which a later one wins. -/
def ofList (entries : List (α × β)) : Dictionary α β :=
  empty.putAll entries

end Writing

/-! ## Values -/

section Values

variable [DecidableEq α]

@[simp] theorem get?_empty (key : α) : (empty : Dictionary α β).get? key = none :=
  rfl

theorem lookup_cons_eq {α β : Type} [DecidableEq α] (other key : α) (value : β)
    (entries : List (α × β)) :
    ((key, value) :: entries).lookup other =
      if other = key then some value else entries.lookup other := by
  rw [List.lookup_cons]
  by_cases h : other = key
  · simp [h]
  · have : (other == key) = false := by simpa using h
    simp [this, h]

theorem lookup_putEntry [DecidableLT α] (key other : α) (value : β) (entries : List (α × β)) :
    (putEntry key value entries).lookup other =
      if other = key then some value else entries.lookup other := by
  induction entries with
  | nil => simp [putEntry, lookup_cons_eq]
  | cons entry rest ih =>
    obtain ⟨k, v⟩ := entry
    unfold putEntry
    split
    · next hk =>
      subst hk
      by_cases h : other = key <;> simp [lookup_cons_eq, h]
    · next hk =>
      split
      · simp [lookup_cons_eq]
      · by_cases h : other = k
        · have : other ≠ key := fun e => hk (e ▸ h)
          simp [h, Ne.symm hk]
        · simp [lookup_cons_eq, h, ih]

/-- The keys are those that have a value. -/
theorem mem_keys_iff {d : Dictionary α β} {key : α} : key ∈ d.keys ↔ (d.get? key).isSome := by
  rw [keys, get?, List.lookup_isSome_iff, List.mem_map]
  exact exists_congr fun e => and_congr_right fun _ => by rw [beq_iff_eq, eq_comm]

/-- Where no key has two entries, its value is that of its entry. -/
theorem lookup_eq_some_iff_mem {α β : Type} [DecidableEq α] {entries : List (α × β)}
    (distinct : (entries.map (·.1)).Nodup) {key : α} {value : β} :
    entries.lookup key = some value ↔ (key, value) ∈ entries := by
  rw [List.lookup_eq_some_iff]
  constructor
  · rintro ⟨before, after, rfl, -⟩
    exact List.mem_append_right _ List.mem_cons_self
  · intro h
    obtain ⟨before, after, rfl⟩ := List.append_of_mem h
    refine ⟨before, after, rfl, fun e he => ?_⟩
    rw [List.map_append, List.nodup_append] at distinct
    rw [bne_iff_ne]
    exact (distinct.2.2 _ (List.mem_map_of_mem he) _ List.mem_cons_self).symm

/-- The entries are those of the values that keys have. -/
theorem mem_entries_iff [KeyOrder α] {d : Dictionary α β} {key : α} {value : β} :
    (key, value) ∈ d.entries ↔ d.get? key = some value :=
  (lookup_eq_some_iff_mem d.nodup_keys).symm

/-- No key has two entries, so the last one of a key is the first. -/
theorem lookup_reverse_entries [KeyOrder α] (d : Dictionary α β) (key : α) :
    d.entries.reverse.lookup key = d.get? key := by
  have hreverse : (d.entries.reverse.map (·.1)).Nodup :=
    (d.entries.reverse_perm.map _).nodup_iff.2 d.nodup_keys
  ext value
  rw [lookup_eq_some_iff_mem hreverse, List.mem_reverse, mem_entries_iff]

variable [DecidableLT α] [KeyOrder α]

/-- Writing an entry changes the value of its key and of no other. -/
theorem get?_put (d : Dictionary α β) (key other : α) (value : β) :
    (d.put key value).get? other = if other = key then some value else d.get? other :=
  lookup_putEntry key other value d.entries

/-- Of the entries that are written one after the other, the last one of a key counts: induction on
the entries, of which the first is written before the others. -/
theorem get?_putAll_eq_lookup (d : Dictionary α β) (new : List (α × β)) (key : α) :
    (d.putAll new).get? key = (new.reverse.lookup key).or (d.get? key) := by
  induction new generalizing d with
  | nil => rfl
  | cons entry rest ih =>
    obtain ⟨k, v⟩ := entry
    rw [List.reverse_cons, List.lookup_append, Option.or_assoc, lookup_cons_eq]
    refine (ih (d.put k v)).trans ?_
    rw [get?_put]
    split <;> rfl

/-- Writing all entries of a dictionary changes the values of its keys and of no others. -/
theorem get?_putAll (d new : Dictionary α β) (key : α) :
    (d.putAll new.entries).get? key = (new.get? key).or (d.get? key) := by
  rw [get?_putAll_eq_lookup, lookup_reverse_entries]

/-- The dictionary of a list of entries has the last of the values of a key. -/
theorem get?_ofList (entries : List (α × β)) (key : α) :
    (ofList entries).get? key = entries.reverse.lookup key := by
  rw [ofList, get?_putAll_eq_lookup, get?_empty, Option.or_none]

end Values

end Dictionary

end ChatCommands
