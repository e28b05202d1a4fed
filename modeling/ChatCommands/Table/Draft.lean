import ChatCommands.Dictionary
import ChatCommands.Table.Conflict

/-!
# Tables in the making

A `Draft` is a command table while it is built: the commands that are in it, and an index that
leads from a key to the position of its command. A command is added after all its keys have been
claimed. Until then the keys that it has claimed lead one past the end of the commands, where it is
going to be.

So a key that is looked up meanwhile could lead to no command at all (`Draft.Fault.dangling`).
`Draft.ofCommands_ne_dangling` says that it never does. What is left is the first conflict among
the commands, if there is one (`Draft.ofCommands_cases`).
-/

namespace ChatCommands

/-- The commands that were added, and the position of the command for each key. -/
structure Draft where
  commands : List Command
  index : Dictionary String Nat

namespace Draft

/-- Why a command cannot be added. -/
inductive Fault where
  | taken (duplicate : DuplicateKey)
  /-- A key leads to a position where there is no command. -/
  | dangling (position : Nat)
  deriving DecidableEq, Repr

def empty : Draft where
  commands := []
  index := .empty

/-- Claims a key for a command that is about to be added. That the command has the key twice is
found out before the key is looked up. -/
def claim (c : Command) (d : Draft) (key : String) : Except Fault Draft :=
  if 1 < c.keys.count key then .error (.taken { key, existing := c.key, command := c.key })
  else match d.index.get? key with
    | none => .ok { d with index := d.index.put key d.commands.length }
    | some position => match d.commands[position]? with
      | none => .error (.dangling position)
      | some owner => .error (.taken { key, existing := owner.key, command := c.key })

/-- Adds a command once all its keys are claimed. -/
def add (d : Draft) (c : Command) : Except Fault Draft := do
  let claimed ← c.keys.foldlM (claim c) d
  return { claimed with commands := claimed.commands ++ [c] }

/-- The draft of commands in order. -/
def ofCommands (commands : List Command) : Except Fault Draft :=
  commands.foldlM add empty

/-! ## What the index holds -/

/-- Every key leads to the first command that has it, and a key that was claimed for the next
command to the position where that is going to be. -/
def Claimed (d : Draft) (claimed : List String) : Prop :=
  ∀ key, d.index.get? key = (d.commands.findIdx? (·.keys.contains key)).or
    (if key ∈ claimed then some d.commands.length else none)

theorem claimed_empty : empty.Claimed [] :=
  fun _ => rfl

/-- One more key of the next command is claimed, if it has no owner. -/
theorem Claimed.put {d : Draft} {claimed : List String} {key : String} (h : d.Claimed claimed)
    (free : d.commands.findIdx? (·.keys.contains key) = none) :
    ({ d with index := d.index.put key d.commands.length } : Draft).Claimed (claimed ++ [key]) := by
  intro other
  show (d.index.put key d.commands.length).get? other = _
  rw [Dictionary.get?_put, h other]
  by_cases hother : other = key
  · subst hother
    rw [if_pos rfl, free, Option.none_or, if_pos (by simp)]
  · simp [hother]

/-- With all its keys claimed, the command takes the place that they lead to. -/
theorem Claimed.add {d : Draft} {c : Command} (h : d.Claimed c.keys) :
    ({ d with commands := d.commands ++ [c] } : Draft).Claimed [] := by
  intro key
  show d.index.get? key = _
  rw [h key, List.findIdx?_append]
  by_cases hkey : key ∈ c.keys <;> simp [List.findIdx?_cons, hkey]

/-- Claiming a key fails exactly with the conflict there. The index is looked up only for a key
that is not claimed yet, so it leads to a command that is there. -/
theorem claim_eq {d : Draft} {c : Command} {claimed : List String} {key : String}
    (h : d.Claimed claimed) (fresh : c.keys.count key ≤ 1 → key ∉ claimed) :
    d.claim c key = match c.conflictAt? d.commands key with
      | some duplicate => .error (.taken duplicate)
      | none => .ok { d with index := d.index.put key d.commands.length } := by
  rw [claim, Command.conflictAt?]
  by_cases htwice : 1 < c.keys.count key
  · rw [if_pos htwice, if_pos htwice]
  · have hlookup : d.index.get? key = d.commands.findIdx? (·.keys.contains key) := by
      rw [h key, if_neg (fresh (by omega)), Option.or_none]
    rw [if_neg htwice, if_neg htwice, hlookup, List.find?_eq_bind_findIdx?_getElem?]
    cases hposition : d.commands.findIdx? (·.keys.contains key) with
    | none => rfl
    | some position =>
      obtain ⟨hbound, -⟩ := List.findIdx?_eq_some_iff_getElem.1 hposition
      simp [List.getElem?_eq_getElem hbound]

/-- Claiming the keys that are left finds the first conflict among them; without one they all get
claimed: induction on the keys that are left. -/
theorem claimAll_cases {d : Draft} {c : Command} {claimed rest : List String}
    (h : d.Claimed claimed) (hkeys : c.keys = claimed ++ rest) :
    (∃ duplicate, rest.findSome? (c.conflictAt? d.commands) = some duplicate ∧
      rest.foldlM (claim c) d = .error (.taken duplicate)) ∨
    (rest.findSome? (c.conflictAt? d.commands) = none ∧
      ∃ index, rest.foldlM (claim c) d = .ok { d with index } ∧
        ({ d with index } : Draft).Claimed c.keys) := by
  induction rest generalizing d claimed with
  | nil =>
    refine Or.inr ⟨rfl, d.index, rfl, ?_⟩
    rw [hkeys, List.append_nil]
    exact h
  | cons key rest ih =>
    have fresh : c.keys.count key ≤ 1 → key ∉ claimed := by
      intro honce hmem
      rw [hkeys, List.count_append, List.count_cons_self] at honce
      have hpos := List.count_pos_iff.2 hmem
      omega
    have hclaim := claim_eq h fresh
    rw [List.findSome?_cons, List.foldlM_cons]
    cases hconflict : c.conflictAt? d.commands key with
    | some duplicate =>
      rw [hconflict] at hclaim
      rw [hclaim]
      exact Or.inl ⟨duplicate, rfl, rfl⟩
    | none =>
      rw [hconflict] at hclaim
      rw [hclaim]
      have hfree := (Command.conflictAt?_eq_none_iff.1 hconflict).2
      rw [List.find?_eq_none] at hfree
      exact ih (h.put (List.findIdx?_eq_none_iff.2 fun e he => by simpa using hfree e he))
        (by rw [hkeys, List.append_assoc, List.singleton_append])

theorem add_cases {d : Draft} (h : d.Claimed []) (c : Command) :
    (∃ duplicate, c.conflict? d.commands = some duplicate ∧
      d.add c = .error (.taken duplicate)) ∨
    (c.conflict? d.commands = none ∧
      ∃ d', d.add c = .ok d' ∧ d'.commands = d.commands ++ [c] ∧ d'.Claimed []) := by
  rw [Command.conflict?, Draft.add]
  rcases claimAll_cases h (List.nil_append c.keys).symm with
    ⟨duplicate, hconflict, hclaims⟩ | ⟨hconflict, index, hclaims, hclaimed⟩
  · rw [hclaims]
    exact Or.inl ⟨duplicate, hconflict, rfl⟩
  · rw [hclaims]
    exact Or.inr ⟨hconflict, _, rfl, rfl, hclaimed.add⟩

theorem addAll_cases {d : Draft} (h : d.Claimed []) (commands : List Command) :
    (∃ duplicate, Command.firstConflict? d.commands commands = some duplicate ∧
      commands.foldlM Draft.add d = .error (.taken duplicate)) ∨
    (Command.firstConflict? d.commands commands = none ∧
      ∃ d', commands.foldlM Draft.add d = .ok d' ∧ d'.commands = d.commands ++ commands ∧
        d'.Claimed []) := by
  induction commands generalizing d with
  | nil => exact Or.inr ⟨rfl, d, rfl, (List.append_nil _).symm, h⟩
  | cons c rest ih =>
    rw [Command.firstConflict?, List.foldlM_cons]
    rcases add_cases h c with ⟨duplicate, hconflict, hadd⟩ | ⟨hconflict, d', hadd, hcommands, h'⟩
    · rw [hconflict, hadd]
      exact Or.inl ⟨duplicate, rfl, rfl⟩
    · rw [hconflict, hadd, Option.none_or, ← hcommands]
      have hrest := ih h'
      rwa [hcommands, List.append_assoc, List.singleton_append, ← hcommands] at hrest

/-! ## The outcome -/

/-- **What a draft comes to**: the first conflict among the commands or, without one, all of them
with the index of their keys. -/
theorem ofCommands_cases (commands : List Command) :
    (∃ duplicate, Command.firstConflict? [] commands = some duplicate ∧
      ofCommands commands = .error (.taken duplicate)) ∨
    (Command.firstConflict? [] commands = none ∧
      ∃ d, ofCommands commands = .ok d ∧ d.commands = commands ∧ d.Claimed []) :=
  addAll_cases claimed_empty commands

/-- No key leads to a position without a command, at any time. -/
theorem ofCommands_ne_dangling (commands : List Command) (position : Nat) :
    ofCommands commands ≠ .error (.dangling position) := by
  intro hdangling
  rcases ofCommands_cases commands with ⟨duplicate, -, hfault⟩ | ⟨-, d, hdone, -⟩
  · rw [hdangling] at hfault
    cases hfault
  · rw [hdangling] at hdone
    cases hdone

/-- The draft of commands in order, or the first conflict among them. -/
def assemble (commands : List Command) : Except DuplicateKey Draft :=
  match h : ofCommands commands with
  | .ok d => .ok d
  | .error (.taken duplicate) => .error duplicate
  | .error (.dangling position) => absurd h (ofCommands_ne_dangling commands position)

theorem assemble_of_ok {commands : List Command} {d : Draft} (h : ofCommands commands = .ok d) :
    assemble commands = .ok d := by
  rw [assemble]
  split <;> simp_all

theorem assemble_of_taken {commands : List Command} {duplicate : DuplicateKey}
    (h : ofCommands commands = .error (.taken duplicate)) :
    assemble commands = .error duplicate := by
  rw [assemble]
  split <;> simp_all

theorem assemble_cases (commands : List Command) :
    (∃ duplicate, Command.firstConflict? [] commands = some duplicate ∧
      assemble commands = .error duplicate) ∨
    (Command.firstConflict? [] commands = none ∧
      ∃ d, assemble commands = .ok d ∧ d.commands = commands ∧ d.Claimed []) := by
  rcases ofCommands_cases commands with
    ⟨duplicate, hconflict, hfault⟩ | ⟨hconflict, d, hdone, hcommands, hclaimed⟩
  · exact Or.inl ⟨duplicate, hconflict, assemble_of_taken hfault⟩
  · exact Or.inr ⟨hconflict, d, assemble_of_ok hdone, hcommands, hclaimed⟩

/-- All keys of an assembled draft are different. -/
theorem nodup_of_assemble {commands : List Command} {d : Draft} (h : assemble commands = .ok d) :
    (Command.allKeys commands).Nodup := by
  rcases assemble_cases commands with ⟨duplicate, -, hfault⟩ | ⟨hconflict, -⟩
  · rw [h] at hfault
    cases hfault
  · exact Command.nodup_of_firstConflict?_eq_none hconflict List.nodup_nil

/-- The index of an assembled draft leads from a key to the first command that has it. -/
theorem index_of_assemble {commands : List Command} {d : Draft} (h : assemble commands = .ok d)
    (key : String) : d.index.get? key = commands.findIdx? (·.keys.contains key) := by
  rcases assemble_cases commands with ⟨duplicate, -, hfault⟩ | ⟨-, d', hdone, rfl, hclaimed⟩
  · rw [h] at hfault
    cases hfault
  · rw [h] at hdone
    cases hdone
    exact (hclaimed key).trans (Option.or_none)

end Draft

end ChatCommands
