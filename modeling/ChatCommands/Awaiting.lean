/-!
# Messages that await an edit

A set of messages whose next edit is to be treated like a new message. A mark counts until it is
older than the lifetime of the set. Marks that are too old are removed only now and then: at every
`sweepEvery`-th mark, and before that mark is made.

Times are in milliseconds and come from one clock that does not go back.
-/

namespace ChatCommands

/-- Marked messages with the time of their mark, each message once. `made` counts all marks that
were ever made. -/
@[ext]
structure Awaiting where
  lifetime : Option Nat
  marks : List (Nat × Nat) := []
  made : Nat := 0
  distinct : (marks.map (·.1)).Nodup := by decide
  deriving DecidableEq, Repr

namespace Awaiting

/-- The number of marks from one sweep to the next. -/
def sweepEvery : Nat := 64

/-- Whether a mark made at `time` still counts. -/
def isLive (a : Awaiting) (now time : Nat) : Bool :=
  a.lifetime.all fun lifetime => now - time < lifetime

/-- The set with only some of its marks. -/
def filter (a : Awaiting) (kept : Nat × Nat → Bool) : Awaiting :=
  { a with
    marks := a.marks.filter kept
    distinct := a.distinct.sublist (List.filter_sublist.map _) }

/-- The set without the mark of a message. -/
def clear (a : Awaiting) (id : Nat) : Awaiting :=
  a.filter (·.1 != id)

/-- The set without the marks that no longer count. -/
def sweep (a : Awaiting) (now : Nat) : Awaiting :=
  a.filter fun (_, time) => a.isLive now time

theorem not_mem_clear (a : Awaiting) (id : Nat) : id ∉ (a.clear id).marks.map (·.1) := by
  intro hmem
  obtain ⟨mark, hmark, rfl⟩ := List.mem_map.1 hmem
  exact bne_iff_ne.1 (List.mem_filter.1 hmark).2 rfl

/-- The set with a fresh mark of a message, in place of the one that it may have. -/
def mark (a : Awaiting) (now id : Nat) : Awaiting :=
  let made := a.made + 1
  let kept := if made % sweepEvery = 0 then a.sweep now else a
  { kept with
    marks := (id, now) :: (kept.clear id).marks
    made
    distinct := List.nodup_cons.2 ⟨kept.not_mem_clear id, (kept.clear id).distinct⟩ }

/-- Whether a message has a mark that counts. -/
def isAwaiting (a : Awaiting) (now id : Nat) : Bool :=
  (a.marks.lookup id).any (a.isLive now)

/-- Whether a message has a mark that counts, and the set without any mark of it. -/
def take (a : Awaiting) (now id : Nat) : Bool × Awaiting :=
  (a.isAwaiting now id, a.clear id)

/-- The number of marks, whether or not they still count. -/
def size (a : Awaiting) : Nat :=
  a.marks.length

/-- Whether there is no mark, not even one that has stopped counting. -/
def isEmpty (a : Awaiting) : Bool :=
  a.marks.isEmpty

end Awaiting

end ChatCommands
