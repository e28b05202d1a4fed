import ChatCommands.Proofs.Invocation.Parts
import ChatCommands.Proofs.Invocation.Typed
import ChatCommands.Proofs.Table.Keys

/-!
# Commands as they are quoted

A command is quoted as a sigil with a key right after it, and what a user types then is that, a
space and arguments: `Invocation.quoted`. Of the parts, the key and the arguments are always read
back, because a key that was read is one word in lower case (`Invocation.readsBack_key`). The sigil
is read back unless a sigil that the guild lists before it fits as well
(`Invocation.ofText?_quoted_iff`).
-/

namespace ChatCommands

open Text

namespace Invocation

/-- A sigil, a key and arguments, one after the other. -/
def quoted (sigil key arguments : String) : String :=
  sigil ++ key ++ " " ++ arguments

theorem toList_quoted (sigil key arguments : String) :
    (quoted sigil key arguments).toList =
      sigil.toList ++ (key.toList ++ ' ' :: arguments.toList) := by
  simp [quoted]

/-- A key that was read is read as itself. -/
theorem readsBack_key {text : String} {sigils : List String} {mentions : Mentions}
    {invocation : Invocation} (h : ofText? text sigils mentions = some invocation) :
    ReadsBack invocation.key := by
  obtain ⟨rest, -, hrest, hkey, -⟩ := ofText?_eq_some_iff.1 h
  obtain ⟨lead, gap, trail, hparts⟩ := exists_parts hrest
  refine ⟨?_, ?_, ?_⟩
  · rw [hkey]
    exact lower_ne_nil hparts.word_ne_nil
  · intro c hc
    rw [hkey] at hc
    rw [Bool.eq_false_iff]
    intro hblank
    have hword := hparts.wordUnbroken c (isBlank_of_mem_lower hc hblank)
    rw [hblank] at hword
    cases hword
  · rw [hkey, lower_lower]

/-- What follows the sigil of a quoted command is the key and the arguments, trimmed. -/
theorem parts_quoted {key : String} (hkey : ReadsBack key) (arguments : List Char) :
    ∃ gap trail,
      Parts (key.toList ++ ' ' :: arguments) key.toList (trim arguments) [] gap trail := by
  obtain ⟨lead, trail, hlead, htrail, harguments⟩ := exists_trim arguments
  refine ⟨' ' :: lead, trail, ?_, rfl, ?_, htrail, hkey.ne_nil, hkey.word, noLeadingBlank_trim _,
    noTrailingBlank_trim _, fun _ => List.cons_ne_nil _ _⟩
  · conv => lhs; rw [harguments]
    simp
  · rw [isBlankText, List.all_cons, Bool.and_eq_true]
    exact ⟨rfl, hlead⟩

/-- A sigil of a list is the first that fits, whatever comes after the list, exactly if none of
those before it fits. -/
theorem firstOf_append_iff {sigils : List String} {text : List Char} {sigil : String}
    (hmem : sigil ∈ sigils) (hnonempty : ∀ s ∈ sigils, s ≠ "") (hfits : sigil.toList <+: text)
    (others : List String) :
    FirstOf (sigils ++ others) text sigil ↔
      ∀ s ∈ sigils.takeWhile (· != sigil), ¬ s.toList <+: text := by
  induction sigils with
  | nil => cases hmem
  | cons s sigils ih =>
    obtain ⟨hs, hrest⟩ := List.forall_mem_cons.1 hnonempty
    rw [List.cons_append, firstOf_cons_iff]
    by_cases heq : sigil = s
    · subst heq
      rw [List.takeWhile_cons_of_neg (by simp)]
      exact iff_of_true (Or.inl ⟨⟨hs, hfits⟩, rfl⟩) (List.forall_mem_nil _)
    · have hlater : sigil ∈ sigils := (List.mem_cons.1 hmem).resolve_left heq
      rw [List.takeWhile_cons_of_pos (by simpa using Ne.symm heq), List.forall_mem_cons,
        ← ih hlater hrest]
      simp [heq, hs]

/-- **Reading a quoted command.** It is read as what it was put together from exactly if no sigil
that is listed before the quoted one fits as well. -/
theorem ofText?_quoted_iff {sigils : List String} {sigil key : String} (hmem : sigil ∈ sigils)
    (hnonempty : ∀ s ∈ sigils, s ≠ "") (hkey : ReadsBack key) (arguments : String)
    (mentions : Mentions) :
    ofText? (quoted sigil key arguments) sigils mentions =
        some { sigil, key, remainder := String.ofList (trim arguments.toList) } ↔
      ∀ s ∈ sigils.takeWhile (· != sigil),
        ¬ s.toList <+: (quoted sigil key arguments).toList := by
  obtain ⟨gap, trail, hparts⟩ := parts_quoted hkey arguments.toList
  obtain ⟨hrest, hword, hremainder⟩ := hparts.unique
  have hfits : sigil.toList <+: (quoted sigil key arguments).toList := by
    rw [toList_quoted]
    exact List.prefix_append _ _
  rw [ofText?_eq_some_iff, ← firstOf_append_iff hmem hnonempty hfits
    [mentions.nickname, mentions.plain]]
  simp only [introductions, introduced?_eq_some_iff]
  constructor
  · rintro ⟨rest, ⟨hfirst, -⟩, -⟩
    exact hfirst
  · intro hfirst
    refine ⟨key.toList ++ ' ' :: arguments.toList, ⟨hfirst, toList_quoted _ _ _⟩, hrest, ?_, ?_⟩
    · rw [hword, hkey.lowered]
    · rw [hremainder, String.toList_ofList]

end Invocation

end ChatCommands
