import ChatCommands.Table.Conflict
import Mathlib.Data.List.Forall2

/-!
# Commands from declarations

A declaration makes a command if its names are keys and its pattern declares parameters
(`Declaration.Sound`); what the command then has from it is said by `Declaration.Makes`. Otherwise
it has one error, the first in the order of the checks (`Declaration.Fault`). Of several
declarations, the first that makes no command decides (`Command.ofDeclarations_cases`).
-/

namespace ChatCommands

open Text

/-! ## Capabilities -/

namespace Capability

theorem mem_insert {c d : Capability} {ds : List Capability} :
    d ∈ insert c ds ↔ d = c ∨ d ∈ ds := by
  induction ds with
  | nil => simp [insert]
  | cons e es ih =>
    rw [insert]
    split
    · exact List.mem_cons
    · split
      · next heq =>
        subst heq
        simp
      · rw [List.mem_cons, ih, List.mem_cons, or_left_comm]

theorem pairwise_insert {c : Capability} {ds : List Capability} (h : ds.Pairwise (· < ·)) :
    (insert c ds).Pairwise (· < ·) := by
  induction ds with
  | nil => exact List.pairwise_singleton _ c
  | cons e es ih =>
    obtain ⟨hfirst, hrest⟩ := List.pairwise_cons.1 h
    rw [insert]
    split
    · next hlt =>
      refine List.pairwise_cons.2 ⟨?_, h⟩
      intro d hd
      rcases List.mem_cons.1 hd with rfl | hd
      · exact hlt
      · exact String.lt_trans hlt (hfirst d hd)
    · next hge =>
      split
      · exact h
      · next hne =>
        refine List.pairwise_cons.2 ⟨?_, ih hrest⟩
        intro d hd
        rcases mem_insert.1 hd with rfl | hd
        · by_contra hgt
          exact hne (String.le_antisymm (String.not_lt.1 hgt) (String.not_lt.1 hge))
        · exact hfirst d hd

/-- A set of capabilities has those of the list. -/
theorem mem_setOf {c : Capability} {cs : List Capability} : c ∈ setOf cs ↔ c ∈ cs := by
  rw [setOf]
  induction cs with
  | nil => exact Iff.rfl
  | cons d cs ih => rw [List.foldr_cons, mem_insert, ih, List.mem_cons]

/-- A set of capabilities is in increasing order and has none twice. -/
theorem pairwise_setOf (cs : List Capability) : (setOf cs).Pairwise (· < ·) := by
  rw [setOf]
  induction cs with
  | nil => exact List.Pairwise.nil
  | cons d cs ih => exact pairwise_insert ih

end Capability

/-! ## Declarations -/

/-- A text that can be declared as a key: one word. -/
def IsKey (raw : String) : Prop :=
  raw ≠ "" ∧ ∀ c ∈ raw.toList, isBlank c = false

namespace Declaration

/-- The key and the aliases, as declared. -/
def names (d : Declaration) : List String :=
  d.key :: d.aliases

/-- The key and the aliases in lower case. -/
def keys (d : Declaration) : List String :=
  d.names.map fun raw => String.ofList (lower raw.toList)

/-- The declaration makes a command. -/
structure Sound (d : Declaration) : Prop where
  keyed : ∀ raw ∈ d.names, IsKey raw
  patterned : ∃ ps, Pattern.compile d.params = .ok ps

/-- Why the declaration makes no command. Its names are checked first, from the key on, and then
its pattern. -/
inductive Fault (d : Declaration) : CommandError → Prop where
  | name (before : List String) (raw : String) (after : List String)
      (split : d.names = before ++ raw :: after) (keyed : ∀ earlier ∈ before, IsKey earlier)
      (broken : ¬ IsKey raw) : Fault d (.invalidKey raw)
  | pattern {error : PatternError} (keyed : ∀ raw ∈ d.names, IsKey raw)
      (broken : Pattern.compile d.params = .error error) : Fault d (.invalidPattern error)

/-- The command that the declaration makes. -/
structure Makes (d : Declaration) (c : Command) : Prop where
  keys_eq : c.keys = d.keys
  parameters_eq : Pattern.compile d.params = .ok c.parameters
  increasing : c.capabilities.Pairwise (· < ·)
  mem_capabilities : ∀ capability, capability ∈ c.capabilities ↔ capability ∈ d.permissions

/-- A declaration that makes a command has no fault. -/
theorem Sound.not_fault {d : Declaration} (h : d.Sound) (error : CommandError) :
    ¬ d.Fault error := by
  intro hfault
  cases hfault with
  | name before raw after split keyed broken =>
    exact broken (h.keyed raw (by rw [split]; simp))
  | pattern keyed broken =>
    obtain ⟨ps, hps⟩ := h.patterned
    rw [hps] at broken
    cases broken

end Declaration

namespace Command

theorem foldKey_cases (raw : String) :
    (¬ IsKey raw ∧ foldKey raw = .error (.invalidKey raw)) ∨
      (IsKey raw ∧ foldKey raw = .ok (String.ofList (lower raw.toList))) := by
  have hkey : (raw.toList.isEmpty || raw.toList.any isBlank) = true ↔ ¬ IsKey raw := by
    rw [IsKey, not_and_or, Bool.or_eq_true, List.isEmpty_iff, List.any_eq_true]
    simp
  rw [foldKey]
  split
  · next h => exact Or.inl ⟨hkey.1 h, rfl⟩
  · next h => exact Or.inr ⟨not_not.1 fun hnot => h (hkey.2 hnot), rfl⟩

/-- The first name that is no key decides: induction on the names. -/
theorem foldKeys_cases (raws : List String) :
    (∃ before raw after, raws = before ++ raw :: after ∧ (∀ earlier ∈ before, IsKey earlier) ∧
      ¬ IsKey raw ∧ foldKeys raws = .error (.invalidKey raw)) ∨
    ((∀ raw ∈ raws, IsKey raw) ∧
      foldKeys raws = .ok (raws.map fun raw => String.ofList (lower raw.toList))) := by
  induction raws with
  | nil => exact Or.inr ⟨by simp, rfl⟩
  | cons raw raws ih =>
    rw [foldKeys]
    rcases foldKey_cases raw with ⟨hbroken, hfold⟩ | ⟨hkey, hfold⟩
    · exact Or.inl ⟨[], raw, raws, rfl, by simp, hbroken, by rw [hfold]; rfl⟩
    · rcases ih with ⟨before, raw', after, rfl, hbefore, hbroken, hrest⟩ | ⟨hkeys, hrest⟩
      · refine Or.inl ⟨raw :: before, raw', after, rfl, ?_, hbroken, by rw [hfold, hrest]; rfl⟩
        exact List.forall_mem_cons.2 ⟨hkey, hbefore⟩
      · exact Or.inr ⟨List.forall_mem_cons.2 ⟨hkey, hkeys⟩, by rw [hfold, hrest]; rfl⟩

theorem ofDeclaration_cases (d : Declaration) :
    (∃ error, d.Fault error ∧ ofDeclaration d = .error error) ∨
      (d.Sound ∧ ∃ c, d.Makes c ∧ ofDeclaration d = .ok c) := by
  rw [ofDeclaration]
  rcases foldKey_cases d.key with ⟨hbroken, hkey⟩ | ⟨hiskey, hkey⟩
  · exact Or.inl ⟨_, .name [] d.key d.aliases rfl (by simp) hbroken, by rw [hkey]; rfl⟩
  rcases foldKeys_cases d.aliases with
    ⟨before, raw, after, hsplit, hbefore, hbroken, haliases⟩ | ⟨hkeys, haliases⟩
  · refine Or.inl ⟨_, .name (d.key :: before) raw after ?_ ?_ hbroken, by
      rw [hkey, haliases]; rfl⟩
    · rw [Declaration.names, hsplit]
      rfl
    · exact List.forall_mem_cons.2 ⟨hiskey, hbefore⟩
  have hnames : ∀ raw ∈ d.names, IsKey raw := List.forall_mem_cons.2 ⟨hiskey, hkeys⟩
  cases hparams : Pattern.compile d.params with
  | error error =>
    exact Or.inl ⟨_, .pattern hnames hparams, by rw [hkey, haliases]; rfl⟩
  | ok parameters =>
    refine Or.inr ⟨⟨hnames, parameters, hparams⟩, _, ⟨?_, ?_, ?_, ?_⟩, by rw [hkey, haliases]; rfl⟩
    · rfl
    · exact hparams
    · exact Capability.pairwise_setOf d.permissions
    · exact fun capability => Capability.mem_setOf

/-- **Several declarations**: the error of the first that makes no command, or all commands in
order. -/
theorem ofDeclarations_cases (ds : List Declaration) :
    (∃ before d after error, ds = before ++ d :: after ∧ (∀ earlier ∈ before, earlier.Sound) ∧
      d.Fault error ∧ ofDeclarations ds = .error error) ∨
    ((∀ d ∈ ds, d.Sound) ∧ ∃ cs, List.Forall₂ Declaration.Makes ds cs ∧
      ofDeclarations ds = .ok cs) := by
  induction ds with
  | nil => exact Or.inr ⟨by simp, [], .nil, rfl⟩
  | cons d ds ih =>
    rw [ofDeclarations]
    rcases ofDeclaration_cases d with ⟨error, hfault, hd⟩ | ⟨hsound, c, hmakes, hd⟩
    · exact Or.inl ⟨[], d, ds, error, rfl, by simp, hfault, by rw [hd]; rfl⟩
    · rcases ih with ⟨before, d', after, error, rfl, hbefore, hfault, hds⟩ | ⟨hall, cs, hcs, hds⟩
      · refine Or.inl ⟨d :: before, d', after, error, rfl, ?_, hfault, by rw [hd, hds]; rfl⟩
        exact List.forall_mem_cons.2 ⟨hsound, hbefore⟩
      · exact Or.inr ⟨List.forall_mem_cons.2 ⟨hsound, hall⟩, c :: cs, .cons hmakes hcs,
          by rw [hd, hds]; rfl⟩

/-- The keys of commands are those of their declarations. -/
theorem allKeys_of_makes {ds : List Declaration} {cs : List Command}
    (h : List.Forall₂ Declaration.Makes ds cs) :
    allKeys cs = ds.flatMap Declaration.keys := by
  induction h with
  | nil => rfl
  | cons hmakes hrest ih =>
    rw [allKeys, List.flatMap_cons, List.flatMap_cons, hmakes.keys_eq, ← ih, allKeys]

end Command

end ChatCommands
