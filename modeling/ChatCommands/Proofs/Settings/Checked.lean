import ChatCommands.Proofs.Text.Words
import ChatCommands.Settings

/-!
# What is wrong with settings

Settings pass their check exactly if they are sound (`Settings.Sound`). If they are not, the check
reports one finding out of all that there are (`Settings.Finds`): the first in the order of the
checks. Findings have places, lists of numbers that are compared from the left, and this order is
the order of their places: first the defaults, then the guilds by number, then the distance, and
within the settings of a guild first the list of sigils, then one sigil after the other, then the
locale.

Each part of the check reports the first finding of its own kind (`IsFirst`). Where all findings of
one part come before those of another, this carries over to both together (`IsFirst.or`,
`IsFirst.findSome?`); `Settings.checked_in_order` is put together from the parts in this way.
-/

namespace ChatCommands

open Text

/-! ## Sound settings -/

/-- The settings of a guild can be used: there is a sigil to start a command with, every sigil can
be seen and stands right at the start, and the locale has a name. -/
structure GuildSettings.Sound (g : GuildSettings) : Prop where
  present : g.sigils ≠ []
  visible : ∀ sigil ∈ g.sigils, ∃ c ∈ sigil.toList, isBlank c = false
  flush : ∀ sigil ∈ g.sigils, NoLeadingBlank sigil.toList
  located : ∃ c ∈ g.locale.toList, isBlank c = false

/-- Settings can be used in every guild, and can suggest a command. -/
structure Settings.Sound (s : Settings) : Prop where
  defaults : s.defaults.Sound
  guilds : ∀ id g, s.guilds.get? id = some g → g.Sound
  distance : 1 ≤ s.maxDistance

/-- Sound settings are sound in every guild, be it stored or not. -/
theorem Settings.Sound.guild {s : Settings} (h : s.Sound) (id : Nat) : (s.guild id).Sound := by
  rw [Settings.guild]
  cases hstored : s.guilds.get? id with
  | none => exact h.defaults
  | some g => exact h.guilds id g hstored

/-! ## Findings -/

/-- Something that is wrong with settings: its place in the order of the checks, the path of the
field, and what is wrong with it. -/
structure Finding where
  place : List Nat
  field : String
  reason : String

/-- What is wrong with the sigil number `i` of settings that are checked at a place. -/
inductive SigilFinds (place : List Nat) (path : String) (i : Nat) (sigil : String) :
    Finding → Prop where
  | blank (blank : ∀ c ∈ sigil.toList, isBlank c = true) :
    SigilFinds place path i sigil
      ⟨place ++ [1, i, 0], s!"{path}.prefixes[{i}]", "must not be blank"⟩
  | indented (indented : ∃ c ∈ sigil.toList.head?, isBlank c = true) :
    SigilFinds place path i sigil
      ⟨place ++ [1, i, 1], s!"{path}.prefixes[{i}]", "must not start with whitespace"⟩

/-- What is wrong with settings of a guild that are checked at a place. -/
inductive GuildSettings.Finds (g : GuildSettings) (place : List Nat) (path : String) :
    Finding → Prop where
  | noSigils (empty : g.sigils = []) :
    Finds g place path ⟨place ++ [0], s!"{path}.prefixes", "must not be empty"⟩
  | sigil {i : Nat} {sigil : String} {f : Finding} (listed : g.sigils[i]? = some sigil)
      (finds : SigilFinds place path i sigil f) : Finds g place path f
  | blankLocale (blank : ∀ c ∈ g.locale.toList, isBlank c = true) :
    Finds g place path ⟨place ++ [2], s!"{path}.locale", "must not be blank"⟩

/-- What is wrong with settings. -/
inductive Settings.Finds (s : Settings) : Finding → Prop where
  | defaults {f : Finding} (finds : s.defaults.Finds [0] "defaults" f) : Finds s f
  | guild {id : Nat} {g : GuildSettings} {f : Finding} (stored : s.guilds.get? id = some g)
      (finds : g.Finds [1, id] s!"guilds.{id}" f) : Finds s f
  | zeroDistance (zero : s.maxDistance = 0) :
    Finds s ⟨[2], "suggestion.max_distance", "must be at least 1 (0 would never suggest anything)"⟩

/-- The finding that comes before all others. -/
def Settings.FirstFinding (s : Settings) (f : Finding) : Prop :=
  s.Finds f ∧ ∀ other, s.Finds other → other = f ∨ f.place < other.place

theorem Settings.FirstFinding.unique {s : Settings} {f f' : Finding} (h : s.FirstFinding f)
    (h' : s.FirstFinding f') : f = f' := by
  rcases h.2 f' h'.1 with heq | hlt
  · exact heq.symm
  · rcases h'.2 f h.1 with heq | hgt
    · exact heq
    · exact absurd hgt (List.lt_asymm hlt)

theorem GuildSettings.sound_iff {g : GuildSettings} (place : List Nat) (path : String) :
    g.Sound ↔ ∀ f, ¬ g.Finds place path f := by
  constructor
  · intro h f hf
    cases hf with
    | noSigils empty => exact h.present empty
    | sigil listed finds =>
      have hmem := List.mem_of_getElem? listed
      cases finds with
      | blank blank =>
        obtain ⟨c, hc, hvisible⟩ := h.visible _ hmem
        rw [blank c hc] at hvisible
        cases hvisible
      | indented indented =>
        obtain ⟨c, hc, hblank⟩ := indented
        rw [h.flush _ hmem c hc] at hblank
        cases hblank
    | blankLocale blank =>
      obtain ⟨c, hc, hvisible⟩ := h.located
      rw [blank c hc] at hvisible
      cases hvisible
  · intro h
    refine ⟨fun hempty => h _ (.noSigils hempty), ?_, ?_, ?_⟩
    · intro sigil hsigil
      obtain ⟨i, hi⟩ := List.getElem?_of_mem hsigil
      by_contra hblank
      exact h _ (.sigil hi (.blank (by simpa using hblank)))
    · intro sigil hsigil c hc
      obtain ⟨i, hi⟩ := List.getElem?_of_mem hsigil
      rw [Bool.eq_false_iff]
      intro hblank
      exact h _ (.sigil hi (.indented ⟨c, hc, hblank⟩))
    · by_contra hblank
      exact h _ (.blankLocale (by simpa using hblank))

/-- Settings are sound exactly if there is nothing to find. -/
theorem Settings.sound_iff {s : Settings} : s.Sound ↔ ∀ f, ¬ s.Finds f := by
  constructor
  · intro h f hf
    cases hf with
    | defaults finds => exact (GuildSettings.sound_iff _ _).1 h.defaults f finds
    | guild stored finds => exact (GuildSettings.sound_iff _ _).1 (h.guilds _ _ stored) f finds
    | zeroDistance zero => exact Nat.ne_of_gt h.distance zero
  · intro h
    refine ⟨?_, ?_, ?_⟩
    · exact (GuildSettings.sound_iff _ _).2 fun f finds => h f (.defaults finds)
    · intro id g stored
      exact (GuildSettings.sound_iff _ _).2 fun f finds => h f (.guild stored finds)
    · exact Nat.pos_of_ne_zero fun zero => h _ (.zeroDistance zero)

/-! ## The first of several findings -/

def SettingsBlock.place : SettingsBlock → List Nat
  | .defaults => [0]
  | .guild id => [1, id]

/-- Where a violation comes in the order of the checks. -/
def Violation.place : Violation → List Nat
  | .noSigils block => block.place ++ [0]
  | .blankSigil block i => block.place ++ [1, i, 0]
  | .indentedSigil block i => block.place ++ [1, i, 1]
  | .blankLocale block => block.place ++ [2]
  | .zeroDistance => [2]

/-- What a violation reports. -/
def Violation.finding (v : Violation) : Finding :=
  ⟨v.place, v.field, v.reason⟩

/-- A check reports the first of the findings of a kind, or nothing if there are none. -/
def IsFirst (finds : Finding → Prop) : Option Violation → Prop
  | none => ∀ f, ¬ finds f
  | some v => finds v.finding ∧ ∀ f, finds f → f = v.finding ∨ v.place < f.place

namespace IsFirst

variable {finds finds' : Finding → Prop} {report report' : Option Violation}

theorem congr (h : IsFirst finds report) (same : ∀ f, finds f ↔ finds' f) :
    IsFirst finds' report := by
  rwa [← funext fun f => propext (same f)]

/-- A check of a single condition. -/
theorem ite (condition : Prop) [Decidable condition] (v : Violation) :
    IsFirst (fun f => condition ∧ f = v.finding) (if condition then some v else none) := by
  split
  · next holds => exact ⟨⟨holds, rfl⟩, fun f hf => Or.inl hf.2⟩
  · next fails => exact fun f hf => fails hf.1

/-- Two checks one after the other, if all that the second finds comes later. -/
theorem or (h : IsFirst finds report) (h' : IsFirst finds' report')
    (apart : ∀ f f', finds f → finds' f' → f.place < f'.place) :
    IsFirst (fun f => finds f ∨ finds' f) (report.or report') := by
  cases report with
  | some v =>
    refine ⟨Or.inl h.1, fun f hf => ?_⟩
    rcases hf with hf | hf
    · exact h.2 f hf
    · exact Or.inr (apart _ f h.1 hf)
  | none =>
    have hsame : ∀ f, finds' f ↔ finds f ∨ finds' f := fun f => (or_iff_right (h f)).symm
    exact h'.congr hsame

/-- The same check of several things in turn, if what it finds about one comes before all that it
finds about the later ones: induction on the things, by `IsFirst.or`. -/
theorem findSome? {α : Type} {xs : List α} {findsIn : α → Finding → Prop}
    {check : α → Option Violation} (h : ∀ x ∈ xs, IsFirst (findsIn x) (check x))
    (apart : xs.Pairwise fun x y =>
      ∀ f f', findsIn x f → findsIn y f' → f.place < f'.place) :
    IsFirst (fun f => ∃ x ∈ xs, findsIn x f) (xs.findSome? check) := by
  induction xs with
  | nil => exact fun f hf => List.not_mem_nil hf.choose_spec.1
  | cons x xs ih =>
    obtain ⟨hx, hxs⟩ := List.forall_mem_cons.1 h
    obtain ⟨hfirst, hrest⟩ := List.pairwise_cons.1 apart
    have hsplit : (x :: xs).findSome? check = (check x).or (xs.findSome? check) := by
      rw [List.findSome?_cons]
      cases check x <;> rfl
    rw [hsplit]
    refine (hx.or (ih hxs hrest) ?_).congr fun f => ?_
    · rintro f f' hf ⟨y, hy, hf'⟩
      exact hfirst y hy f f' hf hf'
    · simp

end IsFirst

/-! ## The parts of the check -/

section Parts

variable {place : List Nat} {path : String} {block : SettingsBlock}

theorem SigilFinds.place_eq {i : Nat} {sigil : String} {f : Finding}
    (h : SigilFinds place path i sigil f) : ∃ rest, f.place = place ++ 1 :: i :: rest := by
  cases h with
  | blank => exact ⟨[0], rfl⟩
  | indented => exact ⟨[1], rfl⟩

theorem GuildSettings.Finds.place_eq {g : GuildSettings} {f : Finding}
    (h : g.Finds place path f) : ∃ rest, f.place = place ++ rest := by
  cases h with
  | noSigils => exact ⟨_, rfl⟩
  | sigil _ finds =>
    obtain ⟨rest, hrest⟩ := finds.place_eq
    exact ⟨_, hrest⟩
  | blankLocale => exact ⟨_, rfl⟩

theorem sigilViolation?_isFirst (i : Nat) (sigil : String) :
    IsFirst (SigilFinds block.place block.path i sigil) (sigilViolation? block sigil i) := by
  have hhead : sigil.toList.head?.any isBlank = true ↔
      ∃ c ∈ sigil.toList.head?, isBlank c = true := by
    cases sigil.toList.head? <;> simp
  rw [sigilViolation?]
  split
  · next hblank =>
    refine ⟨.blank (List.all_eq_true.1 hblank), fun f hf => ?_⟩
    cases hf with
    | blank => exact Or.inl rfl
    | indented => exact Or.inr (List.append_left_lt (by simp [List.cons_lt_cons_iff]))
  · next hvisible =>
    have hnot : ¬ ∀ c ∈ sigil.toList, isBlank c = true := by
      rwa [← List.all_eq_true]
    split
    · next hindented =>
      refine ⟨.indented (hhead.1 hindented), fun f hf => ?_⟩
      cases hf with
      | blank blank => exact absurd blank hnot
      | indented => exact Or.inl rfl
    · next hflush =>
      intro f hf
      cases hf with
      | blank blank => exact hnot blank
      | indented indented => exact hflush (hhead.2 indented)

theorem zipIdx_violation?_isFirst (sigils : List String) :
    IsFirst (fun f => ∃ entry ∈ sigils.zipIdx,
        SigilFinds block.place block.path entry.2 entry.1 f)
      (sigils.zipIdx.findSome? fun (sigil, i) => sigilViolation? block sigil i) := by
  refine IsFirst.findSome? (fun entry _ => sigilViolation?_isFirst entry.2 entry.1) ?_
  rw [List.pairwise_iff_getElem]
  intro i j hi hj hij f f' hf hf'
  obtain ⟨rest, hrest⟩ := hf.place_eq
  obtain ⟨rest', hrest'⟩ := hf'.place_eq
  rw [hrest, hrest']
  refine List.append_left_lt ?_
  simp [List.cons_lt_cons_iff, hij]

theorem GuildSettings.violation?_isFirst (g : GuildSettings) :
    IsFirst (g.Finds block.place block.path) (g.violation? block) := by
  have hstages : g.violation? block =
      (if g.sigils = [] then some (.noSigils block) else none).or
        ((g.sigils.zipIdx.findSome? fun (sigil, i) => sigilViolation? block sigil i).or
          (if isBlankText g.locale.toList then some (.blankLocale block) else none)) := by
    rw [violation?]
    by_cases hnone : g.sigils = [] <;> simp [hnone]
  rw [hstages]
  refine ((IsFirst.ite _ _).or ((zipIdx_violation?_isFirst _).or (IsFirst.ite _ _) ?_) ?_).congr ?_
  · rintro f f' ⟨entry, -, hf⟩ ⟨-, rfl⟩
    obtain ⟨rest, hrest⟩ := hf.place_eq
    rw [hrest]
    exact List.append_left_lt (by simp [List.cons_lt_cons_iff])
  · rintro f f' ⟨-, rfl⟩ (⟨entry, -, hf'⟩ | ⟨-, rfl⟩)
    · obtain ⟨rest, hrest⟩ := hf'.place_eq
      rw [hrest]
      exact List.append_left_lt (by simp [List.cons_lt_cons_iff])
    · exact List.append_left_lt (by simp [List.cons_lt_cons_iff])
  · intro f
    constructor
    · rintro (⟨hnone, rfl⟩ | ⟨entry, hentry, hf⟩ | ⟨hblank, rfl⟩)
      · exact .noSigils hnone
      · exact .sigil (List.mk_mem_zipIdx_iff_getElem?.1 hentry) hf
      · exact .blankLocale (List.all_eq_true.1 hblank)
    · intro hf
      cases hf with
      | noSigils empty => exact Or.inl ⟨empty, rfl⟩
      | sigil listed finds =>
        exact Or.inr (Or.inl ⟨_, List.mk_mem_zipIdx_iff_getElem?.2 listed, finds⟩)
      | blankLocale blank => exact Or.inr (Or.inr ⟨List.all_eq_true.2 blank, rfl⟩)

end Parts

namespace Settings

/-- **The check reports the first finding**, if there is one. -/
theorem violation?_isFirst (s : Settings) : IsFirst s.Finds s.violation? := by
  have hguilds : IsFirst
      (fun f => ∃ entry ∈ s.guilds.entries, entry.2.Finds [1, entry.1] s!"guilds.{entry.1}" f)
      (s.guilds.entries.findSome? fun entry => entry.2.violation? (.guild entry.1)) := by
    refine IsFirst.findSome? (fun entry _ => entry.2.violation?_isFirst) ?_
    refine s.guilds.ordered.imp fun hlt f f' hf hf' => ?_
    obtain ⟨rest, hrest⟩ := hf.place_eq
    obtain ⟨rest', hrest'⟩ := hf'.place_eq
    rw [hrest, hrest']
    simp [List.cons_lt_cons_iff, hlt]
  rw [violation?]
  refine ((s.defaults.violation?_isFirst.or hguilds ?_).or (IsFirst.ite _ _) ?_).congr ?_
  · rintro f f' hf ⟨entry, -, hf'⟩
    obtain ⟨rest, hrest⟩ := hf.place_eq
    obtain ⟨rest', hrest'⟩ := hf'.place_eq
    rw [hrest, hrest']
    simp [SettingsBlock.place, List.cons_lt_cons_iff]
  · rintro f f' (hf | ⟨entry, -, hf⟩) ⟨-, rfl⟩
    · obtain ⟨rest, hrest⟩ := hf.place_eq
      rw [hrest]
      simp [SettingsBlock.place, Violation.finding, Violation.place, List.cons_lt_cons_iff]
    · obtain ⟨rest, hrest⟩ := hf.place_eq
      rw [hrest]
      simp [Violation.finding, Violation.place, List.cons_lt_cons_iff]
  · intro f
    constructor
    · rintro ((hf | ⟨⟨id, g⟩, hentry, hf⟩) | ⟨hzero, rfl⟩)
      · exact .defaults hf
      · exact .guild (Dictionary.mem_entries_iff.1 hentry) hf
      · exact .zeroDistance hzero
    · intro hf
      cases hf with
      | defaults finds => exact Or.inl (Or.inl finds)
      | guild stored finds =>
        exact Or.inl (Or.inr ⟨_, Dictionary.mem_entries_iff.2 stored, finds⟩)
      | zeroDistance zero => exact Or.inr ⟨zero, rfl⟩

theorem violation?_eq_none_iff {s : Settings} : s.violation? = none ↔ s.Sound := by
  have hfirst := s.violation?_isFirst
  rw [sound_iff]
  cases hreport : s.violation? with
  | none =>
    rw [hreport] at hfirst
    exact iff_of_true rfl hfirst
  | some v =>
    rw [hreport] at hfirst
    exact iff_of_false nofun fun hnone => hnone _ hfirst.1

/-- **Settings are checked in order.** They pass exactly if they are sound. If they fail, the field
and the reason are those of the first finding. And if they pass, every guild, be it stored or not,
shows the first of its sigils, which is not blank. -/
theorem checked_in_order (s : Settings) :
    (s.violation? = none ↔ s.Sound) ∧
    (∀ field reason, (∃ v, s.violation? = some v ∧ v.field = field ∧ v.reason = reason) ↔
      ∃ place, s.FirstFinding ⟨place, field, reason⟩) ∧
    (s.violation? = none → ∀ id, ∃ g,
      (s.guilds.get? id = some g ∨ s.guilds.get? id = none ∧ g = s.defaults) ∧
      g.sigils.head? = some (s.guild id).primarySigil ∧
      ∃ c ∈ (s.guild id).primarySigil.toList, isBlank c = false) := by
  refine ⟨violation?_eq_none_iff, fun field reason => ?_, fun hnone id => ?_⟩
  · have hfirst := s.violation?_isFirst
    constructor
    · rintro ⟨v, hreport, rfl, rfl⟩
      rw [hreport] at hfirst
      exact ⟨v.place, hfirst⟩
    · rintro ⟨place, hf⟩
      cases hreport : s.violation? with
      | none =>
        rw [hreport] at hfirst
        exact absurd hf.1 (hfirst _)
      | some v =>
        rw [hreport] at hfirst
        have heq : v.finding = ⟨place, field, reason⟩ := FirstFinding.unique hfirst hf
        exact ⟨v, rfl, congrArg Finding.field heq, congrArg Finding.reason heq⟩
  · have hsound := (violation?_eq_none_iff.1 hnone).guild id
    refine ⟨s.guild id, ?_, ?_⟩
    · rw [Settings.guild]
      cases s.guilds.get? id with
      | none => exact Or.inr ⟨rfl, rfl⟩
      | some g => exact Or.inl rfl
    · cases hsigils : (s.guild id).sigils with
      | nil => exact absurd hsigils hsound.present
      | cons sigil sigils =>
        have hprimary : (s.guild id).primarySigil = sigil := by
          rw [GuildSettings.primarySigil, hsigils, List.headD_cons]
        rw [hprimary]
        exact ⟨rfl, hsound.visible sigil (hsigils ▸ List.mem_cons_self)⟩

theorem checked_in_order_numbered :
    let faulty : Settings := {
      maxDistance := 0
      guilds := .ofList [(10, { sigils := [] }), (9, { sigils := ["$", "\u2003", " !"] })] }
    let sound : Settings := { guilds := .ofList [(9, { sigils := ["bot ", "!"] })] }
    (∃ v, faulty.violation? = some v ∧ v.field = "guilds.9.prefixes[1]" ∧
      v.reason = "must not be blank") ∧
    (∃ place, faulty.FirstFinding ⟨place, "guilds.9.prefixes[1]", "must not be blank"⟩) ∧
    sound.violation? = none ∧ sound.Sound ∧ (sound.guild 9).primarySigil = "bot " ∧
    ∀ id, ∃ g, (sound.guilds.get? id = some g ∨ sound.guilds.get? id = none ∧ g = sound.defaults) ∧
      g.sigils.head? = some (sound.guild id).primarySigil ∧
      ∃ c ∈ (sound.guild id).primarySigil.toList, isBlank c = false := by
  intro faulty sound
  have hfaulty : ∃ v, faulty.violation? = some v ∧ v.field = "guilds.9.prefixes[1]" ∧
      v.reason = "must not be blank" :=
    ⟨.blankSigil (.guild 9) 1, by decide +kernel, by decide +kernel, rfl⟩
  have hsound : sound.violation? = none := by decide +kernel
  exact ⟨hfaulty, ((checked_in_order faulty).2.1 _ _).1 hfaulty, hsound,
    (checked_in_order sound).1.1 hsound, by decide +kernel, (checked_in_order sound).2.2 hsound⟩

end Settings

end ChatCommands
