import ChatCommands.Invocation
import ChatCommands.Proofs.Binding.Spaced
import ChatCommands.Settings

/-!
# Commands that are typed

A command as a user types it is put together from a sigil, a key and values, with blanks around
them: `TypedCommand`. Reading such a text finds the parts that it was made from
(`Invocation.ofText?_of_typed`), if the sigil is the one that is tried first. Settings that pass
their check have such a sigil.
-/

namespace ChatCommands

open Text

/-- A command as it is typed after its sigil. -/
structure TypedCommand where
  /-- What stands between the sigil and the key. -/
  lead : List Char
  key : List Char
  given : List Given
  /-- What stands after the last value. -/
  trail : List Char

namespace TypedCommand

def afterKey (t : TypedCommand) : List Char :=
  Binding.spaced t.given ++ t.trail

def afterSigil (t : TypedCommand) : List Char :=
  t.lead ++ (t.key ++ t.afterKey)

/-- The invocation that the command is when a sigil introduces it. -/
def invocation (t : TypedCommand) (sigil : String) : Invocation where
  sigil := sigil
  key := String.ofList (lower t.key)
  remainder := String.ofList (trimStart (Binding.spaced t.given))

/-- The arguments for parameters: each gets the value in its place. -/
def arguments (t : TypedCommand) (ps : List Parameter) : Binding :=
  Binding.pair ps (t.given.map Given.value)

/-- The key is one word, the values fill the parameters, and there are only blanks around them. -/
structure WellTyped (t : TypedCommand) (ps : List Parameter) : Prop where
  leadBlank : isBlankText t.lead = true
  keyed : t.key ≠ []
  keyWord : ∀ c ∈ t.key, isBlank c = false
  filled : Binding.Filled ps t.given
  trailBlank : isBlankText t.trail = true

namespace WellTyped

variable {t : TypedCommand} {ps : List Parameter}

/-- Every value that is given has a parameter. -/
theorem length_arguments (h : t.WellTyped ps) : (t.arguments ps).length = t.given.length := by
  rw [arguments, Binding.length_pair, List.length_map]
  exact Nat.min_eq_right h.filled.room

theorem noLeadingBlank_key (h : t.WellTyped ps) : NoLeadingBlank t.key := by
  intro c hc
  exact h.keyWord c (List.mem_of_mem_head? hc)

/-- Without the blanks at its ends, the text is the key and the values. -/
theorem trim_afterSigil (h : t.WellTyped ps) (hps : Pattern.Grammatical ps) :
    trim t.afterSigil = t.key ++ Binding.spaced t.given := by
  have hstart : NoLeadingBlank (t.key ++ Binding.spaced t.given) :=
    h.noLeadingBlank_key.append h.keyed _
  have hstop : NoTrailingBlank (t.key ++ Binding.spaced t.given) :=
    (h.filled.noTrailingBlank_spaced hps).append h.filled.spaced_ne_nil _
  calc trim t.afterSigil
      = trim (t.lead ++ (t.key ++ Binding.spaced t.given) ++ t.trail) := by
        simp only [afterSigil, afterKey, List.append_assoc]
    _ = trim (t.lead ++ (t.key ++ Binding.spaced t.given)) := trim_append h.trailBlank _
    _ = trimEnd (trimStart (t.key ++ Binding.spaced t.given)) := by
        rw [trim, trimStart_append h.leadBlank]
    _ = t.key ++ Binding.spaced t.given := by
        rw [hstart.trimStart_eq, hstop.trimEnd_eq]

/-- Skipping blanks makes no difference to whether help is asked for. -/
theorem isHelpRequest_remainder (h : t.WellTyped ps) (sigil : String) :
    isHelpRequest (t.invocation sigil).remainder = isHelpRequest (String.ofList t.afterKey) := by
  have htrim : trim (trimStart (Binding.spaced t.given)) = trim t.afterKey := by
    rw [trim_trimStart, afterKey, trim_append h.trailBlank]
  rw [isHelpRequest, isHelpRequest, invocation, String.toList_ofList, String.toList_ofList, htrim]

end WellTyped

end TypedCommand

/-! ## The sigil -/

/-- The first sigil is tried before all others. -/
theorem Invocation.introduced?_of_first {sigil : String} (hsigil : sigil ≠ "")
    (sigils : List String) (mentions : Mentions) (rest : List Char) :
    introduced? (sigil.toList ++ rest) (introductions (sigil :: sigils) mentions) =
      some (sigil, rest) := by
  have hafter : after? sigil.toList (sigil.toList ++ rest) = some rest :=
    after?_eq_some_iff.2 rfl
  rw [introductions, List.cons_append, List.filter_cons_of_pos (by simpa using hsigil), introduced?,
    hafter]

/-- **A typed command is read back**: its sigil, its key in lower case and the text of its
values. -/
theorem Invocation.ofText?_of_typed {t : TypedCommand} {ps : List Parameter} {text sigil : String}
    (h : t.WellTyped ps) (hps : Pattern.Grammatical ps) (hsigil : sigil ≠ "")
    (htext : text.toList = sigil.toList ++ t.afterSigil) (sigils : List String)
    (mentions : Mentions) :
    ofText? text (sigil :: sigils) mentions = some (t.invocation sigil) := by
  have hgap := h.filled.head_spaced
  rw [ofText?, htext, introduced?_of_first hsigil]
  simp only [h.trim_afterSigil hps]
  rw [if_neg (by simp [h.keyed]), word_append h.keyWord hgap, afterWord_append h.keyWord hgap]
  rfl

/-- A word right after the first sigil is the key, whatever follows it after a blank. -/
theorem Invocation.ofText?_of_word {text sigil : String} {key trail : List Char}
    (hsigil : sigil ≠ "") (hne : key ≠ []) (hword : ∀ c ∈ key, isBlank c = false)
    (htrail : ∀ c ∈ trail.head?, isBlank c = true)
    (htext : text.toList = sigil.toList ++ (key ++ trail)) (sigils : List String)
    (mentions : Mentions) :
    ∃ remainder, ofText? text (sigil :: sigils) mentions =
      some { sigil, key := String.ofList (lower key), remainder } := by
  have hstart : NoLeadingBlank key := fun c hc => hword c (List.mem_of_mem_head? hc)
  have hstop : NoTrailingBlank key := fun c hc => hword c (List.mem_of_getLast? hc)
  have htrim : trim (key ++ trail) = key ++ trimEnd trail := by
    rw [trim, (hstart.append hne trail).trimStart_eq, hstop.trimEnd_append]
  have hgap : ∀ c ∈ (trimEnd trail).head?, isBlank c = true := by
    intro c hc
    have hprefix : [c] <+: trail :=
      (List.singleton_prefix_iff_head?_eq_some.2 hc).trans (isPrefix_trimEnd trail)
    exact htrail c (List.singleton_prefix_iff_head?_eq_some.1 hprefix)
  rw [ofText?, htext, introduced?_of_first hsigil]
  simp only [htrim]
  rw [if_neg (by simp [hne]), word_append hword hgap]
  exact ⟨_, rfl⟩

/-- Settings of a guild that pass their check have no empty sigil. -/
theorem GuildSettings.ne_empty_of_mem_sigils {g : GuildSettings} {block : SettingsBlock}
    (h : g.violation? block = none) {sigil : String} (hsigil : sigil ∈ g.sigils) : sigil ≠ "" := by
  rintro rfl
  rw [violation?] at h
  split at h
  · cases h
  obtain ⟨hsigils, -⟩ := Option.or_eq_none_iff.1 h
  obtain ⟨index, hindex⟩ := List.getElem?_of_mem hsigil
  have hnone := List.findSome?_eq_none_iff.1 hsigils _ (List.mk_mem_zipIdx_iff_getElem?.2 hindex)
  -- an empty sigil is blank
  simp [sigilViolation?, isBlankText] at hnone

/-- Settings of a guild that pass their check have a sigil to show, which is the first and is not
empty. -/
theorem GuildSettings.sigils_of_violation?_eq_none {g : GuildSettings} {block : SettingsBlock}
    (h : g.violation? block = none) :
    g.primarySigil ≠ "" ∧ ∃ sigils, g.sigils = g.primarySigil :: sigils := by
  cases hsigils : g.sigils with
  | nil => simp [violation?, hsigils] at h
  | cons sigil sigils =>
    have hprimary : g.primarySigil = sigil := by rw [primarySigil, hsigils]; rfl
    rw [hprimary]
    refine ⟨g.ne_empty_of_mem_sigils h ?_, sigils, rfl⟩
    rw [hsigils]
    exact List.mem_cons_self

theorem GuildSettings.primarySigil_mem {g : GuildSettings} {block : SettingsBlock}
    (h : g.violation? block = none) : g.primarySigil ∈ g.sigils := by
  obtain ⟨-, sigils, hsigils⟩ := g.sigils_of_violation?_eq_none h
  exact hsigils ▸ List.mem_cons_self

/-- Settings that pass their check give every guild settings that do. -/
theorem Settings.violation?_guild_eq_none {s : Settings} (h : s.violation? = none)
    (guild : Nat) : ∃ block, (s.guild guild).violation? block = none := by
  rw [violation?, Option.or_eq_none_iff, Option.or_eq_none_iff, List.findSome?_eq_none_iff] at h
  obtain ⟨⟨hdefaults, hguilds⟩, -⟩ := h
  rw [Settings.guild]
  cases hg : s.guilds.get? guild with
  | none => exact ⟨.defaults, hdefaults⟩
  | some g =>
    obtain ⟨before, after, hentries, -⟩ := List.lookup_eq_some_iff.1 hg
    exact ⟨.guild guild, hguilds (guild, g) (by simp [hentries])⟩

end ChatCommands
