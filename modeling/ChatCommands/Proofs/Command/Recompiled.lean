import ChatCommands.Context
import ChatCommands.Proofs.Command.Compiled
import ChatCommands.Proofs.Pattern.RoundTrip
import ChatCommands.Proofs.Table.Keys

/-!
# Commands that are made again

A command keeps what it was declared with in the form in which it was understood: names in lower
case, the pattern without the blanks around it, the permissions as a set. Declaring it again in
this form makes the same command (`Command.made_again`), because each of these forms is final: lower
case, trimming and ordering change nothing when they are done twice.

The pattern is kept twice, as it was declared and as parameters, and texts about the command go by
one or by the other. Both are empty together (`Command.paramText_eq_empty_iff`), so all texts about
a command show a pattern or none does.
-/

namespace ChatCommands

open Text

/-! ## Capabilities -/

namespace Capability

theorem insert_of_lt {c : Capability} {ds : List Capability} (h : ∀ d ∈ ds, c < d) :
    insert c ds = c :: ds := by
  cases ds with
  | nil => rfl
  | cons d ds => rw [insert, if_pos (h d List.mem_cons_self)]

/-- A list that is in order and has nothing twice is a set already. -/
theorem setOf_eq_self {cs : List Capability} (h : cs.Pairwise (· < ·)) : setOf cs = cs := by
  rw [setOf]
  induction cs with
  | nil => rfl
  | cons c cs ih =>
    obtain ⟨hfirst, hrest⟩ := List.pairwise_cons.1 h
    rw [List.foldr_cons, ih hrest, insert_of_lt hfirst]

end Capability

/-! ## Patterns -/

namespace Pattern

/-- Blanks around a pattern do not count. -/
theorem compile_trim (pattern : String) :
    compile (String.ofList (trim pattern.toList)) = compile pattern := by
  have htokens : tokens (trim pattern.toList) = tokens pattern.toList := by
    rw [tokens, trim_trim, ← tokens]
  rw [compile, compile, String.toList_ofList, htokens]

/-- A pattern declares no parameters exactly if it is blank. -/
theorem trim_eq_nil_iff_of_compile {pattern : String} {ps : List Parameter}
    (h : compile pattern = .ok ps) : trim pattern.toList = [] ↔ ps = [] := by
  rw [← tokens_eq_nil_iff, (compile_eq_ok_iff.1 h).1, List.map_eq_nil_iff]

end Pattern

/-! ## Commands -/

namespace Command

/-- A name in its final form is kept as it is. -/
theorem foldKey_of_readsBack {key : String} (h : ReadsBack key) : foldKey key = .ok key := by
  have hword : ¬ (key.toList.isEmpty || key.toList.any isBlank) = true := by
    rw [Bool.or_eq_true, List.isEmpty_iff, List.any_eq_true]
    rintro (hnil | ⟨c, hc, hblank⟩)
    · exact h.ne_nil hnil
    · rw [h.word c hc] at hblank
      cases hblank
  rw [foldKey, if_neg hword, h.lowered, String.ofList_toList]

theorem foldKeys_of_readsBack {keys : List String} (h : ∀ key ∈ keys, ReadsBack key) :
    foldKeys keys = .ok keys := by
  induction keys with
  | nil => rfl
  | cons key keys ih =>
    obtain ⟨hkey, hkeys⟩ := List.forall_mem_cons.1 h
    rw [foldKeys, foldKey_of_readsBack hkey, ih hkeys]
    rfl

/-- What makes a command of a declaration, part by part. -/
theorem ofDeclaration_eq_ok_iff {d : Declaration} {c : Command} :
    ofDeclaration d = .ok c ↔
      foldKey d.key = .ok c.key ∧ foldKeys d.aliases = .ok c.aliases ∧
      Pattern.compile d.params = .ok c.parameters ∧
      c.paramText = String.ofList (trim d.params.toList) ∧ c.description = d.description ∧
      c.capabilities = Capability.setOf d.permissions := by
  constructor
  · intro h
    obtain ⟨hkey, haliases, hparams⟩ := parts_of_ofDeclaration h
    refine ⟨hkey, haliases, hparams, ?_⟩
    rw [ofDeclaration, hkey, haliases, hparams] at h
    have hself := (Except.ok.inj h).symm
    exact ⟨congrArg paramText hself, congrArg description hself, congrArg capabilities hself⟩
  · rintro ⟨hkey, haliases, hparams, htext, hdescription, hcapabilities⟩
    rw [ofDeclaration, hkey, haliases, hparams, ← htext, ← hdescription, ← hcapabilities]
    rfl

/-- The declaration of a command as it was understood. -/
def declaration (c : Command) : Declaration where
  key := c.key
  aliases := c.aliases
  params := c.paramText
  description := c.description
  permissions := c.capabilities

variable {d : Declaration} {c : Command}

theorem readsBack_of_mem_keys (h : ofDeclaration d = .ok c) : ∀ key ∈ c.keys, ReadsBack key := by
  obtain ⟨hkey, haliases, -⟩ := ofDeclaration_eq_ok_iff.1 h
  exact List.forall_mem_cons.2 ⟨readsBack_of_foldKey hkey, readsBack_of_foldKeys haliases⟩

/-- The pattern of a command is empty exactly if it has no parameters. -/
theorem paramText_eq_empty_iff (h : ofDeclaration d = .ok c) :
    c.paramText = "" ↔ c.parameters = [] := by
  obtain ⟨-, -, hparams, htext, -⟩ := ofDeclaration_eq_ok_iff.1 h
  rw [← Pattern.trim_eq_nil_iff_of_compile hparams, htext, String.ofList_eq_empty_iff]

theorem compile_paramText (h : ofDeclaration d = .ok c) :
    Pattern.compile c.paramText = .ok c.parameters := by
  obtain ⟨-, -, hparams, htext, -⟩ := ofDeclaration_eq_ok_iff.1 h
  rw [htext, Pattern.compile_trim, hparams]

theorem ofDeclaration_declaration (h : ofDeclaration d = .ok c) :
    ofDeclaration c.declaration = .ok c := by
  obtain ⟨-, -, -, htext, -, hcapabilities⟩ := ofDeclaration_eq_ok_iff.1 h
  obtain ⟨hkey, haliases⟩ := List.forall_mem_cons.1 (readsBack_of_mem_keys h)
  refine ofDeclaration_eq_ok_iff.2 ⟨foldKey_of_readsBack hkey, foldKeys_of_readsBack haliases,
    compile_paramText h, ?_, rfl, ?_⟩
  · rw [declaration, htext, String.toList_ofList, trim_trim]
  · rw [declaration, hcapabilities]
    exact (Capability.setOf_eq_self (Capability.pairwise_setOf d.permissions)).symm

end Command

/-! ## Texts about commands -/

namespace Context

/-- What a command does, as texts about it say. -/
def described (ctx : Context) (c : Command) : String :=
  if c.description.isEmpty then "" else ctx.render c.description []

/-- None of the texts about a command shows a pattern. -/
structure ShowsNoPattern (ctx : Context) (c : Command) : Prop where
  correction :
    ctx.correction c = ctx.render TemplateKey.incorrectArgumentsEmpty [ctx.sigil, ctx.key]
  usageLine : ctx.usageLine c =
    ctx.render TemplateKey.helpUsageEmpty [ctx.sigil, c.key, ctx.described c]
  helpText : ctx.helpText c = ctx.usageLine c

/-- All texts about a command show its pattern, and the help says what the brackets mean. -/
structure ShowsPattern (ctx : Context) (c : Command) : Prop where
  correction : ctx.correction c = ctx.render TemplateKey.incorrectArguments
    [ctx.sigil, ctx.key, ctx.render c.paramText []]
  usageLine : ctx.usageLine c = ctx.render TemplateKey.helpUsage
    [ctx.sigil, c.key, ctx.render c.paramText [], ctx.described c]
  helpText : ctx.helpText c = ctx.usageLine c ++ "\n\n" ++ ctx.render TemplateKey.helpBrackets []

variable {c : Command} (ctx : Context)

theorem showsNoPattern (htext : c.paramText = "") (hparams : c.parameters = []) :
    ctx.ShowsNoPattern c where
  correction := by simp [Context.correction, htext]
  usageLine := by simp [Context.usageLine, htext, described]
  helpText := by simp [Context.helpText, hparams]

theorem showsPattern (htext : c.paramText ≠ "") (hparams : c.parameters ≠ []) :
    ctx.ShowsPattern c where
  correction := by simp [Context.correction, htext]
  usageLine := by simp [Context.usageLine, htext, described]
  helpText := by simp [Context.helpText, hparams]

end Context

namespace Command

/-- **Commands are made again from themselves.** The pattern of a command, as it was declared and
as it is written from the parameters, declares these parameters. It is empty exactly if there are
none, so the texts about the command agree on whether they show it. The command declared in its
final form is the same command, and its names are keys. -/
theorem made_again {d : Declaration} {c : Command} (made : ofDeclaration d = .ok c) :
    (Pattern.compile c.paramText = .ok c.parameters ∧
      Pattern.compile c.usagePattern = .ok c.parameters) ∧
    (c.paramText = "" ↔ c.parameters = []) ∧
    (∀ ctx : Context, c.parameters = [] ∧ ctx.ShowsNoPattern c ∨
      c.parameters ≠ [] ∧ ctx.ShowsPattern c) ∧
    ofDeclaration c.declaration = .ok c ∧
    ∀ key ∈ c.keys, IsKey key := by
  have hcompiled := compile_paramText made
  have hempty := paramText_eq_empty_iff made
  refine ⟨⟨hcompiled, ?_⟩, hempty, fun ctx => ?_, ofDeclaration_declaration made, ?_⟩
  · exact Pattern.compile_render (Pattern.declarable_of_compile hcompiled)
  · by_cases hparams : c.parameters = []
    · exact Or.inl ⟨hparams, ctx.showsNoPattern (hempty.2 hparams) hparams⟩
    · exact Or.inr ⟨hparams, ctx.showsPattern (fun htext => hparams (hempty.1 htext)) hparams⟩
  · intro key hkey
    have hreads := readsBack_of_mem_keys made key hkey
    refine ⟨?_, hreads.word⟩
    rintro rfl
    exact hreads.ne_nil rfl

theorem made_again_folded :
    let d : Declaration := {
      key := "ΟΔΟΣ", aliases := ["İ"], params := "\u2003<a b>\t [c] \n[rest...]\r\n"
      permissions := ["kick", "ban", "kick"] }
    let c : Command := {
      key := "οδος", aliases := ["i\u0307"], paramText := "<a b>\t [c] \n[rest...]"
      parameters := [.mandatory "a b", .omissible "c", (Parameter.omissible "rest").collecting]
      description := "", capabilities := ["ban", "kick"] }
    ofDeclaration d = .ok c ∧
      (Pattern.compile "<a b>\t [c] \n[rest...]" = .ok c.parameters ∧
        Pattern.compile "<a b> [c] [rest...]" = .ok c.parameters) ∧
      (∀ ctx : Context, ctx.ShowsPattern c) ∧ ofDeclaration c.declaration = .ok c ∧
      ∀ key ∈ c.keys, IsKey key := by
  intro d c
  have made : ofDeclaration d = .ok c := by decide +kernel
  obtain ⟨⟨htext, husage⟩, -, htexts, hagain, hkeys⟩ := made_again made
  have hrendered : c.usagePattern = "<a b> [c] [rest...]" := by decide +kernel
  refine ⟨made, ⟨htext, hrendered ▸ husage⟩, fun ctx => ?_, hagain, hkeys⟩
  exact ((htexts ctx).resolve_left fun hnone => List.cons_ne_nil _ _ hnone.1).2

end Command

end ChatCommands
