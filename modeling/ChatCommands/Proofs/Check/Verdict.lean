import ChatCommands.CommandLine
import ChatCommands.Proofs.Command.Compiled
import ChatCommands.Proofs.Json.RoundTrip
import ChatCommands.Proofs.Pattern.RoundTrip
import ChatCommands.Proofs.Table.Construction
import ChatCommands.Proofs.Text.Utf8

/-!
# The verdict on declarations

A file of declarations passes the check exactly if every declaration makes a command and no two
keys are the same (`CommandLine.check_verdict`). A declaration that makes no command is reported
before any key that is there twice, wherever they stand (`Check.commands_cases`).

What the report says is read from it again: `Check.Summarizes` for a file that passes and
`Check.Complains` for one that does not. The message quotes what is at fault: a name that is no key,
a token that breaks a rule (`CommandError.quotes_culprit`) or a key that is there twice
(`DuplicateKey.quotes_key`).
-/

namespace ChatCommands

open Json Text

/-! ## What messages quote -/

/-- A message has a text in quotation marks. -/
def Quotes (message text : String) : Prop :=
  ∃ before after, message = before ++ "'" ++ text ++ ("'" ++ after)

theorem PatternError.quotes_token (error : PatternError) : Quotes error.message error.token := by
  cases error with
  | malformed token => exact ⟨"malformed parameter ", "", rfl⟩
  | requiredAfterOptional token =>
    exact ⟨"invalid parameter grammar at ", ": required parameter after an optional parameter", rfl⟩
  | variadicNotLast token =>
    exact ⟨"invalid parameter grammar at ", ": variadic parameter must be the last parameter", rfl⟩

/-- What a declaration makes no command for: a name that is no key, or a token of the pattern. -/
def CommandError.culprit : CommandError → String
  | invalidKey raw => raw
  | invalidPattern error => error.token

theorem CommandError.quotes_culprit (error : CommandError) :
    Quotes error.message error.culprit := by
  cases error with
  | invalidKey raw => exact ⟨"invalid command key ", "", rfl⟩
  | invalidPattern error => exact error.quotes_token

theorem DuplicateKey.quotes_key (d : DuplicateKey) : Quotes d.message d.key := by
  refine ⟨"command key ", " of '" ++ d.command ++ "' is already registered by '" ++
    d.existing ++ "'", ?_⟩
  show "command key '" ++ d.key ++ "' of '" ++ d.command ++ "' is already registered by '" ++
    d.existing ++ "'" = _
  simp only [String.append_assoc]
  rfl

namespace Check

/-! ## What is checked -/

/-- **The outcome of the check**: the first declaration that makes no command, or else a key that
is there more than once, or else all commands. -/
theorem commands_cases {source : String} {ds : List Declaration}
    (h : Declaration.listOfText? source = some ds) :
    (∃ before d after error, ds = before ++ d :: after ∧ (∀ earlier ∈ before, earlier.Sound) ∧
      d.Fault error ∧ commands source = .error (.invalidCommand error)) ∨
    ((∀ d ∈ ds, d.Sound) ∧ ∃ duplicate : DuplicateKey,
      1 < (ds.flatMap Declaration.keys).count duplicate.key ∧
      commands source = .error (.duplicateKey duplicate)) ∨
    ((∀ d ∈ ds, d.Sound) ∧ (ds.flatMap Declaration.keys).Nodup ∧
      ∃ cs, List.Forall₂ Declaration.Makes ds cs ∧ commands source = .ok cs) := by
  rcases Command.ofDeclarations_cases ds with
    ⟨before, d, after, error, hsplit, hbefore, hfault, hds⟩ | ⟨hsound, cs, hmakes, hds⟩
  · have hcommands : commands source = .error (.invalidCommand error) := by
      simp only [commands, h, hds]
    exact Or.inl ⟨before, d, after, error, hsplit, hbefore, hfault, hcommands⟩
  · rw [← Command.allKeys_of_makes hmakes]
    rcases Draft.assemble_cases cs with
      ⟨duplicate, hconflict, hassemble⟩ | ⟨hnone, draft, hassemble, -⟩
    · have hcommands : commands source = .error (.duplicateKey duplicate) := by
        simp only [commands, h, hds, hassemble]
      exact Or.inr (Or.inl ⟨hsound, duplicate, Command.count_of_firstConflict? hconflict,
        hcommands⟩)
    · have hcommands : commands source = .ok cs := by
        simp only [commands, h, hds, hassemble]
      exact Or.inr (Or.inr ⟨hsound, Command.firstConflict?_eq_none_iff.1 hnone, cs, hmakes,
        hcommands⟩)

/-! ## What is reported -/

/-- A command as a report shows it. -/
structure Shown where
  key : String
  aliases : List String
  usage : String
  permissions : List String

namespace Shown

def ofCommand (c : Command) : Shown where
  key := c.key
  aliases := c.aliases
  usage := c.usagePattern
  permissions := c.capabilities

def ofJson? (json : Json) : Option Shown := do
  let [key, aliases, usage, permissions] ←
    json.fields? ["key", "aliases", "usage", "permissions"] | none
  return {
    key := ← required? text? key
    aliases := ← required? (list? text?) aliases
    usage := ← required? text? usage
    permissions := ← required? (list? text?) permissions }

/-- What is shown tells of the declaration: its keys in lower case, a usage that declares the same
parameters, and its permissions in increasing order, each once. -/
structure Tells (d : Declaration) (shown : Shown) : Prop where
  keys_eq : shown.key :: shown.aliases = d.keys
  usage_eq : ∃ ps, Pattern.compile d.params = .ok ps ∧ Pattern.compile shown.usage = .ok ps
  increasing : shown.permissions.Pairwise (· < ·)
  mem_permissions : ∀ c, c ∈ shown.permissions ↔ c ∈ d.permissions

theorem tells_ofCommand {d : Declaration} {c : Command} (h : d.Makes c) :
    Tells d (ofCommand c) where
  keys_eq := h.keys_eq
  usage_eq := ⟨c.parameters, h.parameters_eq,
    Pattern.compile_render (Pattern.declarable_of_compile h.parameters_eq)⟩
  increasing := h.increasing
  mem_permissions := h.mem_capabilities

theorem ofJson?_summary (c : Command) : ofJson? (summary c) = some (ofCommand c) := by
  have hfields : (summary c).fields? ["key", "aliases", "usage", "permissions"] =
      some [some (ofString c.key), some (ofStrings c.aliases), some (ofString c.usagePattern),
        some (ofStrings c.capabilities)] := fields?_ofMembers _ _
  rw [ofJson?, hfields]
  simp [required?, ofCommand]

end Shown

/-- The commands in the document about a file that passes. -/
def shown? (json : Json) : Option (List Shown) := do
  let [ok, commands] ← json.fields? ["ok", "commands"] | none
  if ← required? bool? ok then required? (list? Shown.ofJson?) commands else none

/-- The text in the document about a file that does not pass. -/
def complaint? (json : Json) : Option String := do
  let [ok, error] ← json.fields? ["ok", "error"] | none
  if ← required? bool? ok then none else required? text? error

/-- Lines that report the commands of a file. People see a command as it is invoked. -/
def Summarizes (file : String) (lines : List Line) (shown : List Shown) : Format → Prop
  | .json => ∃ document, lines = [.document document] ∧ shown? document = some shown
  | .pretty => lines =
      (shown.map fun s => .out (if s.usage = "" then s.key else s.key ++ " " ++ s.usage)) ++
        [.err s!"{file}: {shown.length} command(s) ok"]

/-- Lines that report an error in a file, for people with the position of it if there is one. -/
def Complains (file : String) (lines : List Line) (message : String) : Format → Prop
  | .json => ∃ document, lines = [.document document] ∧ complaint? document = some message
  | .pretty => lines = [.err s!"error: {message}"] ∨ lines = [.err s!"Error: {message}"] ∨
      ∃ position, lines = [.err s!"Error: {message}", .position file position]

theorem summarizes_success (file : String) (cs : List Command) (format : Format) :
    Summarizes file (success file cs format) (cs.map Shown.ofCommand) format := by
  cases format with
  | json =>
    refine ⟨_, rfl, ?_⟩
    rw [shown?, fields?_ofMembers]
    simp [List.lookup_cons, required?, bool?, list?_map Shown.ofJson?_summary]
  | pretty =>
    have hline : ∀ c, invocationLine c =
        if (Shown.ofCommand c).usage = "" then (Shown.ofCommand c).key
        else (Shown.ofCommand c).key ++ " " ++ (Shown.ofCommand c).usage := by
      intro c
      rw [invocationLine]
      exact ite_congr (propext String.isEmpty_iff) (fun _ => rfl) fun _ => rfl
    simp only [Summarizes, success, List.map_map, List.length_map, hline]
    rfl

theorem complains_failure (file source : String) (error : CheckError) (format : Format) :
    Complains file (failure file source error format) error.message format := by
  cases format with
  | json =>
    refine ⟨_, rfl, ?_⟩
    rw [complaint?, fields?_ofMembers]
    simp [List.lookup_cons, required?, bool?]
  | pretty =>
    rw [failure]
    cases error.span? source with
    | none => exact Or.inl rfl
    | some span =>
      simp only
      cases span.position? source.toList with
      | none => exact Or.inr (Or.inl rfl)
      | some position => exact Or.inr (Or.inr ⟨position, rfl⟩)

end Check

namespace CommandLine

variable {files : String → Except String (List UInt8)} {file source : String} {bytes : List UInt8}
  {ds : List Declaration}

theorem report_of_ok {cs : List Command} (found : files file = .ok bytes)
    (decoded : Utf8.decode bytes = .ok source) (h : Check.commands source = .ok cs)
    (format : Format) (stdin : List UInt8) : report format files stdin (.check file) =
      { lines := Check.success file cs format, exitCode := 0 } := by
  simp only [report, reportAt, checkReport, found, fileText, decoded, h]

theorem report_of_error {error : CheckError} (found : files file = .ok bytes)
    (decoded : Utf8.decode bytes = .ok source) (h : Check.commands source = .error error)
    (format : Format) (stdin : List UInt8) : report format files stdin (.check file) =
      { lines := Check.failure file source error format, exitCode := 1 } := by
  simp only [report, reportAt, checkReport, found, fileText, decoded, h]

/-- **The verdict.** A file with a list of declarations passes, with exit code zero, exactly if all
of them make commands and no two of their keys are the same. Then the report tells of each
declaration, in order. Otherwise the exit code is one, and the report is about the first
declaration that makes no command or, if they all make one, about a key that is there more than
once; it quotes what is at fault. -/
theorem check_verdict (found : files file = .ok bytes) (decoded : Utf8.decode bytes = .ok source)
    (declared : Declaration.listOfText? source = some ds) (format : Format) (stdin : List UInt8) :
    let outcome := report format files stdin (.check file)
    (outcome.exitCode = 0 ↔
      (∀ d ∈ ds, d.Sound) ∧ (ds.flatMap Declaration.keys).Nodup) ∧
    (outcome.exitCode = 0 → ∃ shown, Check.Summarizes file outcome.lines shown format ∧
      List.Forall₂ Check.Shown.Tells ds shown) ∧
    (outcome.exitCode ≠ 0 → outcome.exitCode = 1 ∧
      ((∃ before d after error, ds = before ++ d :: after ∧ (∀ earlier ∈ before, earlier.Sound) ∧
          d.Fault error ∧ Quotes error.message error.culprit ∧
          Check.Complains file outcome.lines error.message format) ∨
        ((∀ d ∈ ds, d.Sound) ∧ ∃ duplicate : DuplicateKey,
          1 < (ds.flatMap Declaration.keys).count duplicate.key ∧
          Quotes duplicate.message duplicate.key ∧
          Check.Complains file outcome.lines duplicate.message format))) := by
  intro outcome
  rcases Check.commands_cases declared with
    ⟨before, d, after, error, hsplit, hbefore, hfault, hcommands⟩ |
    ⟨hsound, duplicate, hcount, hcommands⟩ | ⟨hsound, hnodup, cs, hmakes, hcommands⟩
  · have houtcome : outcome = _ := report_of_error found decoded hcommands format stdin
    rw [houtcome]
    refine ⟨?_, fun h => absurd h Nat.one_ne_zero, fun _ => ⟨rfl, Or.inl ?_⟩⟩
    · refine ⟨fun h => absurd h Nat.one_ne_zero, fun h => ?_⟩
      exact absurd hfault ((h.1 d (by rw [hsplit]; simp)).not_fault error)
    · exact ⟨before, d, after, error, hsplit, hbefore, hfault, error.quotes_culprit,
        Check.complains_failure file source (.invalidCommand error) format⟩
  · have houtcome : outcome = _ := report_of_error found decoded hcommands format stdin
    rw [houtcome]
    refine ⟨?_, fun h => absurd h Nat.one_ne_zero, fun _ => ⟨rfl, Or.inr ?_⟩⟩
    · refine ⟨fun h => absurd h Nat.one_ne_zero, fun h => ?_⟩
      have honce := List.nodup_iff_count.1 h.2 duplicate.key
      omega
    · exact ⟨hsound, duplicate, hcount, duplicate.quotes_key,
        Check.complains_failure file source (.duplicateKey duplicate) format⟩
  · have houtcome : outcome = _ := report_of_ok found decoded hcommands format stdin
    rw [houtcome]
    refine ⟨iff_of_true rfl ⟨hsound, hnodup⟩, fun _ => ?_, fun h => absurd rfl h⟩
    refine ⟨_, Check.summarizes_success file cs format, ?_⟩
    rw [List.forall₂_map_right_iff]
    exact hmakes.imp fun d c => Check.Shown.tells_ofCommand

/-- A key that is there twice is not reported if a later alias is no word. -/
theorem check_verdict_late_alias :
    let text := "[\x7b\"key\":\"ping\"\x7d,\x7b\"key\":\"PING\"\x7d," ++
      "\x7b\"key\":\"roll\",\"aliases\":[\"d 6\"]\x7d]"
    let files : String → Except String (List UInt8) := fun _ => .ok text.toUTF8.data.toList
    let roll : Declaration := { key := "roll", aliases := ["d 6"] }
    let outcome := report .json files [] (.check "commands.json")
    files "commands.json" = .ok text.toUTF8.data.toList ∧
      Utf8.decode text.toUTF8.data.toList = .ok text ∧
      Declaration.listOfText? text = some [{ key := "ping" }, { key := "PING" }, roll] ∧
      outcome.exitCode = 1 ∧
      ∃ before d after error, [{ key := "ping" }, { key := "PING" }, roll] = before ++ d :: after ∧
        (∀ earlier ∈ before, earlier.Sound) ∧ d.Fault error ∧
        Quotes error.message error.culprit ∧
        Check.Complains "commands.json" outcome.lines error.message .json := by
  intro text files roll outcome
  have found : files "commands.json" = .ok text.toUTF8.data.toList := rfl
  have declared : Declaration.listOfText? text =
      some [{ key := "ping" }, { key := "PING" }, roll] := by decide +kernel
  obtain ⟨hpasses, -, hfails⟩ := check_verdict found (Utf8.decode_toUTF8 text) declared .json []
  have hbroken : ¬ roll.Sound := by
    intro h
    have hkey : IsKey "d 6" := h.keyed "d 6" (by simp [roll, Declaration.names])
    exact absurd (hkey.2 ' ' (by decide)) (by decide)
  have hexit : outcome.exitCode ≠ 0 := fun h => hbroken ((hpasses.1 h).1 roll (by simp))
  obtain ⟨hone, hfault | ⟨hsound, -⟩⟩ := hfails hexit
  · exact ⟨found, Utf8.decode_toUTF8 text, declared, hone, hfault⟩
  · exact absurd (hsound roll (by simp)) hbroken

end CommandLine

end ChatCommands
