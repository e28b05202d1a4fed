import ChatCommands.Proofs.Console.Labels
import ChatCommands.Proofs.Json.RoundTrip

/-!
# The two forms of a session

A session that is reported as JSON and one that is reported to people dispatch the same messages
(`CommandLine.formats_agree`). What people see can be read from the documents alone: `Event.chat?`
is what a document says on standard output, and `Event.label?` the line that it stands for on
standard error. Both rest on documents being read back (`Outcome.ofJson?_toJson`,
`OutboundMessage.ofJson?_toJson`).
-/

namespace ChatCommands

open Json Text

/-! ## Reading documents -/

/-- The digits of a number. -/
def Json.numeral? : Json → Option String
  | .number numeral => some (String.ofList numeral)
  | _ => none

theorem Json.numeral?_ofNat (n : Nat) : numeral? (ofNat n) = some (toString n) := by
  rw [ofNat, numeral?, String.ofList_toList]

/-- The outcome that a document is about. -/
def Outcome.ofJson? (json : Json) : Option Outcome := do
  let [name, key, suggestion, missing, shown] ←
    json.fields? ["outcome", "key", "suggestion", "missing", "shown"] | none
  match ← required? text? name with
  | "not_command" => return .notCommand
  | "completed" => return .completed (← required? text? key)
  | "unknown_command" =>
    return .unknownCommand (← required? text? key) (← required? (nullable? text?) suggestion)
  | "too_few_arguments" => return .wrongArguments (← required? text? key) .tooFewArguments
  | "too_many_arguments" => return .wrongArguments (← required? text? key) .tooManyArguments
  | "permission_denied" =>
    return .permissionDenied (← required? text? key) (← required? (list? text?) missing)
  | "help_requested" => return .helpRequested (← required? text? key) (← required? bool? shown)
  | "precondition_failed" => return .preconditionFailed (← required? text? key)
  | _ => none

/-- The fields of a document about an outcome: its name, and what it has besides. -/
theorem Outcome.fields?_toJson (o : Outcome) :
    o.toJson.fields? ["outcome", "key", "suggestion", "missing", "shown"] =
      some (some (ofString o.name) ::
        ["key", "suggestion", "missing", "shown"].map fun name => o.details.lookup name) := by
  rw [toJson, fields?_ofMembers]
  cases o <;> rfl

theorem Outcome.ofJson?_toJson (o : Outcome) : Outcome.ofJson? o.toJson = some o := by
  rw [ofJson?, fields?_toJson]
  cases o with
  | notCommand => simp [name, required?]
  | completed key => simp [name, details, required?]
  | unknownCommand key suggestion =>
    cases suggestion with
    | none => simp [name, details, required?, nullable?, List.lookup_cons]
    | some suggestion => simp [name, details, required?, List.lookup_cons]
  | wrongArguments key error =>
    cases error with
    | tooFewArguments => simp [name, details, required?]
    | tooManyArguments => simp [name, details, required?]
  | permissionDenied key missing => simp [name, details, required?, List.lookup_cons]
  | helpRequested key shown => simp [name, details, required?, bool?, List.lookup_cons]
  | preconditionFailed key => simp [name, details, required?]

namespace Console.Event

/-- What people are shown of an event, read from its document: a message on standard output, or on
standard error what became of one, after its number. -/
def shown? (json : Json) : Option Line := do
  let [event, guild, message, outcome, error] ←
    json.fields? ["event", "guild", "message", "outcome", "error"] | none
  match ← required? text? event with
  | "send" => return .out (← required? OutboundMessage.ofJson? message).shown
  | "dm" =>
    let guild ← required? numeral? guild
    let message ← required? OutboundMessage.ofJson? message
    return .out ("(dm to owner of guild " ++ guild ++ ") " ++ message.shown)
  | "outcome" =>
    let id ← required? numeral? message
    let outcome ← required? Outcome.ofJson? outcome
    return .err ("#" ++ id ++ " " ++ outcome.label)
  | "edit_ignored" => return .err ("#" ++ (← required? numeral? message) ++ " edit ignored")
  | "failure" =>
    let id ← required? numeral? message
    let error ← required? text? error
    return .err ("#" ++ id ++ " failed: " ++ error)
  | _ => none

/-- What a document says on standard output. -/
def chat? (json : Json) : Option String :=
  (shown? json).bind Line.onOutput?

/-- What a document says on standard error. -/
def label? (json : Json) : Option String :=
  (shown? json).bind Line.onError?

/-- The fields that are read from the document of an event. -/
def fields : Event → List (Option Json)
  | sent _ message => [ofString "send", none, message.toJson, none, none]
  | sentToOwner guild message => [ofString "dm", ofNat guild, message.toJson, none, none]
  | handled id outcome => [ofString "outcome", none, ofNat id, outcome.toJson, none]
  | editIgnored id => [ofString "edit_ignored", none, ofNat id, none, none]
  | failed id error => [ofString "failure", none, ofNat id, none, ofString error.message]

theorem fields?_toJson (event : Event) :
    event.toJson.fields? ["event", "guild", "message", "outcome", "error"] =
      some event.fields := by
  cases event <;> exact fields?_ofMembers _ _

/-- What people are shown of an event is what its document says. -/
theorem shown?_toJson (event : Event) : shown? event.toJson = some event.shown := by
  rw [shown?, fields?_toJson]
  cases event with
  | sent channel message =>
    simp [fields, required?, OutboundMessage.ofJson?_toJson, shown]
  | sentToOwner guild message =>
    have hshown : (sentToOwner guild message).shown =
        .out ("(dm to owner of guild " ++ toString guild ++ ") " ++ message.shown) := rfl
    simp [fields, required?, OutboundMessage.ofJson?_toJson, numeral?_ofNat, hshown]
  | handled id outcome =>
    have hshown : (handled id outcome).shown =
        .err ("#" ++ toString id ++ " " ++ outcome.label) := rfl
    simp [fields, required?, Outcome.ofJson?_toJson, numeral?_ofNat, hshown]
  | editIgnored id =>
    have hshown : (editIgnored id).shown = .err ("#" ++ toString id ++ " edit ignored") := rfl
    simp [fields, required?, numeral?_ofNat, hshown]
  | failed id error =>
    have hshown : (failed id error).shown =
        .err ("#" ++ toString id ++ " failed: " ++ error.message) := rfl
    simp [fields, required?, numeral?_ofNat, hshown]

theorem chat?_toJson (event : Event) : chat? event.toJson = event.shown.onOutput? := by
  rw [chat?, shown?_toJson, Option.bind_some]

theorem label?_toJson (event : Event) : label? event.toJson = event.shown.onError? := by
  rw [label?, shown?_toJson, Option.bind_some]

end Console.Event

/-! ## What is printed -/

/-- Texts that are printed one after the other, each with a line end. -/
def printed (texts : List String) : List Char :=
  texts.flatMap fun text => text.toList ++ ['\n']

/-- The lines of a text that start with a number sign. -/
def numberedLines (text : List Char) : List (List Char) :=
  (text.splitOn '\n').filter fun line => line.head? = some '#'

theorem splitOn_printed {texts : List String} (h : ∀ text ∈ texts, OneLine text) :
    (printed texts).splitOn '\n' = texts.map String.toList ++ [[]] := by
  induction texts with
  | nil => rfl
  | cons text texts ih =>
    have hline : '\n' ∉ text.toList := h text List.mem_cons_self
    have hrest := ih fun t ht => h t (List.mem_cons_of_mem text ht)
    rw [printed, List.flatMap_cons, List.append_assoc, List.singleton_append,
      List.splitOn_append_cons_self_of_not_mem hline, ← printed, hrest]
    rfl

/-- Printed lines that start with a number sign can be told apart again. -/
theorem numberedLines_printed {texts : List String}
    (h : ∀ text ∈ texts, OneLine text ∧ text.toList.head? = some '#') :
    numberedLines (printed texts) = texts.map String.toList := by
  rw [numberedLines, splitOn_printed fun text htext => (h text htext).1, List.filter_append,
    List.filter_eq_self.2]
  · exact List.append_nil _
  · intro line hline
    obtain ⟨text, htext, rfl⟩ := List.mem_map.1 hline
    exact decide_eq_true (h text htext).2

namespace CommandLine

open Console

namespace Report

/-- The documents that are printed. -/
def documents (r : Report) : List Json :=
  r.lines.filterMap fun
    | .document json => some json
    | _ => none

/-- What is printed on standard output. -/
def output (r : Report) : List Char :=
  printed (r.lines.filterMap Line.onOutput?)

/-- What is printed on standard error. -/
def errors (r : Report) : List Char :=
  printed (r.lines.filterMap Line.onError?)

end Report

variable {options : RunOptions} {settings : Settings} {stdin : List UInt8} {text : String}
  {files : String → Except String (List UInt8)}

/-- **The two forms agree**: the same session, reported as JSON and to people, dispatches the same
messages. Both exit with zero. The one prints only documents, and what the other prints can be read
from these: standard output holds exactly the messages that were sent, and the lines of standard
error that start with a number say what became of each message, in the same order. -/
theorem formats_agree (loaded : settingsOf files options.settings = .ok settings)
    (decoded : Utf8.decode stdin = .ok text) (clock : Nat → Nat) :
    let json := reportAt clock .json files stdin (.run options)
    let pretty := reportAt clock .pretty files stdin (.run options)
    json.exitCode = 0 ∧ pretty.exitCode = 0 ∧
    json.lines = json.documents.map .document ∧
    pretty.lines.map some = json.documents.map Event.shown? ∧
    pretty.output = printed (json.documents.filterMap Event.chat?) ∧
    numberedLines pretty.errors = (json.documents.filterMap Event.label?).map String.toList := by
  intro json pretty
  have hjson : json = _ := reportAt_of_decode loaded decoded clock .json
  have hpretty : pretty = _ := reportAt_of_decode loaded decoded clock .pretty
  generalize hevents :
    (sessionRecords options settings clock text).flatMap Record.events = events at hjson hpretty
  have hdocuments : json.documents = events.map Event.toJson := by
    rw [hjson, Report.documents, List.filterMap_map, ← List.filterMap_eq_map]
    rfl
  have hchat : json.documents.filterMap Event.chat? =
      pretty.lines.filterMap Line.onOutput? := by
    rw [hdocuments, hpretty, List.filterMap_map, List.filterMap_map]
    exact List.filterMap_congr fun event _ => Event.chat?_toJson event
  have hlabel : json.documents.filterMap Event.label? =
      pretty.lines.filterMap Line.onError? := by
    rw [hdocuments, hpretty, List.filterMap_map, List.filterMap_map]
    exact List.filterMap_congr fun event _ => Event.label?_toJson event
  refine ⟨by rw [hjson], by rw [hpretty], ?_, ?_, ?_, ?_⟩
  · rw [hdocuments, hjson, List.map_map]
    rfl
  · rw [hdocuments, hpretty, List.map_map, List.map_map]
    exact List.map_congr_left fun event _ => (Event.shown?_toJson event).symm
  · rw [hchat, Report.output]
  · rw [hlabel, Report.errors]
    refine numberedLines_printed ?_
    intro label hmem
    rw [hpretty, List.filterMap_map] at hmem
    obtain ⟨event, hevent, hshown⟩ := List.mem_filterMap.1 hmem
    rw [← hevents] at hevent
    exact oneLine_shown hevent hshown

theorem formats_agree_echoed :
    let text := "!echo hi\n:edit 7 !ping\nhello\n"
    let report := fun format => reportAt (fun line => 500 * line) format (fun _ => .error "")
      text.toUTF8.data.toList (.run { guild := 3 })
    settingsOf (fun _ => .error "") none = .ok {} ∧
      Utf8.decode text.toUTF8.data.toList = .ok text ∧
      (report .json).exitCode = 0 ∧ (report .pretty).exitCode = 0 ∧
      ((report .json).documents.filterMap Event.chat? = ["hi"] ∧
        (report .json).documents.filterMap Event.label? =
          ["#1 echo: completed", "#7 edit ignored", "#2 not a command"]) ∧
      (report .pretty).output = printed ((report .json).documents.filterMap Event.chat?) ∧
      numberedLines (report .pretty).errors =
        ((report .json).documents.filterMap Event.label?).map String.toList := by
  intro text report
  have loaded : settingsOf (fun _ => .error "") (RunOptions.settings { guild := 3 }) = .ok {} := rfl
  obtain ⟨hjson, hpretty, -, -, houtput, herrors⟩ :=
    formats_agree loaded (Utf8.decode_toUTF8 text) fun line => 500 * line
  exact ⟨rfl, Utf8.decode_toUTF8 text, hjson, hpretty, by decide +kernel, houtput, herrors⟩

end CommandLine

end ChatCommands
