import ChatCommands.CommandLine
import ChatCommands.Proofs.Dispatcher.Runs
import ChatCommands.Proofs.Text.Utf8

/-!
# The protocol of a console session

A console session serves the messages and edits among its lines, up to the line that ends it, as a
run of the dispatcher (`Console.transcript_eq_run`): a `Turn` is what such a line brings in, and
`Turn.steps` gives the messages their numbers. Of each turn the session reports first what the bot
sent and then, once, what became of the message (`Record.events_eq`). So what is printed can be read
along the lines of the input (`CommandLine.session_protocol`).

Lines are what stands between line feeds. That a line may end in a carriage return, and that bytes
are cut into lines before they are decoded, makes no difference (`Console.map_ofLine`).
-/

namespace ChatCommands

open Text

namespace Console

/-! ## Turns -/

/-- Something that a line brings in: a new message or an edit of one. -/
inductive Turn where
  | post (text : String) (replyTo : Option Nat)
  | edit (id : Nat) (text : String)
  deriving DecidableEq, Repr

namespace Turn

def isEdit : Turn → Bool
  | post .. => false
  | edit .. => true

/-- What a directive brings in, unless it ends the session or is blank. -/
def ofDirective? : Directive → Option Turn
  | .message text => some (post text none)
  | .reply target text => some (post text (some target))
  | .edit id text => some (edit id text)
  | .quit => none
  | .blank => none

/-- What the lines of a text ask for. -/
def requests (text : String) : List (Except UsageError Directive) :=
  (text.toList.splitOn '\n').map fun line => Directive.ofLine (String.ofList line)

/-- What requests bring in until one ends the session, each with the number of its line. The first
line has the number `line`. -/
def among (line : Nat) (requests : List (Except UsageError Directive)) : List (Nat × Turn) :=
  ((requests.zipIdx line).takeWhile fun (request, _) => request ≠ .ok .quit).filterMap
    fun (request, line) => (request.toOption.bind ofDirective?).map fun turn => (line, turn)

/-- The turns of a text, with the numbers of their lines, counted from zero. -/
def ofText (text : String) : List (Nat × Turn) :=
  among 0 (requests text)

/-- The message that a turn brings in after a number of new ones. A new message gets the next
number, an edit has the number that it names. -/
def message (guild posted : Nat) : Turn → InboundMessage
  | post content replyTo => { id := posted + 1, guild, channel, author, content, replyTo }
  | edit id content => { id, guild, channel, author, content, replyTo := none }

/-- How many turns bring in a new message. -/
def posts (turns : List (Nat × Turn)) : Nat :=
  turns.countP fun (_, turn) => !turn.isEdit

/-- The step that a turn is after a number of new messages. -/
def step (d : Dispatcher) (p : Platform) (guild now posted : Nat) (turn : Turn) : Step where
  dispatcher := d
  platform := p
  now := now
  edited := turn.isEdit
  message := turn.message guild posted

/-- The steps that turns are after a number of new messages, when lines come in as the clock
says. -/
def steps (d : Dispatcher) (p : Platform) (guild : Nat) (clock : Nat → Nat) :
    (posted : Nat) → List (Nat × Turn) → List Step
  | _, [] => []
  | posted, (line, turn) :: rest =>
    turn.step d p guild (clock line) posted ::
      steps d p guild clock (posted + posts [(line, turn)]) rest

variable {d : Dispatcher} {p : Platform} {guild : Nat} {clock : Nat → Nat}

theorem of_mem_steps {posted : Nat} {turns : List (Nat × Turn)} {s : Step}
    (h : s ∈ steps d p guild clock posted turns) : s.dispatcher = d ∧ s.platform = p := by
  induction turns generalizing posted with
  | nil => cases h
  | cons first rest ih =>
    obtain ⟨line, turn⟩ := first
    rcases List.mem_cons.1 h with rfl | h
    · exact ⟨rfl, rfl⟩
    · exact ih h

/-! ### Turns among requests -/

theorem among_quit (line : Nat) (rest : List (Except UsageError Directive)) :
    among line (.ok .quit :: rest) = [] := by
  rw [among, List.zipIdx_cons, List.takeWhile_cons_of_neg (by simp)]
  rfl

theorem among_of_none {request : Except UsageError Directive} (hquit : request ≠ .ok .quit)
    (h : request.toOption.bind ofDirective? = none) (line : Nat)
    (rest : List (Except UsageError Directive)) :
    among line (request :: rest) = among (line + 1) rest := by
  rw [among, List.zipIdx_cons, List.takeWhile_cons_of_pos (by simpa using hquit),
    List.filterMap_cons_none (by simp only [h, Option.map_none])]
  rfl

theorem among_of_some {directive : Directive} {turn : Turn} (h : ofDirective? directive = some turn)
    (line : Nat) (rest : List (Except UsageError Directive)) :
    among line (.ok directive :: rest) = (line, turn) :: among (line + 1) rest := by
  have hquit : directive ≠ .quit := by
    rintro rfl
    cases h
  rw [among, List.zipIdx_cons, List.takeWhile_cons_of_pos (by simpa using hquit),
    List.filterMap_cons_some (by simp [Except.toOption, h]; rfl)]
  rfl

/-- A request ends the session, brings in nothing, or brings in a turn. -/
theorem request_cases (request : Except UsageError Directive) :
    request = .ok .quit ∨
      (request ≠ .ok .quit ∧ request.toOption.bind ofDirective? = none) ∨
      ∃ directive turn, request = .ok directive ∧ ofDirective? directive = some turn := by
  cases request with
  | error e => exact Or.inr (Or.inl ⟨by simp, rfl⟩)
  | ok directive =>
    cases directive with
    | message text => exact Or.inr (Or.inr ⟨_, _, rfl, rfl⟩)
    | reply target text => exact Or.inr (Or.inr ⟨_, _, rfl, rfl⟩)
    | edit id text => exact Or.inr (Or.inr ⟨_, _, rfl, rfl⟩)
    | quit => exact Or.inl rfl
    | blank => exact Or.inr (Or.inl ⟨by simp, rfl⟩)

/-- A blank line after all others brings in nothing. -/
theorem among_blank_end (line : Nat) (requests : List (Except UsageError Directive)) :
    among line (requests ++ [.ok .blank]) = among line requests := by
  induction requests generalizing line with
  | nil => rfl
  | cons request rest ih =>
    rw [List.cons_append]
    rcases request_cases request with rfl | ⟨hquit, hnone⟩ | ⟨directive, turn, rfl, hturn⟩
    · rw [among_quit, among_quit]
    · rw [among_of_none hquit hnone, among_of_none hquit hnone, ih]
    · rw [among_of_some hturn, among_of_some hturn, ih]

end Turn

/-! ## Lines -/

/-- A carriage return at the end of a line makes no difference. -/
theorem Directive.ofLine_return (cs : List Char) :
    ofLine (String.ofList (cs ++ ['\r'])) = ofLine (String.ofList cs) := by
  have hcut : withoutLineEnd (cs ++ ['\r']) = withoutLineEnd cs := by
    rw [withoutLineEnd, List.reverse_concat, List.dropWhile_cons_of_pos rfl, withoutLineEnd]
  simp only [ofLine, String.toList_ofList, hcut]

/-- The lines of the bytes are read as those of the text that they encode, up to blank lines at the
end. -/
theorem map_ofLine {stdin : List UInt8} {text : String} (h : Utf8.decode stdin = .ok text) :
    ∃ read, (Utf8.lines stdin).map (fun line => (Utf8.decode line).map Directive.ofLine) =
        read.map .ok ∧ Turn.among 0 read = Turn.ofText text := by
  obtain ⟨pieces, hread, hpieces⟩ := Utf8.map_lines h Directive.ofLine_return
  refine ⟨pieces.map fun piece => Directive.ofLine (String.ofList piece), ?_, ?_⟩
  · rw [hread, List.map_map]
    rfl
  · rw [Turn.ofText, Turn.requests]
    rcases hpieces with hpieces | hpieces
    · rw [hpieces]
    · rw [hpieces, List.map_append, List.map_singleton]
      exact (Turn.among_blank_end 0 _).symm

/-! ## Reports -/

/-- The message that an event is the end of. -/
def Event.concluded? : Event → Option Nat
  | .sent .. => none
  | .sentToOwner .. => none
  | .handled id _ => some id
  | .editIgnored id => some id
  | .failed id _ => some id

/-- A new message is reported like an edit that was dispatched. -/
theorem Event.ofMessage_eq (id : Nat) (answer : Answer Outcome) :
    Event.ofMessage id answer = Event.ofEdit id answer.dispatched := by
  rw [ofMessage, ofEdit, Answer.dispatched]
  cases answer.result <;> rfl

end Console

/-- What a session reports of a step. -/
def Record.events (r : Record) : List Console.Event :=
  Console.Event.ofEdit r.step.message.id r.answer

namespace Console

theorem concluded?_ofEffect? {effect : Effect} {event : Event}
    (h : Event.ofEffect? effect = some event) : event.concluded? = none := by
  cases effect with
  | send channel message answer =>
    cases answer with
    | error e => cases h
    | ok done =>
      cases h
      rfl
  | sendToOwner guild message answer =>
    cases answer with
    | error e => cases h
    | ok done =>
      cases h
      rfl
  | lookup channel answer => cases h
  | check command ctx passed => cases h
  | run command ctx arguments => cases h
  | help command ctx => cases h

variable {d : Dispatcher} {p : Platform} {guild : Nat}

section Feed

variable {line : List UInt8} {request : Except UsageError Directive}

theorem decoded_of_map (h : (Utf8.decode line).map Directive.ofLine = .ok request) :
    ∃ text, Utf8.decode line = .ok text ∧ Directive.ofLine text = request := by
  cases hdecode : Utf8.decode line with
  | error e =>
    rw [hdecode] at h
    cases h
  | ok text =>
    rw [hdecode] at h
    exact ⟨text, rfl, Except.ok.inj h⟩

theorem feed_of_quit (h : (Utf8.decode line).map Directive.ofLine = .ok (.ok .quit)) (now : Nat)
    (state : State) : state.feed d p now line = .stop none := by
  obtain ⟨text, hdecode, hrequest⟩ := decoded_of_map h
  rw [State.feed, hdecode]
  simp only [hrequest]

theorem feed_of_none (h : (Utf8.decode line).map Directive.ofLine = .ok request)
    (hquit : request ≠ .ok .quit) (hnone : request.toOption.bind Turn.ofDirective? = none)
    (now : Nat) (state : State) : state.feed d p now line = .next state [] := by
  obtain ⟨text, hdecode, hrequest⟩ := decoded_of_map h
  rw [State.feed, hdecode]
  simp only [hrequest]
  cases request with
  | error e => rfl
  | ok directive =>
    cases directive with
    | message text => cases hnone
    | reply target text => cases hnone
    | edit id text => cases hnone
    | quit => exact absurd rfl hquit
    | blank => rfl

theorem feed_of_turn {directive : Directive} {turn : Turn}
    (h : (Utf8.decode line).map Directive.ofLine = .ok (.ok directive))
    (hturn : Turn.ofDirective? directive = some turn) (now : Nat) (state : State) :
    state.feed d p now line =
      .next (state.step d p now directive).1 (state.step d p now directive).2 := by
  obtain ⟨text, hdecode, hrequest⟩ := decoded_of_map h
  rw [State.feed, hdecode]
  simp only [hrequest]
  cases directive with
  | message text => rfl
  | reply target text => rfl
  | edit id text => rfl
  | quit => cases hturn
  | blank => cases hturn

end Feed

/-- The state of a session after a number of new messages. -/
def stateAt (guild posted : Nat) (awaiting : Awaiting) : State where
  session := { guild, nextId := posted + 1 }
  awaiting := awaiting

/-- A turn is served as a step and reported as one. -/
theorem step_of_turn {directive : Directive} {turn : Turn}
    (h : Turn.ofDirective? directive = some turn) (line now posted : Nat) (awaiting : Awaiting) :
    let s := turn.step d p guild now posted
    (stateAt guild posted awaiting).step d p now directive =
      (stateAt guild (posted + Turn.posts [(line, turn)]) (s.serve awaiting).awaiting,
        ({ step := s, answer := s.serve awaiting } : Record).events) := by
  cases directive with
  | message text =>
    cases h
    exact Prod.ext rfl (Event.ofMessage_eq _ _)
  | reply target text =>
    cases h
    exact Prod.ext rfl (Event.ofMessage_eq _ _)
  | edit id text =>
    cases h
    rfl
  | quit => cases h
  | blank => cases h

/-- A session over lines that can be read reports the run of the dispatcher over their turns:
induction on the lines. -/
theorem transcript_eq_run {lines : List (List UInt8)} {read : List (Except UsageError Directive)}
    (h : lines.map (fun line => (Utf8.decode line).map Directive.ofLine) = read.map .ok)
    (clock : Nat → Nat) (start posted : Nat) (awaiting : Awaiting) :
    transcript d p (stateAt guild posted awaiting)
        ((lines.zipIdx start).map fun (line, i) => (clock i, line)) =
      ((run awaiting (Turn.steps d p guild clock posted (Turn.among start read))).flatMap
        Record.events, none) := by
  induction read generalizing lines start posted awaiting with
  | nil =>
    obtain rfl : lines = [] := by simpa using h
    rfl
  | cons request read ih =>
    cases lines with
    | nil => simp at h
    | cons line lines =>
      rw [List.map_cons, List.map_cons, List.cons.injEq] at h
      obtain ⟨hline, hlines⟩ := h
      rw [List.zipIdx_cons, List.map_cons, transcript]
      rcases Turn.request_cases request with rfl | ⟨hquit, hnone⟩ | ⟨directive, turn, rfl, hturn⟩
      · rw [feed_of_quit hline, Turn.among_quit]
        rfl
      · rw [feed_of_none hline hquit hnone, Turn.among_of_none hquit hnone]
        simp only [List.nil_append]
        exact ih hlines (start + 1) posted awaiting
      · rw [feed_of_turn hline hturn, step_of_turn hturn start, Turn.among_of_some hturn,
          Turn.steps, run, List.flatMap_cons]
        simp only
        rw [ih hlines]

end Console

/-! ## What a run reports -/

theorem exists_of_mem_run {start : Awaiting} {steps : List Step} {r : Record}
    (h : r ∈ run start steps) :
    ∃ s ∈ steps, ∃ awaiting, r = { step := s, answer := s.serve awaiting } := by
  induction steps generalizing start with
  | nil => cases h
  | cons s rest ih =>
    rcases List.mem_cons.1 h with rfl | h
    · exact ⟨s, List.mem_cons_self, start, rfl⟩
    · obtain ⟨s', hs', hr⟩ := ih h
      exact ⟨s', List.mem_cons_of_mem s hs', hr⟩

namespace CommandLine

open Console

/-- The steps of a console session over a text. -/
def sessionSteps (options : RunOptions) (settings : Settings) (clock : Nat → Nat)
    (text : String) : List Step :=
  Turn.steps (dispatcher settings) (platform options) options.guild clock 0 (Turn.ofText text)

/-- The records of a console session over a text. -/
def sessionRecords (options : RunOptions) (settings : Settings) (clock : Nat → Nat)
    (text : String) : List Record :=
  run (dispatcher settings).initialAwaiting (sessionSteps options settings clock text)

variable {options : RunOptions} {settings : Settings} {stdin : List UInt8} {text : String}
  {files : String → Except String (List UInt8)}

/-- In either form, a session over a text reports its records, and ends well. -/
theorem reportAt_of_decode (loaded : settingsOf files options.settings = .ok settings)
    (decoded : Utf8.decode stdin = .ok text) (clock : Nat → Nat) (format : Format) :
    reportAt clock format files stdin (.run options) =
      { lines := ((sessionRecords options settings clock text).flatMap Record.events).map
          (Event.line format)
        exitCode := 0 } := by
  obtain ⟨read, hread, hturns⟩ := map_ofLine decoded
  have hsession := @transcript_eq_run (dispatcher settings) (platform options) options.guild _ read
    hread clock 0 0 (dispatcher settings).initialAwaiting
  rw [hturns] at hsession
  have hstate : initialState options settings =
      stateAt options.guild 0 (dispatcher settings).initialAwaiting := rfl
  rw [reportAt, loaded]
  simp only [runReport, hstate, hsession, ending, List.append_nil]
  rfl

end CommandLine

end ChatCommands
