/-
The capture hooks on documents (`src/querypie/session-pause.ts`, `src/querypie/null-session-pause.ts`): what each of
the two classes does with a wire message and with a command. The methods look for an ignorable command at different
levels: the hook of a session tests the message and not the command in it, and the hook without a session takes the
`command` field of a command for the command. Over the documents the methods of a session are those of
`Querypie.Pause`.
-/
import MongoDriver.Base.Value
import MongoDriver.Querypie.Pause

namespace MongoDriver.Querypie

open Js

/-! ## Wire messages -/

/-- The fields that the constructors of the messages assign (`src/cmap/commands.ts`). -/
def Query.fields : List String :=
  ["ns", "query", "numberToSkip", "numberToReturn", "returnFieldSelector", "requestId", "pre32Limit",
    "serializeFunctions", "ignoreUndefined", "maxBsonSize", "checkKeys", "batchSize", "tailable", "secondaryOk",
    "oplogReplay", "noCursorTimeout", "awaitData", "exhaust", "partial"]

def Msg.fields : List String :=
  ["ns", "command", "options", "requestId", "serializeFunctions", "ignoreUndefined", "checkKeys", "maxBsonSize",
    "checksumPresent", "moreToCome", "exhaustAllowed"]

def GetMore.fields : List String := ["numberToReturn", "requestId", "ns", "cursorId"]

def KillCursor.fields : List String := ["ns", "requestId", "cursorIds"]

/-- `WriteProtocolMessageType`: the document that a `Query` or a `Msg` wraps, which their constructors require, and the
values of the other fields. -/
inductive WriteProtocolMessageType
  | query (query : Document) (value : String → Value)
  | msg (command : Document) (value : String → Value)
  | getMore (value : String → Value)
  | killCursor (value : String → Value)

/-- The message as an object. -/
def WriteProtocolMessageType.object : WriteProtocolMessageType → Document
  | query document value =>
    .ofFields Query.fields fun key => if key = "query" then .object document else value key
  | msg document value =>
    .ofFields Msg.fields fun key => if key = "command" then .object document else value key
  | getMore value => .ofFields GetMore.fields value
  | killCursor value => .ofFields KillCursor.fields value

/-! ## The hooks of a session -/

section Hooks

variable (kNoPause : String) (s : QpPause Value) (session id : String) (phase : QpPausePhase)

namespace QpSessionPause

def isCommandIgnorable (command : Document) : Bool := ignorables.any fun ignorable => (command.get ignorable).isNumber 1

/-- The context is queued and the listeners are registered. -/
def pause (command : Value) (result : Option Value) : QpPause Value :=
  s.pause { hook := .waitOnCommand command, session, id, phase, result } command

def waitOnProtocol (command commandOptions : Document) (result : Option Value) : Except String (QpPause Value) :=
  if (commandOptions.get kNoPause).truthy then .ok (s.pass result)
  else if !s.isCommandCapturing then .ok (s.pass result)
  else if command.has "cursorId" then .ok (s.pass result)
  else if command.has "cursorIds" then .ok (s.pass result)
  else if command.has "query" then .ok (s.pass result)
  else if command.has "command" then
    if isCommandIgnorable command then .ok (s.pass result)
    else .ok (pause s session id phase (command.get "command") result)
  else .error "Invalid protocol"

def waitOnCommand (command commandOptions : Document) (result : Option Value) : Except String (QpPause Value) :=
  if (commandOptions.get kNoPause).truthy then .ok (s.pass none)
  else if !s.isCommandCapturing then .ok (s.pass none)
  else if isCommandIgnorable command then .ok (s.pass none)
  else .ok (pause s session id phase (.object command) result)

end QpSessionPause

/-! ## The hooks without a session -/

namespace QpNullSessionPause

def emptyIgnorables : List String :=
  ["saslStart", "authenticate", "saslContinue", "getnonce", "createUser", "updateUser", "copydbgetnonce",
    "copydbsaslstart", "copydb", "ismaster", "ping"]

def isCommandIgnorableInEmptyBus (command : Value) : Except String Bool := do
  match ← command.keys with
  | [] => return false
  | firstKey :: _ =>
    if firstKey ∉ emptyIgnorables then return false
    else return (← command.member firstKey).truthy

def isQueryIgnorable (command : Document) : Except String Bool := do
  return (← (command.get "query").member "ismaster").truthy

def waitOnProtocol (command commandOptions : Document) (result : Option Value) : Except String (QpPause Value) :=
  if (commandOptions.get kNoPause).truthy then .ok (s.pass result)
  else if !s.isCommandCapturing then .ok (s.pass result)
  else if command.has "cursorId" then .ok (s.pass result)
  else if command.has "cursorIds" then .ok (s.pass result)
  else if command.has "query" then do
    -- an ignorable query and one that is not differ by a warning only
    let _ ← isQueryIgnorable command
    return s.pass result
  else do
    let _ ← isCommandIgnorableInEmptyBus (command.get "command")
    return s.pass result

def waitOnCommand (command commandOptions : Document) : Except String (QpPause Value) :=
  if (commandOptions.get kNoPause).truthy then .ok (s.pass none)
  else if !s.isCommandCapturing then .ok (s.pass none)
  else do
    let _ ← isCommandIgnorableInEmptyBus (command.get "command")
    return s.pass none

end QpNullSessionPause

end Hooks

/-! ## The fields of a message -/

namespace WriteProtocolMessageType

variable {document : Document} {value : String → Value} {key : String}

theorem has_query : (query document value).object.has key = decide (key ∈ Query.fields) := Document.has_ofFields

theorem has_msg : (msg document value).object.has key = decide (key ∈ Msg.fields) := Document.has_ofFields

theorem has_getMore : (getMore value).object.has key = decide (key ∈ GetMore.fields) := Document.has_ofFields

theorem has_killCursor : (killCursor value).object.has key = decide (key ∈ KillCursor.fields) := Document.has_ofFields

theorem get_query : (query document value).object.get "query" = .object document := by
  have hmem : "query" ∈ Query.fields := by decide
  exact (Document.get_ofFields hmem).trans (if_pos rfl)

theorem get_command : (msg document value).object.get "command" = .object document := by
  have hmem : "command" ∈ Msg.fields := by decide
  exact (Document.get_ofFields hmem).trans (if_pos rfl)

/-- No field of a message has the name of an ignorable command. -/
theorem not_ignorable : QpSessionPause.isCommandIgnorable (msg document value).object = false := by
  unfold QpSessionPause.isCommandIgnorable
  rw [List.any_eq_false]
  intro ignorable hmem
  have hfield : ignorable ∉ Msg.fields := by
    obtain rfl := List.mem_singleton.1 hmem
    decide
  have hget : (msg document value).object.get ignorable = .undefined := Document.get_ofFields_undefined hfield
  rw [hget]
  simp [Value.isNumber]

end WriteProtocolMessageType

/-! ## What the hooks do -/

section Hooks

variable {kNoPause : String} {s : QpPause Value} {session id : String} {phase : QpPausePhase}
variable {command commandOptions : Document} {result : Option Value}

/-- The hooks leave a call alone: its options say so, or nothing is captured. -/
def Uncaptured (kNoPause : String) (s : QpPause Value) (commandOptions : Document) : Prop :=
  (commandOptions.get kNoPause).truthy = true ∨ s.isCommandCapturing = false

theorem Uncaptured.left_alone (h : Uncaptured kNoPause s commandOptions) :
    ((commandOptions.get kNoPause).truthy || !s.isCommandCapturing) = true := by
  rcases h with h | h
  · rw [h, Bool.true_or]
  · rw [h, Bool.not_false, Bool.or_true]

/-- The hook queues the context. -/
def Pauses (s : QpPause Value) (outcome : Except String (QpPause Value)) (c : QpPauseContext Value) : Prop :=
  ∃ t, outcome = .ok t ∧ t.queue = s.queue ++ [c]

/-- The hook calls back, once, and does nothing else. -/
def CallsBackOnce (s : QpPause Value) (outcome : Except String (QpPause Value)) : Prop :=
  ∃ result, outcome = .ok (s.pass result)

theorem not_pauses_pass (c : QpPauseContext Value) : ¬ Pauses s (.ok (s.pass result)) c := by
  rintro ⟨t, ht, hqueue⟩
  cases ht
  have hlen := congrArg List.length hqueue
  simp [QpPause.pass] at hlen

theorem pauses_pause {c : QpPauseContext Value} {v : Value} :
    Pauses s (.ok (QpSessionPause.pause s session id phase v result)) c ↔
      c = ⟨s.next, id, session, phase, v, result⟩ := by
  constructor
  · rintro ⟨t, ht, hqueue⟩
    cases ht
    exact (List.singleton_inj.1 (List.append_cancel_left hqueue)).symm
  · rintro rfl
    exact ⟨_, rfl, rfl⟩

namespace QpSessionPause

theorem waitOnProtocol_uncaptured (h : Uncaptured kNoPause s commandOptions) :
    waitOnProtocol kNoPause s session id phase command commandOptions result = .ok (s.pass result) := by
  unfold waitOnProtocol
  by_cases hoption : (commandOptions.get kNoPause).truthy = true
  · rw [if_pos hoption]
  · have hcapturing := h.resolve_left hoption
    rw [if_neg hoption, hcapturing]
    rfl

theorem waitOnCommand_uncaptured (h : Uncaptured kNoPause s commandOptions) :
    waitOnCommand kNoPause s session id phase command commandOptions result = .ok (s.pass none) := by
  unfold waitOnCommand
  by_cases hoption : (commandOptions.get kNoPause).truthy = true
  · rw [if_pos hoption]
  · have hcapturing := h.resolve_left hoption
    rw [if_neg hoption, hcapturing]
    rfl

theorem waitOnProtocol_msg {value : String → Value} (h : ¬ Uncaptured kNoPause s commandOptions) :
    waitOnProtocol kNoPause s session id phase (WriteProtocolMessageType.msg command value).object commandOptions
      result = .ok (pause s session id phase (.object command) result) := by
  obtain ⟨hoption, hcapturing⟩ := not_or.1 h
  rw [Bool.not_eq_false] at hcapturing
  unfold waitOnProtocol
  rw [if_neg hoption, hcapturing]
  simp only [WriteProtocolMessageType.has_msg, WriteProtocolMessageType.not_ignorable,
    WriteProtocolMessageType.get_command]
  rfl

theorem waitOnCommand_captured (h : ¬ Uncaptured kNoPause s commandOptions) :
    waitOnCommand kNoPause s session id phase command commandOptions result =
      if isCommandIgnorable command then .ok (s.pass none)
      else .ok (pause s session id phase (.object command) result) := by
  obtain ⟨hoption, hcapturing⟩ := not_or.1 h
  rw [Bool.not_eq_false] at hcapturing
  unfold waitOnCommand
  rw [if_neg hoption, hcapturing]
  rfl

theorem isCommandIgnorable_iff : isCommandIgnorable command = true ↔ (command.get "ping").isNumber 1 = true := by
  simp [isCommandIgnorable, ignorables]

/-- The hooks agree on calls that are left alone, and otherwise on commands that are not ignorable. -/
theorem agree_iff (value : String → Value) :
    (∀ c, Pauses s (waitOnProtocol kNoPause s session id phase
          (WriteProtocolMessageType.msg command value).object commandOptions result) c ↔
        Pauses s (waitOnCommand kNoPause s session id phase command commandOptions result) c) ↔
      Uncaptured kNoPause s commandOptions ∨ (command.get "ping").isNumber 1 = false := by
  by_cases h : Uncaptured kNoPause s commandOptions
  · rw [waitOnProtocol_uncaptured h, waitOnCommand_uncaptured h]
    exact iff_of_true (fun c => iff_of_false (not_pauses_pass c) (not_pauses_pass c)) (.inl h)
  · rw [waitOnProtocol_msg h, waitOnCommand_captured h, or_iff_right h, ← Bool.not_eq_true, ← isCommandIgnorable_iff]
    by_cases hignorable : isCommandIgnorable command = true
    · rw [if_pos hignorable]
      refine iff_of_false (fun hagree => ?_) (fun hnot => hnot hignorable)
      exact not_pauses_pass _ ((hagree _).1 (pauses_pause.2 rfl))
    · rw [if_neg hignorable]
      exact iff_of_true (fun _ => Iff.rfl) hignorable

end QpSessionPause

namespace QpNullSessionPause

theorem isCommandIgnorableInEmptyBus_ok {v : Value} (h : v.hasProperties = true) :
    ∃ b, isCommandIgnorableInEmptyBus v = .ok b := by
  obtain ⟨keys, hkeys⟩ := Value.keys_ok h
  unfold isCommandIgnorableInEmptyBus
  rw [hkeys]
  cases keys with
  | nil => exact ⟨false, rfl⟩
  | cons firstKey rest =>
    obtain ⟨w, hw⟩ := Value.member_ok h firstKey
    by_cases hmem : firstKey ∈ emptyIgnorables
    · exact ⟨w.truthy, by simp [bind, Except.bind, pure, Except.pure, hmem, hw]⟩
    · exact ⟨false, by simp [bind, Except.bind, pure, Except.pure, hmem]⟩

theorem isCommandIgnorableInEmptyBus_error {v : Value} (h : v.hasProperties = false) :
    isCommandIgnorableInEmptyBus v = .error "TypeError" := by
  unfold isCommandIgnorableInEmptyBus
  rw [Value.keys_error h]
  rfl

/-- Whatever the message, the call goes on at once. -/
theorem waitOnProtocol_calls_back (message : WriteProtocolMessageType) :
    CallsBackOnce s (waitOnProtocol kNoPause s message.object commandOptions result) := by
  refine ⟨result, ?_⟩
  unfold waitOnProtocol
  by_cases hoption : (commandOptions.get kNoPause).truthy = true
  · rw [if_pos hoption]
  · rw [if_neg hoption]
    cases hcapturing : s.isCommandCapturing with
    | false => rfl
    | true =>
      cases message with
      | getMore value =>
        simp only [WriteProtocolMessageType.has_getMore]
        rfl
      | killCursor value =>
        simp only [WriteProtocolMessageType.has_killCursor]
        rfl
      | query document value =>
        have hprops : (Value.object document).hasProperties = true := rfl
        obtain ⟨v, hv⟩ := Value.member_ok hprops "ismaster"
        simp only [WriteProtocolMessageType.has_query, isQueryIgnorable, WriteProtocolMessageType.get_query, hv]
        rfl
      | msg document value =>
        have hprops : (Value.object document).hasProperties = true := rfl
        obtain ⟨b, hb⟩ := isCommandIgnorableInEmptyBus_ok hprops
        simp only [WriteProtocolMessageType.has_msg, WriteProtocolMessageType.get_command, hb]
        rfl

/-- A command goes on at once when it is left alone or has a `command` field to take for a command. -/
theorem waitOnCommand_calls_back_iff :
    CallsBackOnce s (waitOnCommand kNoPause s command commandOptions) ↔
      Uncaptured kNoPause s commandOptions ∨ (command.get "command").hasProperties = true := by
  unfold waitOnCommand Uncaptured
  by_cases hoption : (commandOptions.get kNoPause).truthy = true
  · rw [if_pos hoption]
    exact iff_of_true ⟨none, rfl⟩ (.inl (.inl hoption))
  · rw [if_neg hoption]
    cases hcapturing : s.isCommandCapturing with
    | false => exact iff_of_true ⟨none, rfl⟩ (.inl (.inr rfl))
    | true =>
      cases hprops : (command.get "command").hasProperties with
      | true =>
        obtain ⟨b, hb⟩ := isCommandIgnorableInEmptyBus_ok hprops
        rw [hb]
        exact iff_of_true ⟨none, rfl⟩ (.inr rfl)
      | false =>
        rw [isCommandIgnorableInEmptyBus_error hprops]
        refine iff_of_false ?_ ?_
        · rintro ⟨r, hr⟩
          cases hr
        · simp [hoption]

end QpNullSessionPause

end Hooks

/-! ## The hooks of `Querypie.Pause` -/

section Refinement

variable {kNoPause : String} {s : QpPause Value} {session id : String} {phase : QpPausePhase}
variable {command commandOptions : Document} {result : Option Value}

/-- The message by the fields that the hook of a session tests for. -/
def WriteProtocolMessageType.case : WriteProtocolMessageType → WriteProtocolMessage Value
  | query _ _ => .query
  | msg document _ => .msg (.object document)
  | getMore _ => .getMore
  | killCursor _ => .killCursor

/-- The numbers in a document. -/
def field (v : Value) (key : String) : Option Int :=
  match v with
  | .object properties => (Document.get properties key).integer
  | _ => none

theorem isCommandIgnorable_field (body : Nat → List (NestedCall Value)) :
    isCommandIgnorable ⟨field, body⟩ (.object command) = QpSessionPause.isCommandIgnorable command := by
  unfold isCommandIgnorable QpSessionPause.isCommandIgnorable
  congr 1
  funext ignorable
  rw [Bool.eq_iff_iff, Value.isNumber_iff]
  exact decide_eq_true_iff

theorem waitOnProtocol_refines (body : Nat → List (NestedCall Value)) (message : WriteProtocolMessageType) :
    QpSessionPause.waitOnProtocol kNoPause s session id phase message.object commandOptions result =
      .ok (s.waitOn ⟨field, body⟩
        { hook := .waitOnProtocol message.case, session, id, phase, result
          noPause := (commandOptions.get kNoPause).truthy }) := by
  by_cases h : Uncaptured kNoPause s commandOptions
  · rw [QpSessionPause.waitOnProtocol_uncaptured h]
    simp only [QpPause.waitOn, h.left_alone, if_true]
  · obtain ⟨hoption, hcapturing⟩ := not_or.1 h
    rw [Bool.not_eq_false] at hcapturing
    cases message with
    | msg document value =>
      rw [QpSessionPause.waitOnProtocol_msg h]
      simp [QpPause.waitOn, WriteProtocolMessageType.case, hoption, hcapturing, QpSessionPause.pause, QpPause.pause]
    | query document value =>
      unfold QpSessionPause.waitOnProtocol
      simp only [WriteProtocolMessageType.has_query, hoption, hcapturing]
      simp [QpPause.waitOn, WriteProtocolMessageType.case, hcapturing, Query.fields]
    | getMore value =>
      unfold QpSessionPause.waitOnProtocol
      simp only [WriteProtocolMessageType.has_getMore, hoption, hcapturing]
      simp [QpPause.waitOn, WriteProtocolMessageType.case, hcapturing, GetMore.fields]
    | killCursor value =>
      unfold QpSessionPause.waitOnProtocol
      simp only [WriteProtocolMessageType.has_killCursor, hoption, hcapturing]
      simp [QpPause.waitOn, WriteProtocolMessageType.case, hcapturing, KillCursor.fields]

theorem waitOnCommand_refines (body : Nat → List (NestedCall Value)) :
    QpSessionPause.waitOnCommand kNoPause s session id phase command commandOptions result =
      .ok (s.waitOn ⟨field, body⟩
        { hook := .waitOnCommand (.object command), session, id, phase, result
          noPause := (commandOptions.get kNoPause).truthy }) := by
  by_cases h : Uncaptured kNoPause s commandOptions
  · rw [QpSessionPause.waitOnCommand_uncaptured h]
    simp only [QpPause.waitOn, h.left_alone, Bool.true_or, if_true]
  · rw [QpSessionPause.waitOnCommand_captured h]
    obtain ⟨hoption, hcapturing⟩ := not_or.1 h
    rw [Bool.not_eq_false] at hcapturing
    simp only [QpPause.waitOn, isCommandIgnorable_field, hoption, hcapturing]
    cases QpSessionPause.isCommandIgnorable command with
    | true => rfl
    | false => rfl

end Refinement

/-! ## Main result -/

/-- For every document, capture state and options, the two hooks of a session pause alike exactly when the call is left
alone or the document is not `ping: 1`; without a session every message goes on at once, and a command exactly when
the call is left alone or the command has a field `command` that is neither null nor undefined. -/
theorem hooks_agree_iff (kNoPause : String) (s : QpPause Value) (session id : String) (phase : QpPausePhase)
    (command commandOptions : Document) (value : String → Value) (result : Option Value) :
    ((∀ c, Pauses s (QpSessionPause.waitOnProtocol kNoPause s session id phase
            (WriteProtocolMessageType.msg command value).object commandOptions result) c ↔
          Pauses s (QpSessionPause.waitOnCommand kNoPause s session id phase command commandOptions result) c) ↔
        Uncaptured kNoPause s commandOptions ∨ (command.get "ping").isNumber 1 = false) ∧
      (∀ message : WriteProtocolMessageType,
        CallsBackOnce s (QpNullSessionPause.waitOnProtocol kNoPause s message.object commandOptions result)) ∧
      (CallsBackOnce s (QpNullSessionPause.waitOnCommand kNoPause s command commandOptions) ↔
        Uncaptured kNoPause s commandOptions ∨
          command.get "command" ≠ .undefined ∧ command.get "command" ≠ .null) := by
  refine ⟨QpSessionPause.agree_iff value, QpNullSessionPause.waitOnProtocol_calls_back, ?_⟩
  rw [← Value.hasProperties_iff]
  exact QpNullSessionPause.waitOnCommand_calls_back_iff

/-- A captured `ping` pauses on the wire and not as a command, and without a session its hook throws. -/
theorem ping_pauses : ¬ ∀ (kNoPause : String) (s : QpPause Value) (session id : String) (phase : QpPausePhase)
    (command commandOptions : Document) (value : String → Value) (result : Option Value),
    (∀ c, Pauses s (QpSessionPause.waitOnProtocol kNoPause s session id phase
          (WriteProtocolMessageType.msg command value).object commandOptions result) c ↔
        Pauses s (QpSessionPause.waitOnCommand kNoPause s session id phase command commandOptions result) c) ∧
      (∀ message : WriteProtocolMessageType,
        CallsBackOnce s (QpNullSessionPause.waitOnProtocol kNoPause s message.object commandOptions result)) ∧
      CallsBackOnce s (QpNullSessionPause.waitOnCommand kNoPause s command commandOptions) := by
  intro h
  have hagree := (h "no pause" { isCommandCapturing := true } "a" "1" .pre [("ping", .number 1)] []
    (fun _ => .undefined) none).1
  rcases (QpSessionPause.agree_iff _).1 hagree with h | h
  · rcases h with h | h
    · cases h
    · cases h
  · exact absurd h (by decide)

end MongoDriver.Querypie
