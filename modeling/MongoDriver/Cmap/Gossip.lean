/-
A command on its way to the wire (`Connection.command` of `src/cmap/connection.ts`, `getReadPreference` of
`src/cmap/wire_protocol/shared.ts`): the document is copied, given the fields of the server API and of the session and
the cluster time, and put into a message. The cluster time of the session is compared with the connection's only when
the connection has one, so a session that has heard of a time on one connection does not pass it on over a fresh one.
`_advanceClusterTime`, which keeps the time of a session, does take the side that is known.
-/
import MongoDriver.ReadPreference
import MongoDriver.Sdam.Topology
import MongoDriver.Sessions.ClientSession

namespace MongoDriver.Cmap

open Sdam (ClusterTime ServerType maxSupportedWireVersion)
open Sessions (SessionState)

/-! ## Data -/

/-- What a command reads of its connection's `StreamDescription`. -/
structure StreamDescription where
  type : ServerType := .unknown
  maxWireVersion : Option Int := none
  logicalSessionTimeoutMinutes : Option Int := none
  loadBalanced : Bool := false
  /-- `__nodejs_mock_server__` -/
  mockServer : Bool := false

/-- `ServerApi`. -/
structure ServerApi where
  version : String
  strict : Option Bool := none
  deprecationErrors : Option Bool := none

/-- What a command reads of its connection. `hello` is the reply to the handshake, by its `maxWireVersion`. -/
structure CommandConnection where
  description : StreamDescription := {}
  hello : Option (Option Int) := none
  serverApi : Option ServerApi := none
  clusterTime : Option ClusterTime := none

/-- What a command reads of its session: the session with its pool, and the cluster time it has heard of. -/
structure CommandSession where
  state : SessionState
  clusterTime : Option ClusterTime := none

/-- What `readPreference` of a command or of its options may be when it is there. -/
inductive PreferenceField
  | text (mode : String)
  | built (preference : ReadPreference)
  | other

/-- A command document, by the fields that are read and written on the way. -/
structure CommandDocument where
  /-- the fields that `applySession` reads and writes -/
  session : Sessions.Command := {}
  readPreference : Option PreferenceField := none
  apiVersion : Option String := none
  apiStrict : Option Bool := none
  apiDeprecationErrors : Option Bool := none
  /-- `$clusterTime` -/
  clusterTime : Option ClusterTime := none

/-- The options of a command. -/
structure CommandOptions where
  session : Sessions.CommandOptions := {}
  readPreference : Option PreferenceField := none

/-- The message that is written: an `OP_MSG`, an `OP_QUERY`, or one with the command under `$query`. -/
inductive CommandMessage
  | msg (command : CommandDocument)
  | query (command : CommandDocument)
  | wrapped (command : CommandDocument) (readPreference : ReadPreference)

def CommandMessage.command : CommandMessage → CommandDocument
  | msg command | query command | wrapped command _ => command

/-! ## `command` -/

def PreferenceField.truthy : PreferenceField → Bool
  | text mode => mode ≠ ""
  | _ => true

/-- `getReadPreference(cmd, options)`. -/
def getReadPreference (cmd options : Option PreferenceField) : Except AnyError ReadPreference :=
  match options.filter (·.truthy) <|> cmd.filter (·.truthy) with
  | none => .ok { mode := .primary }
  | some (.text mode) => ReadPreference.new mode
  | some (.built preference) => .ok preference
  | some .other => .error (invalidArgument "Option \"readPreference\" must be a ReadPreference instance")

def notAFunction : AnyError := { cls := .typeError, message := "options.readPreference.toJSON is not a function" }

def nullCharacter : AnyError :=
  { cls := .mongoRuntimeError, message := "Namespace cannot contain a null character" }

namespace CommandConnection

variable (conn : CommandConnection)

/-- `maxWireVersion(conn)`. -/
def maxWireVersion : Option Int :=
  if conn.description.loadBalanced then some maxSupportedWireVersion
  else match conn.hello with
    | some version => version
    | none => some (conn.description.maxWireVersion.getD 0)

def supportsOpMsg : Bool := conn.maxWireVersion.any (· ≥ 6) && !conn.description.mockServer

def hasSessionSupport : Bool :=
  conn.description.logicalSessionTimeoutMinutes.isSome || conn.description.loadBalanced

def isSharded : Bool := conn.description.type = .mongos

/-- The fields of the server API. -/
def applyServerApi (cmd : CommandDocument) : CommandDocument :=
  match conn.serverApi with
  | none => cmd
  | some api => { cmd with
      apiVersion := some api.version
      apiStrict := api.strict <|> cmd.apiStrict
      apiDeprecationErrors := api.deprecationErrors <|> cmd.apiDeprecationErrors }

/-- The cluster time that a command with a session is given. -/
def newerClusterTime (session : Option ClusterTime) : Option ClusterTime :=
  match session, conn.clusterTime with
  | some s, some c => if s.clusterTime > c.clusterTime then some s else some c
  | _, clusterTime => clusterTime

/-- The message around the final command. `Msg` calls a method of the preference in the options, which a text does not
have; `Query` refuses some namespaces. -/
def message (db : String) (cmd : CommandDocument) (options : CommandOptions) (preference : ReadPreference) :
    Except AnyError CommandMessage :=
  if conn.supportsOpMsg then
    match options.readPreference with
    | some (.text mode) => if mode ≠ "" then .error notAFunction else .ok (.msg cmd)
    | _ => .ok (.msg cmd)
  else if db.contains '\x00' then .error nullCharacter
  else if conn.isSharded && preference.mode ≠ .primary then .ok (.wrapped cmd preference)
  else .ok (.query cmd)

/-- `command(ns, cmd, options, callback)` up to `write`: what it leaves of the session, and the message, or the error
it throws or calls back with. -/
def command (env : Sessions.Env) (db : String) (cmd : CommandDocument) (options : CommandOptions)
    (session : Option CommandSession) : Option SessionState × Except AnyError CommandMessage :=
  match getReadPreference cmd.readPreference options.readPreference with
  | .error e => (session.map (·.state), .error e)
  | .ok preference =>
    let finalCmd := conn.applyServerApi cmd
    match conn.hasSessionSupport, session with
    | true, some session =>
      let clusterTime := conn.newerClusterTime session.clusterTime
      match session.state.applySession env finalCmd.session options.session with
      | (state, .error e) => (some state, .error e)
      | (state, .ok decorated) =>
        let finalCmd := { finalCmd with session := decorated, clusterTime := clusterTime <|> finalCmd.clusterTime }
        (some state, conn.message db finalCmd options preference)
    | _, _ =>
      let finalCmd := { finalCmd with clusterTime := conn.clusterTime <|> finalCmd.clusterTime }
      (session.map (·.state), conn.message db finalCmd options preference)

end CommandConnection

/-! ## The greater of two cluster times -/

/-- `c` is one of the two cluster times and not behind the other; either may be unknown. -/
structure Greater (a b : Option ClusterTime) (c : ClusterTime) : Prop where
  known : a = some c ∨ b = some c
  left : ∀ x, a = some x → x.clusterTime ≤ c.clusterTime
  right : ∀ x, b = some x → x.clusterTime ≤ c.clusterTime

namespace Greater

variable {a b : Option ClusterTime} {c d : ClusterTime}

theorem symm (h : Greater a b c) : Greater b a c := ⟨h.known.symm, h.right, h.left⟩

/-- The side that is known. -/
theorem unknown_left (c : ClusterTime) : Greater none (some c) c := by
  refine ⟨.inr rfl, fun x hx => (by cases hx), ?_⟩
  rintro x ⟨⟩
  exact le_rfl

theorem of_le (h : c.clusterTime ≤ d.clusterTime) : Greater (some c) (some d) d := by
  refine ⟨.inr rfl, ?_, ?_⟩
  · rintro x ⟨⟩
    exact h
  · rintro x ⟨⟩
    exact le_rfl

end Greater

namespace CommandConnection

variable {conn : CommandConnection}

/-- A connection that knows a time takes the greater one. -/
theorem newerClusterTime_greater (session : Option ClusterTime) (h : conn.clusterTime.isSome = true) :
    ∃ c, conn.newerClusterTime session = some c ∧ Greater conn.clusterTime session c := by
  obtain ⟨c, hc⟩ := Option.isSome_iff_exists.1 h
  unfold newerClusterTime
  rw [hc]
  cases session with
  | none => exact ⟨c, rfl, (Greater.unknown_left c).symm⟩
  | some s =>
    simp only
    split
    · rename_i hgt
      exact ⟨s, rfl, .of_le (Nat.le_of_lt hgt)⟩
    · rename_i hle
      exact ⟨c, rfl, (Greater.of_le (Nat.le_of_not_lt hle)).symm⟩

/-- A connection that knows none takes none. -/
theorem newerClusterTime_unknown (session : Option ClusterTime) (h : conn.clusterTime = none) :
    conn.newerClusterTime session = none := by
  unfold newerClusterTime
  rw [h]
  cases session <;> rfl

/-! ## What is sent -/

/-- The message is about the document it is built from. -/
theorem message_command {db : String} {cmd : CommandDocument} {options : CommandOptions} {preference : ReadPreference}
    {sent : CommandMessage} (h : conn.message db cmd options preference = .ok sent) : sent.command = cmd := by
  unfold message at h
  split at h
  · cases hp : options.readPreference with
    | none => rw [hp] at h; cases h; rfl
    | some field =>
      rw [hp] at h
      cases field with
      | text mode =>
        simp only at h
        split at h
        · cases h
        · cases h; rfl
      | built p => cases h; rfl
      | other => cases h; rfl
  · split at h
    · cases h
    · split at h
      · cases h; rfl
      · cases h; rfl

@[simp] theorem applyServerApi_clusterTime (cmd : CommandDocument) :
    (conn.applyServerApi cmd).clusterTime = cmd.clusterTime := by
  unfold applyServerApi
  cases conn.serverApi <;> rfl

variable {env : Sessions.Env} {db : String} {cmd : CommandDocument} {options : CommandOptions}

/-- The cluster time of what is sent with a session: that of the comparison, or the one the caller had put into the
command. -/
theorem command_clusterTime {session : CommandSession} {sent : CommandMessage}
    (hsupport : conn.hasSessionSupport = true) (hsent : (conn.command env db cmd options (some session)).2 = .ok sent) :
    sent.command.clusterTime = (conn.newerClusterTime session.clusterTime <|> cmd.clusterTime) := by
  unfold command at hsent
  cases hpref : getReadPreference cmd.readPreference options.readPreference with
  | error e => rw [hpref] at hsent; cases hsent
  | ok preference =>
    simp only [hpref, hsupport] at hsent
    rcases happly : session.state.applySession env (conn.applyServerApi cmd).session options.session with ⟨state, r⟩
    rw [happly] at hsent
    cases r with
    | error e => cases hsent
    | ok decorated =>
      rw [message_command hsent]
      simp only [applyServerApi_clusterTime]

/-- A command that is sent with a session over a connection that supports sessions carries the greater of the two
cluster times, if one is known, exactly when the connection knows one, the session knows none, or the caller had put the
session's into the command. -/
theorem clusterTime_gossiped_iff (conn : CommandConnection) (env : Sessions.Env) (db : String) (cmd : CommandDocument)
    (options : CommandOptions) (session : CommandSession) (sent : CommandMessage)
    (hsupport : conn.hasSessionSupport = true)
    (hsent : (conn.command env db cmd options (some session)).2 = .ok sent) :
    (conn.clusterTime.isSome = true ∨ session.clusterTime.isSome = true →
        ∃ c, sent.command.clusterTime = some c ∧ Greater conn.clusterTime session.clusterTime c) ↔
      conn.clusterTime.isSome = true ∨ session.clusterTime = none ∨ cmd.clusterTime = session.clusterTime := by
  rw [command_clusterTime hsupport hsent]
  cases hconn : conn.clusterTime with
  | some c =>
    have hsome : conn.clusterTime.isSome = true := by rw [hconn]; rfl
    obtain ⟨newer, hnewer, hgreater⟩ := newerClusterTime_greater session.clusterTime hsome
    rw [hconn] at hgreater
    constructor
    · intro _
      exact .inl rfl
    · intro _ _
      exact ⟨newer, by rw [hnewer]; rfl, hgreater⟩
  | none =>
    rw [newerClusterTime_unknown _ hconn]
    cases hsession : session.clusterTime with
    | none => simp
    | some s =>
      constructor
      · intro h
        obtain ⟨c, hc, hgreater⟩ := h (.inr rfl)
        have hcmd : cmd.clusterTime = some c := hc
        rcases hgreater.known with hknown | hknown
        · cases hknown
        · exact .inr (.inr (hcmd.trans hknown.symm))
      · rintro (h | h | h) -
        · cases h
        · cases h
        · exact ⟨s, h, .unknown_left s⟩

/-- A connection to a replica set member, before its first reply. -/
def freshConnection : CommandConnection where
  description := { type := .rsPrimary, maxWireVersion := some 13, logicalSessionTimeoutMinutes := some 30 }
  hello := some (some 13)

/-- A new session that was told a cluster time. -/
def informedSession : CommandSession where
  state := { pool := {}, session := {} }
  clusterTime := some ⟨5⟩

/-- A connection that is behind the session. -/
theorem session_time_wins :
    ∃ sent, ({ freshConnection with clusterTime := some ⟨3⟩ }.command {} "admin" {} {} (some informedSession)).2 =
        .ok sent ∧
      ∃ c, sent.command.clusterTime = some c ∧ Greater (some ⟨3⟩) (some ⟨5⟩) c :=
  ⟨_, rfl, (clusterTime_gossiped_iff { freshConnection with clusterTime := some ⟨3⟩ } {} "admin" {} {} informedSession _
    rfl rfl).2 (.inl rfl) (.inl rfl)⟩

/-- The session has heard of a time and the connection has not: the command is sent without any. -/
theorem session_time_dropped :
    ¬ ∀ (conn : CommandConnection) (env : Sessions.Env) (db : String) (cmd : CommandDocument) (options : CommandOptions)
        (session : CommandSession) (sent : CommandMessage), conn.hasSessionSupport = true →
        (conn.command env db cmd options (some session)).2 = .ok sent →
        conn.clusterTime.isSome = true ∨ session.clusterTime.isSome = true →
        ∃ c, sent.command.clusterTime = some c ∧ Greater conn.clusterTime session.clusterTime c := by
  intro h
  obtain ⟨c, hc, -⟩ := h freshConnection {} "admin" {} {} informedSession _ rfl rfl (.inr rfl)
  cases hc

end CommandConnection

end MongoDriver.Cmap
