/-
The times that the commands of a session read at (`applySession`, `updateSessionFromResponse` and
`advanceOperationTime` of `src/sessions.ts`). What a session was told is collected along a run, apart from what
the code keeps of it. A causally consistent session never asks for less than it was told of, whatever ran in
between, and a snapshot session reads at the first time it was given.
-/
import MongoDriver.Sessions.Transitions
import MongoDriver.Sessions.Numbers

namespace MongoDriver.Sessions

open Operations (AbstractOperation Outcome Prog)

/-! ## What decides the times of a command -/

/-- The fields of a session that the times of its commands come from. -/
structure ReadTimes where
  causalConsistency : Bool
  operationTime : Option Nat
  snapshotEnabled : Bool
  snapshotTime : Option Nat

def ClientSession.times (x : ClientSession) : ReadTimes where
  causalConsistency := x.causalConsistency
  operationTime := x.operationTime
  snapshotEnabled := x.snapshotEnabled
  snapshotTime := x.snapshotTime

def World.times (w : World) (c : Nat) : Option ReadTimes := w.clients[c]?.map (·.session.times)

/-- `advanceOperationTime(operationTime)`, which may also be called from outside. -/
def SessionState.advanceOperationTime (s : SessionState) (operationTime : Nat) : SessionState :=
  { s with session := { s.session with
      operationTime := match s.session.operationTime with
        | none => some operationTime
        | some time => if time < operationTime then some operationTime else some time } }

/-- An event of `Sessions/InFlight.lean`, or a time that is handed on from another session. -/
inductive TimedEvent
  | event (e : Event)
  | advanceOperationTime (c operationTime : Nat)

def World.timedStep (w : World) : TimedEvent → Option World
  | .event e => w.step e
  | .advanceOperationTime c operationTime => (w.stateOf c).map fun s => w.put c (s.advanceOperationTime operationTime)

/-! ## What a session was told -/

/-- The operation time an event tells the session `c` of. -/
def TimedEvent.operationTime (c : Nat) : TimedEvent → Option Nat
  | .event ⟨_, .response d reply⟩ => if d = c then reply.operationTime else none
  | .advanceOperationTime d time => if d = c then some time else none
  | _ => none

/-- The snapshot time an event tells the session `c` of. -/
def TimedEvent.atClusterTime (c : Nat) : TimedEvent → Option Nat
  | .event ⟨_, .response d reply⟩ => if d = c then reply.atClusterTime else none
  | _ => none

/-- The times after another operation time: it only moves forward. -/
def ReadTimes.advance (t : ReadTimes) (time : Nat) : ReadTimes :=
  { t with operationTime := if t.operationTime.all (· < time) then some time else t.operationTime }

/-- And after a reply. -/
def ReadTimes.reply (t : ReadTimes) (reply : SessionState.ReplyTimes) : ReadTimes :=
  { t with
    operationTime := match reply.operationTime with
      | some time => if t.causalConsistency then (t.advance time).operationTime else t.operationTime
      | none => t.operationTime
    snapshotTime := if t.snapshotEnabled then t.snapshotTime <|> reply.atClusterTime else t.snapshotTime }

/-! ## The functions of a session leave its times alone -/

namespace SessionState

variable {env : Env} {s s' : SessionState}

theorem getServerSession_times (env : Env) (s : SessionState) :
    (s.getServerSession env).1.session.times = s.session.times := by
  unfold getServerSession
  split <;> rfl

theorem modifyServerSession_times (env : Env) (s : SessionState) (f : ServerSession → ServerSession) :
    (s.modifyServerSession env f).session.times = s.session.times := getServerSession_times env s

theorem completeEndSession_times (env : Env) (s : SessionState) :
    (s.completeEndSession env).session.times = s.session.times := getServerSession_times env s

theorem markDirty_times (env : Env) (s : SessionState) : (s.markDirty env).session.times = s.session.times := by
  unfold markDirty
  split
  · rfl
  · exact modifyServerSession_times ..

theorem startTransaction_times (env : Env) (s : SessionState) (deployment : Deployment) (options : TransactionOptions) :
    (s.startTransaction env deployment options).1.session.times = s.session.times := by
  have halive : (s.assertAlive env).session.times = s.session.times := getServerSession_times env s
  have hnumber : ((s.assertAlive env).incrementTransactionNumber env).session.times = s.session.times :=
    (modifyServerSession_times ..).trans halive
  unfold startTransaction
  split
  · rfl
  · simp only
    split
    · exact halive
    · split
      · exact halive
      · split
        · exact hnumber
        · exact hnumber

theorem settle_times (s : SessionState) (state : TxnState) : (s.settle state).1.session.times = s.session.times := by
  unfold settle
  split <;> rfl

theorem endTransaction_times (env : Env) (s : SessionState) (name : EndTransactionName) :
    (s.endTransaction env name).1.session.times = s.session.times := by
  have halive : (s.assertAlive env).session.times = s.session.times := getServerSession_times env s
  unfold endTransaction
  simp only
  split
  all_goals first
    | exact halive
    | exact (settle_times ..).trans halive

theorem commandHandler_times {name : EndTransactionName} (h : s.commandHandler name = .ok s') :
    s'.session.times = s.session.times := by
  unfold commandHandler at h
  simp only at h
  split at h
  · cases h
    rfl
  · cases h

theorem applyTransaction_times (s : SessionState) (command : Command) :
    (s.applyTransaction command).1.session.times = s.session.times := by
  obtain ⟨t, command', heq, -⟩ := applyTransaction_eq s command
  rw [heq]
  rfl

theorem leaveTransaction_times (s : SessionState) (command : Command) :
    (s.leaveTransaction command).1.session.times = s.session.times := by
  unfold leaveTransaction
  simp only
  split
  · rfl
  · split <;> rfl

theorem applySession_times (env : Env) (s : SessionState) (command : Command) (options : CommandOptions) :
    (s.applySession env command options).1.session.times = s.session.times := by
  have hget := getServerSession_times env s
  unfold applySession
  split
  · rfl
  · simp only
    split
    · exact hget
    · split
      · exact (applyTransaction_times ..).trans hget
      · exact (leaveTransaction_times ..).trans hget

theorem updateSessionFromResponse_times (s : SessionState) (reply : ReplyTimes) :
    (s.updateSessionFromResponse reply).session.times = s.session.times.reply reply := by
  unfold updateSessionFromResponse ReadTimes.reply ReadTimes.advance ClientSession.times
  simp only
  cases reply.operationTime with
  | none => rfl
  | some time => cases s.session.causalConsistency <;> simp

theorem advanceOperationTime_times (s : SessionState) (time : Nat) :
    (s.advanceOperationTime time).session.times = s.session.times.advance time := by
  unfold advanceOperationTime ReadTimes.advance ClientSession.times
  cases s.session.operationTime with
  | none => rfl
  | some old => by_cases h : old < time <;> simp [h]

/-! ## The read concern of a command -/

theorem readConcernOutside_times (h : s'.session.times = s.session.times) (command : Command) :
    s'.readConcernOutside command = s.readConcernOutside command := by
  obtain ⟨hcausal, hoperation, hsnapshot, htime⟩ : s'.session.causalConsistency = s.session.causalConsistency ∧
      s'.session.operationTime = s.session.operationTime ∧ s'.session.snapshotEnabled = s.session.snapshotEnabled ∧
      s'.session.snapshotTime = s.session.snapshotTime := by
    simpa [ClientSession.times] using h
  unfold readConcernOutside
  rw [hcausal, hoperation, hsnapshot, htime]

/-- What an acknowledged command of a live session is sent with. -/
theorem applySession_readConcern {command command' : Command} {options : CommandOptions}
    (hack : options.unacknowledged = false) (h : s.applySession env command options = (s', .ok command')) :
    (isTransactionCommand command' = isTransactionCommand command ∧
      command'.supportsReadConcern = command.supportsReadConcern) ∧
    (s.session.inTransaction = false → isTransactionCommand command = false →
      command'.readConcern = s.readConcernOutside command) ∧
    (s.session.transaction.state = .startingTransaction → s.session.causalConsistency = true →
      ∀ time, s.session.operationTime = some time →
        command'.readConcern.bind (·.afterClusterTime) = some time) := by
  have hget := still_getServerSession env s
  have htimes := getServerSession_times env s
  have hin : (s.getServerSession env).1.session.inTransaction = s.session.inTransaction := hget.alike.inTransaction
  have hstate : (s.getServerSession env).1.session.transaction.state = s.session.transaction.state :=
    congrArg Prod.snd (getServerSession_phase env s)
  unfold applySession at h
  split at h
  · cases h
  · simp only [hack, Bool.false_eq_true, if_false] at h
    split at h
    · rename_i hinside
      unfold applyTransaction at h
      simp only at h
      split at h
      · rename_i hstart
        rw [Transaction.transition_ok.2 ⟨by rw [hstart]; decide, rfl⟩] at h
        cases h
        refine ⟨⟨rfl, rfl⟩, fun hout hplain => ?_, fun _ hcausal time htime => ?_⟩
        · rw [hin, hout] at hinside
          exact absurd (hinside : isTransactionCommand command = true) (by rw [hplain]; exact Bool.false_ne_true)
        · obtain ⟨hcausal', htime'⟩ : (s.getServerSession env).1.session.causalConsistency = true ∧
              (s.getServerSession env).1.session.operationTime = some time :=
            ⟨(congrArg ReadTimes.causalConsistency htimes).trans hcausal,
              (congrArg ReadTimes.operationTime htimes).trans htime⟩
          simp only [readConcernStarting, hcausal', htime']
          rfl
      · rename_i hstart
        cases h
        refine ⟨⟨rfl, rfl⟩, fun hout hplain => ?_, fun hstart' => ?_⟩
        · rw [hin, hout] at hinside
          exact absurd (hinside : isTransactionCommand command = true) (by rw [hplain]; exact Bool.false_ne_true)
        · exact absurd (hstate.trans hstart') hstart
    · rename_i houtside
      have hread : ∀ {s₁ : SessionState} {c : Command}, s₁.session.times = s.session.times →
          c.readConcern = command.readConcern → c.supportsReadConcern = command.supportsReadConcern →
          s₁.readConcernOutside c = s.readConcernOutside command := by
        intro s₁ c hs₁ hc hsupports
        rw [readConcernOutside_times hs₁]
        unfold readConcernOutside
        rw [hc, hsupports]
      refine ⟨?_, fun _ _ => ?_, fun hstart => ?_⟩
      · unfold leaveTransaction at h
        simp only at h
        split at h
        · cases h
          exact ⟨rfl, rfl⟩
        · split at h
          · cases h
          · cases h
            exact ⟨rfl, rfl⟩
      · unfold leaveTransaction at h
        simp only at h
        split at h
        · cases h
          exact hread htimes rfl rfl
        · split at h
          · cases h
          · cases h
            exact hread htimes rfl rfl
      · have hactive : (s.getServerSession env).1.session.inTransaction = true := by
          rw [hin]
          unfold ClientSession.inTransaction
          rw [hstart]
          rfl
        rw [hactive] at houtside
        exact absurd rfl houtside

end SessionState

namespace World

variable {env : Surroundings} {w w' : World} {c i : Nat} {x : Client} {s s' : SessionState} {f : Flight}

/-! ## What a step does to the times -/

theorem times_some (hx : w.clients[c]? = some x) : w.times c = some x.session.times := by
  unfold times
  rw [hx]
  rfl

theorem times_put (hx : w.clients[c]? = some x) (s : SessionState) :
    (w.put c s).times = Function.update w.times c (some s.session.times) := by
  funext d
  unfold times
  rw [put_eq hx]
  by_cases hd : d = c
  · subst hd
    rw [Function.update_self]
    exact congrArg (Option.map _) (Heap.get_set_self hx)
  · rw [Function.update_of_ne hd]
    exact congrArg (Option.map _) (List.getElem?_set_ne (Ne.symm hd))

/-- No session was told a time, and nothing was sent. -/
structure Untold (w w' : World) : Prop where
  times : w'.times = w.times
  sent : w'.sent = w.sent

theorem Untold.refl (w : World) : Untold w w := ⟨rfl, rfl⟩

theorem Untold.trans {w₁ : World} (h : Untold w w₁) (h' : Untold w₁ w') : Untold w w' :=
  ⟨h'.times.trans h.times, h'.sent.trans h.sent⟩

theorem untold_put (hx : w.clients[c]? = some x) (h : s.session.times = x.session.times) :
    Untold w (w.put c s) := by
  refine ⟨?_, rfl⟩
  rw [times_put hx, h, ← times_some hx, Function.update_eq_self]

theorem untold_mark (w : World) (c : Nat) (φ : Option Started → Option Started) : Untold w (w.mark c φ) := by
  refine ⟨funext fun d => ?_, rfl⟩
  unfold times mark
  rw [List.getElem?_modify]
  cases w.clients[d]? with
  | none => rfl
  | some y =>
    show some (if c = d then _ else y : Client).session.times = _
    split <;> rfl

theorem untold_finish (env : Surroundings) (w : World) (i : Nat) (f : Flight) : Untold w (w.finish env i f) := by
  have hland : ∀ {v : World}, Untold w v → Untold w (v.land i f) := fun hv => ⟨hv.times, hv.sent⟩
  unfold finish
  split
  · rename_i name command retried endSession s hpurpose hs
    obtain ⟨x, hx, rfl⟩ := Option.map_eq_some_iff.1 hs
    split
    · exact hland (.refl w)
    · rename_i s' hhandler
      have htimes : s'.session.times = x.session.times := SessionState.commandHandler_times hhandler
      refine hland (untold_put hx ?_)
      split
      · exact (SessionState.completeEndSession_times ..).trans htimes
      · exact htimes
  · exact hland (.refl w)

theorem untold_resumeWith {callback : World → Flight → Outcome Unit → World}
    (hcallback : ∀ (w₁ : World) (g : Flight) (o : Outcome Unit), Untold w₁ (callback w₁ g o))
    (env : Surroundings) (w : World) (i : Nat) (f : Flight) (p : Prog Unit) :
    Untold w (w.resumeWith env callback i f p) := by
  unfold resumeWith
  split
  · exact .refl w
  · rename_i s hs
    have hput : Untold w (if (advance (env.view s.session) p).1
        then w.put f.client (s.incrementTransactionNumber env.toEnv) else w) := by
      obtain ⟨x, hx, rfl⟩ := Option.map_eq_some_iff.1 hs
      split
      · exact untold_put hx (SessionState.modifyServerSession_times ..)
      · exact .refl w
    simp only
    split
    · exact hput.trans (hcallback _ _ _)
    · exact hput.trans ⟨rfl, rfl⟩

theorem untold_enterWith {callback : World → Flight → Outcome Unit → World}
    (hcallback : ∀ (w₁ : World) (g : Flight) (o : Outcome Unit), Untold w₁ (callback w₁ g o))
    (env : Surroundings) (w : World) (i : Nat) (f : Flight) (op : AbstractOperation) :
    Untold w (w.enterWith env callback i f op) := by
  unfold enterWith
  split
  · exact .refl w
  · split
    · exact ⟨rfl, rfl⟩
    · exact untold_resumeWith hcallback ..

theorem untold_complete (env : Surroundings) (w : World) (i : Nat) (f : Flight) (o : Outcome Unit) :
    Untold w (w.complete env i f o) := by
  unfold complete
  split
  · split
    · exact untold_enterWith (fun w₁ g _ => untold_finish env w₁ i g) ..
    · exact untold_finish ..
  · exact untold_finish ..

theorem untold_resume (env : Surroundings) (w : World) (i : Nat) (f : Flight) (p : Prog Unit) :
    Untold w (w.resume env i f p) := untold_resumeWith (fun w₁ g o => untold_complete env w₁ i g o) ..

theorem untold_launch (env : Surroundings) (w : World) (f : Flight) (op : AbstractOperation) :
    Untold w (w.launch env f op) := by
  have happend : Untold w { w with flights := w.flights ++ [f] } := ⟨rfl, rfl⟩
  exact happend.trans (untold_enterWith (fun w₁ g o => untold_complete env w₁ _ g o) ..)

theorem untold_startTransaction (env : Surroundings) (hx : w.clients[c]? = some x) (options : TransactionOptions) :
    Untold w (w.startTransaction env c x options) := by
  have hput := untold_put hx
    (SessionState.startTransaction_times env.toEnv ⟨w.pool, x.session⟩ env.deployment options)
  unfold startTransaction
  simp only
  split
  · exact ⟨hput.times, hput.sent⟩
  · have hbegin : ∀ (v : World) (txnNumber : Nat), (v.beginTxn c txnNumber).times = v.times :=
      fun v txnNumber => (untold_mark v c fun _ => some { txn := v.txns, txnNumber }).times
    exact ⟨(hbegin _ _).trans hput.times, hput.sent⟩

theorem untold_endTransaction (env : Surroundings) (hx : w.clients[c]? = some x) (name : EndTransactionName)
    (endSession : Bool) : Untold w (w.endTransaction env c x name endSession) := by
  have htimes := SessionState.endTransaction_times env.toEnv ⟨w.pool, x.session⟩ name
  unfold endTransaction
  split
  · rename_i s err heq
    rw [heq] at htimes
    exact untold_put hx htimes
  · rename_i s heq
    rw [heq] at htimes
    have hmark : (w.mark c (·.map ({ · with closed := true }))).clients[c]? =
        some { x with started := x.started.map ({ · with closed := true }) } := by
      rw [mark_eq hx]
      exact Heap.get_set_self hx
    refine (untold_mark w c _).trans (untold_put hmark ?_)
    split
    · exact (SessionState.completeEndSession_times ..).trans htimes
    · exact htimes
  · rename_i s command heq
    rw [heq] at htimes
    exact ((untold_put hx htimes).trans (untold_mark _ c _)).trans (untold_launch ..)

theorem untold_endSession (env : Surroundings) (hx : w.clients[c]? = some x) : Untold w (w.endSession env c x) := by
  unfold endSession
  split
  · exact .refl w
  · split
    · exact untold_endTransaction env hx _ _
    · exact untold_put hx (SessionState.completeEndSession_times ..)

/-- What a command leaves: the times stay, and what is sent is the command or what `applySession` made of it. -/
theorem command_times (env : Surroundings) (hx : w.clients[f.client]? = some x) (command : Command)
    (conn : Connection) : (w.command env i f ⟨w.pool, x.session⟩ command conn).times = w.times ∧
      ∀ a, (w.command env i f ⟨w.pool, x.session⟩ command conn).sent = w.sent ++ [a] →
        a.client = f.client ∧ a.options = f.options ∧ (a.supported = true →
          ∃ s, SessionState.applySession env.toEnv ⟨w.pool, x.session⟩ command f.options = (s, .ok a.command)) := by
  have hself : ∀ a, w.sent = w.sent ++ [a] → False := fun a h => by simpa using congrArg List.length h
  have hwrite : ∀ (s : SessionState) (command : Command), s.session.times = x.session.times →
      (w.write env i f s command conn).times = w.times ∧
        ∀ a, (w.write env i f s command conn).sent = w.sent ++ [a] →
          a = ⟨f.client, i, f.txn, f.options, conn.hasSessionSupport, command⟩ := by
    intro s command hs
    have hput := untold_put hx ((SessionState.getServerSession_times env.toEnv s).trans hs)
    unfold write
    simp only
    split
    · refine ⟨hput.times, fun a ha => ?_⟩
      exact (List.singleton_inj.1 (List.append_cancel_left ha)).symm
    · exact ⟨hput.times, fun a ha => (hself a ha).elim⟩
  have htimes := SessionState.applySession_times env.toEnv ⟨w.pool, x.session⟩ command f.options
  unfold World.command
  split
  · split
    · rename_i s err heq
      rw [heq] at htimes
      exact ⟨(untold_put hx htimes).times, fun a ha => (hself a ha).elim⟩
    · rename_i s command' heq
      rw [heq] at htimes
      refine ⟨(hwrite s command' htimes).1, fun a ha => ?_⟩
      obtain rfl := (hwrite s command' htimes).2 a ha
      exact ⟨rfl, rfl, fun _ => ⟨s, heq⟩⟩
  · rename_i hsupport
    refine ⟨(hwrite _ command rfl).1, fun a ha => ?_⟩
    obtain rfl := (hwrite _ command rfl).2 a ha
    exact ⟨rfl, rfl, fun h => absurd h hsupport⟩

/-- What an event does to the times: nothing, a new session knows none, or a session is told. -/
inductive Clocked (w : World) (e : TimedEvent) (w' : World) : Prop
  | still (hquiet : ∀ c, e.operationTime c = none ∧ e.atClusterTime c = none) (htimes : w'.times = w.times)
  | joins {session : ClientSession} {c : Nat} (hquiet : ∀ c, e.operationTime c = none ∧ e.atClusterTime c = none)
      (hold : w.times c = none) (hoperation : session.operationTime = none) (hsnapshot : session.snapshotTime = none)
      (hexclusive : session.snapshotEnabled = true → session.causalConsistency = false)
      (htimes : w'.times = Function.update w.times c (some session.times))
  | replies {c : Nat} {t : ReadTimes} {env : Surroundings} {reply : SessionState.ReplyTimes}
      (hevent : e = .event ⟨env, .response c reply⟩) (hold : w.times c = some t)
      (htimes : w'.times = Function.update w.times c (some (t.reply reply)))
  | advances {c time : Nat} {t : ReadTimes} (hevent : e = .advanceOperationTime c time) (hold : w.times c = some t)
      (htimes : w'.times = Function.update w.times c (some (t.advance time)))

theorem clocked_startSession {options : ClientSessionOptions} {clientOptions : TransactionOptions}
    {session : ClientSession} (hnew : ClientSession.new options clientOptions = .ok session) :
    Clocked w (.event ⟨env, .startSession options clientOptions⟩) { w with clients := w.clients ++ [{ session }] } := by
  have hold : w.times w.clients.length = none := by
    unfold times
    rw [List.getElem?_eq_none (Nat.le_refl _)]
    rfl
  have htimes : ({ w with clients := w.clients ++ [{ session }] } : World).times =
      Function.update w.times w.clients.length (some session.times) := by
    funext d
    unfold times
    rw [List.getElem?_append]
    by_cases hd : d = w.clients.length
    · subst hd
      rw [Function.update_self, if_neg (Nat.lt_irrefl _), Nat.sub_self]
      rfl
    · rw [Function.update_of_ne hd]
      split
      · rfl
      · rename_i hlt
        rw [List.getElem?_eq_none (by omega : w.clients.length ≤ d),
          List.getElem?_eq_none (by simp only [List.length_singleton]; omega)]
  obtain ⟨hoperation, hsnapshot, hexclusive⟩ : session.operationTime = none ∧ session.snapshotTime = none ∧
      (session.snapshotEnabled = true → session.causalConsistency = false) := by
    unfold ClientSession.new at hnew
    split at hnew
    · cases hnew
    · cases hnew
      refine ⟨rfl, rfl, fun hsnap => ?_⟩
      have hsnap' : options.snapshot = true := hsnap
      simp [hsnap']
  exact .joins (fun _ => ⟨rfl, rfl⟩) hold hoperation hsnapshot hexclusive htimes

theorem timedStep_clocked {e : TimedEvent} (hstep : w.timedStep e = some w') : Clocked w e w' := by
  cases e with
  | advanceOperationTime c time =>
    obtain ⟨s, hs, rfl⟩ := Option.map_eq_some_iff.1 hstep
    obtain ⟨x, hx, rfl⟩ := Option.map_eq_some_iff.1 hs
    refine .advances rfl (times_some hx) ?_
    rw [times_put hx, SessionState.advanceOperationTime_times]
  | event e =>
    have hquiet : ∀ {v : World}, Untold w v → (∀ c, (TimedEvent.event e).operationTime c = none ∧
        (TimedEvent.event e).atClusterTime c = none) → Clocked w (.event e) v := fun h hq => .still hq h.times
    cases World.step_steps hstep with
    | refused => exact hquiet (.refl w) fun _ => ⟨rfl, rfl⟩
    | startSession hnew => exact clocked_startSession hnew
    | read hs =>
      obtain ⟨x, hx, rfl⟩ := Option.map_eq_some_iff.1 hs
      exact hquiet (untold_put hx (SessionState.getServerSession_times ..)) fun _ => ⟨rfl, rfl⟩
    | @equals env c d s s' hs hs' =>
      obtain ⟨x, hx, rfl⟩ := Option.map_eq_some_iff.1 hs
      obtain ⟨y, hy, rfl⟩ := Option.map_eq_some_iff.1 hs'
      have hfirst := untold_put hx (SessionState.getServerSession_times env.toEnv ⟨w.pool, x.session⟩)
      refine hquiet (hfirst.trans (untold_put hy ?_)) fun _ => ⟨rfl, rfl⟩
      exact SessionState.getServerSession_times ..
    | startTransaction hx => exact hquiet (untold_startTransaction _ hx _) fun _ => ⟨rfl, rfl⟩
    | endTransaction hx => exact hquiet (untold_endTransaction _ hx _ _) fun _ => ⟨rfl, rfl⟩
    | endSession hx => exact hquiet (untold_endSession _ hx) fun _ => ⟨rfl, rfl⟩
    | executeOperation hx => exact hquiet (untold_launch ..) fun _ => ⟨rfl, rfl⟩
    | unchecked => exact hquiet (untold_complete ..) fun _ => ⟨rfl, rfl⟩
    | checked => exact hquiet (untold_resume ..) fun _ => ⟨rfl, rfl⟩
    | selected => exact hquiet (untold_resume ..) fun _ => ⟨rfl, rfl⟩
    | @command env i command conn f s server next hf hs =>
      obtain ⟨x, hx, rfl⟩ := Option.map_eq_some_iff.1 hs
      exact .still (fun _ => ⟨rfl, rfl⟩) (command_times env hx _ conn).1
    | outcome => exact hquiet (untold_resume ..) fun _ => ⟨rfl, rfl⟩
    | networkError hs =>
      obtain ⟨x, hx, rfl⟩ := Option.map_eq_some_iff.1 hs
      exact hquiet (untold_put hx (SessionState.markDirty_times ..)) fun _ => ⟨rfl, rfl⟩
    | response hs =>
      obtain ⟨x, hx, rfl⟩ := Option.map_eq_some_iff.1 hs
      refine .replies rfl (times_some hx) ?_
      rw [times_put hx, SessionState.updateSessionFromResponse_times]
    | endAllPooledSessions => exact hquiet ⟨rfl, rfl⟩ fun _ => ⟨rfl, rfl⟩

/-! ## Runs -/

/-- What the sessions know is what they were told of in the run so far. -/
structure Ledger (es : List TimedEvent) (w : World) : Prop where
  operationTime : ∀ c t, w.times c = some t → t.causalConsistency = true →
    t.operationTime = (es.filterMap (·.operationTime c)).max?
  snapshotTime : ∀ c t, w.times c = some t → t.snapshotEnabled = true →
    t.snapshotTime = (es.filterMap (·.atClusterTime c)).head?
  exclusive : ∀ c t, w.times c = some t → t.snapshotEnabled = true → t.causalConsistency = false
  unknown : ∀ c, w.times c = none →
    es.filterMap (·.operationTime c) = [] ∧ es.filterMap (·.atClusterTime c) = []

/-- The latest of the times so far, when another one comes in. -/
theorem max?_concat (l : List Nat) (time : Nat) :
    (l ++ [time]).max? = if l.max?.all (· < time) then some time else l.max? := by
  cases l with
  | nil => rfl
  | cons a l =>
    simp only [List.cons_append, List.max?_cons', List.foldl_append, List.foldl_cons, List.foldl_nil, Option.all_some,
      decide_eq_true_eq]
    split
    · rename_i hlt
      exact congrArg some (Nat.max_eq_right (Nat.le_of_lt hlt))
    · rename_i hlt
      exact congrArg some (Nat.max_eq_left (Nat.le_of_not_lt hlt))

theorem ledger_init : Ledger [] {} := by
  refine ⟨?_, ?_, ?_, fun _ _ => ⟨rfl, rfl⟩⟩
  all_goals
    intro c t ht
    cases ht

section Step

variable {es : List TimedEvent} {e : TimedEvent}

/-- An event that tells `c` nothing adds nothing to its list. -/
theorem filterMap_quiet {g : TimedEvent → Option Nat} (h : g e = none) :
    (es ++ [e]).filterMap g = es.filterMap g := by
  rw [List.filterMap_append, List.filterMap_cons_none h, List.filterMap_nil, List.append_nil]

theorem filterMap_told {g : TimedEvent → Option Nat} {time : Nat} (h : g e = some time) :
    (es ++ [e]).filterMap g = es.filterMap g ++ [time] := by
  rw [List.filterMap_append, List.filterMap_cons_some h, List.filterMap_nil]

/-- The latest time of a session that was told of another one. -/
theorem max?_told {c time : Nat} {t : ReadTimes} (h : e.operationTime c = some time)
    (ht : t.operationTime = (es.filterMap (·.operationTime c)).max?) :
    (t.advance time).operationTime = ((es ++ [e]).filterMap (·.operationTime c)).max? := by
  rw [filterMap_told (g := (·.operationTime c)) h, max?_concat, ← ht]
  rfl

/-- Only the session that an event tells something learns from it. -/
theorem Ledger.update {c : Nat} {t t' : ReadTimes} (h : Ledger es w) (hold : w.times c = some t)
    (htimes : w'.times = Function.update w.times c (some t'))
    (hother : ∀ d, d ≠ c → e.operationTime d = none ∧ e.atClusterTime d = none)
    (hcausal : t'.causalConsistency = t.causalConsistency) (hsnap : t'.snapshotEnabled = t.snapshotEnabled)
    (hoperation : t.causalConsistency = true →
      t'.operationTime = ((es ++ [e]).filterMap (·.operationTime c)).max?)
    (hsnapshot : t.snapshotEnabled = true →
      t'.snapshotTime = ((es ++ [e]).filterMap (·.atClusterTime c)).head?) : Ledger (es ++ [e]) w' := by
  refine ⟨fun d u hd hu => ?_, fun d u hd hu => ?_, fun d u hd hu => ?_, fun d hd => ?_⟩
  all_goals
    rw [htimes] at hd
    by_cases hc : d = c
  · subst hc
    rw [Function.update_self] at hd
    cases hd
    exact hoperation (hcausal ▸ hu)
  · rw [Function.update_of_ne hc] at hd
    rw [filterMap_quiet (hother d hc).1]
    exact h.operationTime d u hd hu
  · subst hc
    rw [Function.update_self] at hd
    cases hd
    exact hsnapshot (hsnap ▸ hu)
  · rw [Function.update_of_ne hc] at hd
    rw [filterMap_quiet (hother d hc).2]
    exact h.snapshotTime d u hd hu
  · subst hc
    rw [Function.update_self] at hd
    cases hd
    exact hcausal.trans (h.exclusive d t hold (hsnap ▸ hu))
  · rw [Function.update_of_ne hc] at hd
    exact h.exclusive d u hd hu
  · subst hc
    rw [Function.update_self] at hd
    cases hd
  · rw [Function.update_of_ne hc] at hd
    rw [filterMap_quiet (hother d hc).1, filterMap_quiet (hother d hc).2]
    exact h.unknown d hd

/-- A reply adds the times it carries. -/
theorem Ledger.reply {c : Nat} {t : ReadTimes} {env : Surroundings} {reply : SessionState.ReplyTimes}
    (h : Ledger es w) (hold : w.times c = some t)
    (htimes : w'.times = Function.update w.times c (some (t.reply reply))) :
    Ledger (es ++ [.event ⟨env, .response c reply⟩]) w' := by
  have hoperation : (TimedEvent.event ⟨env, .response c reply⟩).operationTime c = reply.operationTime := if_pos rfl
  have hsnapshot : (TimedEvent.event ⟨env, .response c reply⟩).atClusterTime c = reply.atClusterTime := if_pos rfl
  refine h.update hold htimes (fun d hd => ⟨if_neg (Ne.symm hd), if_neg (Ne.symm hd)⟩) rfl rfl ?_ ?_
  · intro hcausal
    have ht := h.operationTime c t hold hcausal
    unfold ReadTimes.reply
    cases htime : reply.operationTime with
    | none =>
      rw [filterMap_quiet (hoperation.trans htime)]
      exact ht
    | some time =>
      simp only [hcausal, if_true]
      exact max?_told (hoperation.trans htime) ht
  · intro hsnap
    have ht := h.snapshotTime c t hold hsnap
    unfold ReadTimes.reply
    simp only [hsnap, if_true]
    cases htime : reply.atClusterTime with
    | none =>
      rw [filterMap_quiet (hsnapshot.trans htime), ← ht]
      cases t.snapshotTime <;> rfl
    | some time =>
      rw [filterMap_told (hsnapshot.trans htime), List.head?_append, ← ht]
      cases t.snapshotTime <;> rfl

theorem Clocked.ledger (hclocked : Clocked w e w') (h : Ledger es w) : Ledger (es ++ [e]) w' := by
  cases hclocked with
  | still hquiet htimes =>
    refine ⟨fun c t hc => ?_, fun c t hc => ?_, fun c t hc => ?_, fun c hc => ?_⟩
    all_goals rw [htimes] at hc
    · rw [filterMap_quiet (hquiet c).1]
      exact h.operationTime c t hc
    · rw [filterMap_quiet (hquiet c).2]
      exact h.snapshotTime c t hc
    · exact h.exclusive c t hc
    · rw [filterMap_quiet (hquiet c).1, filterMap_quiet (hquiet c).2]
      exact h.unknown c hc
  | @joins session c hquiet hold hoperation hsnapshot hexclusive htimes =>
    obtain ⟨hno, hno'⟩ := h.unknown c hold
    refine ⟨fun d u hd hu => ?_, fun d u hd hu => ?_, fun d u hd hu => ?_, fun d hd => ?_⟩
    all_goals
      rw [htimes] at hd
      by_cases hc : d = c
    · subst hc
      rw [Function.update_self] at hd
      cases hd
      rw [filterMap_quiet (hquiet d).1, hno]
      exact hoperation
    · rw [Function.update_of_ne hc] at hd
      rw [filterMap_quiet (hquiet d).1]
      exact h.operationTime d u hd hu
    · subst hc
      rw [Function.update_self] at hd
      cases hd
      rw [filterMap_quiet (hquiet d).2, hno']
      exact hsnapshot
    · rw [Function.update_of_ne hc] at hd
      rw [filterMap_quiet (hquiet d).2]
      exact h.snapshotTime d u hd hu
    · subst hc
      rw [Function.update_self] at hd
      cases hd
      exact hexclusive hu
    · rw [Function.update_of_ne hc] at hd
      exact h.exclusive d u hd hu
    · subst hc
      rw [Function.update_self] at hd
      cases hd
    · rw [Function.update_of_ne hc] at hd
      rw [filterMap_quiet (hquiet d).1, filterMap_quiet (hquiet d).2]
      exact h.unknown d hd
  | replies hevent hold htimes =>
    subst hevent
    exact h.reply hold htimes
  | @advances c time t hevent hold htimes =>
    subst hevent
    have hoperation : (TimedEvent.advanceOperationTime c time).operationTime c = some time := if_pos rfl
    refine h.update hold htimes (fun d hd => ⟨if_neg (Ne.symm hd), rfl⟩) rfl rfl ?_ ?_
    · exact fun hcausal => max?_told hoperation (h.operationTime c t hold hcausal)
    · intro hsnap
      rw [filterMap_quiet rfl]
      exact h.snapshotTime c t hold hsnap

end Step

theorem ledger_run : ∀ {es es' : List TimedEvent} {w w' : World}, Ledger es w →
    Run.exec timedStep w es' = some w' → Ledger (es ++ es') w'
  | es, [], w, w', h, hrun => by
    cases hrun
    rw [List.append_nil]
    exact h
  | es, e :: es', w, w', h, hrun => by
    obtain ⟨v, hv, hrun⟩ := (Run.exec_cons timedStep).1 hrun
    have hnext := ledger_run ((timedStep_clocked hv).ledger h) hrun
    rwa [List.append_assoc] at hnext

theorem manned_timedStep {e : TimedEvent} (h : w.Manned) (hstep : w.timedStep e = some w') : w'.Manned := by
  cases e with
  | event e => exact (step_turn h hstep).manned h
  | advanceOperationTime c time =>
    obtain ⟨s, hs, rfl⟩ := Option.map_eq_some_iff.1 hstep
    have hturn : Turn w ⟨{}, .read c⟩ (w.put c (s.advanceOperationTime time)) := turn_put _ hs rfl
    exact hturn.manned h

/-- The step hands the command to the socket for a session, and its connection supports sessions. -/
structure Sends (w : World) (e : TimedEvent) (w' : World) (a : Sent) (x : Client) : Prop where
  step : w.timedStep e = some w'
  sent : w'.sent = w.sent ++ [a]
  client : w.clients[a.client]? = some x
  supported : a.supported = true
  acknowledged : a.options.unacknowledged = false

/-- What is sent was decorated by the session. -/
theorem Sends.applied {e : TimedEvent} {a : Sent} (h : Sends w e w' a x) :
    ∃ (env : Env) (command : Command) (s : SessionState),
      SessionState.applySession env ⟨w.pool, x.session⟩ command a.options = (s, .ok a.command) := by
  obtain ⟨hstep, hsent, hx, hsupported, -⟩ := h
  have hnone : ∀ {v : World}, Untold w v → v.sent = w.sent ++ [a] → False := fun hv hsent' => by
    rw [hv.sent] at hsent'
    simpa using congrArg List.length hsent'
  cases e with
  | advanceOperationTime c time =>
    obtain ⟨s, hs, rfl⟩ := Option.map_eq_some_iff.1 hstep
    simpa [put] using congrArg List.length hsent
  | event e =>
    cases World.step_steps hstep with
    | refused => exact (hnone (.refl w) hsent).elim
    | startSession => simpa using congrArg List.length hsent
    | read => simpa [put] using congrArg List.length hsent
    | equals => simpa [put] using congrArg List.length hsent
    | startTransaction hx => exact (hnone (untold_startTransaction _ hx _) hsent).elim
    | endTransaction hx => exact (hnone (untold_endTransaction _ hx _ _) hsent).elim
    | endSession hx => exact (hnone (untold_endSession _ hx) hsent).elim
    | executeOperation => exact (hnone (untold_launch ..) hsent).elim
    | unchecked => exact (hnone (untold_complete ..) hsent).elim
    | checked => exact (hnone (untold_resume ..) hsent).elim
    | selected => exact (hnone (untold_resume ..) hsent).elim
    | @command env i command conn f s server next hf hs =>
      obtain ⟨y, hy, rfl⟩ := Option.map_eq_some_iff.1 hs
      obtain ⟨hclient, hoptions, happlied⟩ := (command_times env hy _ conn).2 a hsent
      rw [hclient] at hx
      obtain rfl := Option.some.inj (hx.symm.trans hy)
      obtain ⟨s, hs⟩ := happlied hsupported
      exact ⟨env.toEnv, f.command command, s, hoptions ▸ hs⟩
    | outcome => exact (hnone (untold_resume ..) hsent).elim
    | networkError => simpa [put] using congrArg List.length hsent
    | response => simpa [put] using congrArg List.length hsent
    | endAllPooledSessions => simpa using congrArg List.length hsent

/-- Causal consistency: a command that starts a transaction, or is sent outside of one and takes a read concern,
reads at the latest of the times that its session was told of. -/
theorem causal_session_reads_latest {es : List TimedEvent} {e : TimedEvent} {a : Sent}
    (hrun : Run.exec timedStep {} es = some w) (hsends : Sends w e w' a x)
    (hcausal : x.session.causalConsistency = true)
    (hreads : x.session.transaction.state = .startingTransaction ∨
      x.session.inTransaction = false ∧ isTransactionCommand a.command = false ∧ a.command.supportsReadConcern = true)
    (htold : es.filterMap (·.operationTime a.client) ≠ []) :
    ∃ time ∈ es.filterMap (·.operationTime a.client), (∀ earlier ∈ es.filterMap (·.operationTime a.client),
      earlier ≤ time) ∧ a.command.readConcern.bind (·.afterClusterTime) = some time := by
  have hledger := (ledger_run ledger_init hrun).operationTime a.client _ (times_some hsends.client) hcausal
  rw [List.nil_append] at hledger
  obtain ⟨time, htime⟩ := Option.ne_none_iff_exists'.1 fun h => htold (List.max?_eq_none_iff.1 h)
  have hknown : x.session.operationTime = some time := hledger.trans htime
  obtain ⟨hmem, hle⟩ := List.max?_eq_some_iff.1 htime
  refine ⟨time, hmem, hle, ?_⟩
  obtain ⟨env, command, s, happlied⟩ := hsends.applied
  obtain ⟨⟨hcommand, hsupports⟩, houtside, hstarting⟩ :=
    SessionState.applySession_readConcern hsends.acknowledged happlied
  rcases hreads with hstart | ⟨hout, hplain, hread⟩
  · exact hstarting hstart hcausal time hknown
  · rw [houtside hout (hcommand.symm.trans hplain)]
    have hread' : command.supportsReadConcern = true := hsupports.symm.trans hread
    simp only [SessionState.readConcernOutside, hcausal, hread', hknown, Bool.and_true]
    rfl

/-- Snapshot reads: every command of a snapshot session carries a read concern, and once the session was told of a
snapshot time it reads at the first one. -/
theorem snapshot_session_reads_first {es : List TimedEvent} {e : TimedEvent} {a : Sent}
    (hrun : Run.exec timedStep {} es = some w) (hsends : Sends w e w' a x)
    (hsnap : x.session.snapshotEnabled = true) (hplain : isTransactionCommand a.command = false) :
    ∃ readConcern, a.command.readConcern = some readConcern ∧
      ∀ time, (es.filterMap (·.atClusterTime a.client)).head? = some time → readConcern.atClusterTime = some time := by
  have hmanned : w.Manned := Run.exec_inv timedStep (fun v e v' h hs => manned_timedStep h hs) manned_init hrun
  have hledger := ledger_run ledger_init hrun
  have hcausal : x.session.causalConsistency = false :=
    hledger.exclusive a.client _ (times_some hsends.client) hsnap
  have hknown : x.session.snapshotTime = (es.filterMap (·.atClusterTime a.client)).head? :=
    hledger.snapshotTime a.client _ (times_some hsends.client) hsnap
  have hstate := hmanned.snapshot a.client x.session.transaction.state
    ((phase_some hsends.client).trans (congrArg some (Prod.ext hsnap rfl)))
  have hout : x.session.inTransaction = false := by
    unfold ClientSession.inTransaction
    rw [hstate]
    rfl
  obtain ⟨env, command, s, happlied⟩ := hsends.applied
  obtain ⟨⟨hcommand, -⟩, houtside, -⟩ := SessionState.applySession_readConcern hsends.acknowledged happlied
  rw [houtside hout (hcommand.symm.trans hplain), ← hknown]
  simp only [SessionState.readConcernOutside, hcausal, hsnap, Bool.false_and, if_true]
  refine ⟨_, rfl, fun time htime => ?_⟩
  rw [htime]

section Runs

open Sample

/-- The read as it is written. -/
private def written (readConcern : ReadConcern) : Sent where
  client := 0
  flight := 0
  txn := none
  options := {}
  supported := true
  command := { lsid := some 0, readConcern, supportsReadConcern := true }

private def reading : TimedEvent := .event (during (.command 0 { supportsReadConcern := true } {}))

private def after (es : List TimedEvent) : World := (Run.exec timedStep {} es).getD {}

/-- A session is told of two operation times, the later one first, and reads. -/
private def toldTwice : List TimedEvent :=
  [.event (during (.startSession {} {})), .event (during (.response 0 { operationTime := some 7 })),
    .advanceOperationTime 0 5, .event (during (.executeOperation 0 {} false)),
    .event (during (.selected 0 (.ok primary)))]

theorem reads_at_later_time : ∃ w w' a x, Run.exec timedStep {} toldTwice = some w ∧
    Sends w reading w' a x ∧
    ∃ time ∈ toldTwice.filterMap (·.operationTime a.client), (∀ earlier ∈ toldTwice.filterMap (·.operationTime a.client),
      earlier ≤ time) ∧ a.command.readConcern.bind (·.afterClusterTime) = some time := by
  obtain ⟨x, hx, hcausal, hout⟩ : ∃ x, (after toldTwice).clients[0]? = some x ∧ x.session.causalConsistency = true ∧
      x.session.inTransaction = false := ⟨_, rfl, rfl, rfl⟩
  have hsends : Sends (after toldTwice) reading (after (toldTwice ++ [reading])) (written ⟨none, some 7, none⟩) x :=
    ⟨rfl, rfl, hx, rfl, rfl⟩
  exact ⟨_, _, _, x, rfl, hsends, causal_session_reads_latest rfl hsends hcausal (.inr ⟨hout, rfl, rfl⟩) (by decide)⟩

/-- A snapshot session is told of two snapshot times, and reads. -/
private def snapshotTwice : List TimedEvent :=
  [.event (during (.startSession { snapshot := true } {})), .event (during (.response 0 { atClusterTime := some 3 })),
    .event (during (.response 0 { atClusterTime := some 9 })), .event (during (.executeOperation 0 {} false)),
    .event (during (.selected 0 (.ok primary)))]

theorem reads_at_first_snapshot : ∃ w w' a x, Run.exec timedStep {} snapshotTwice = some w ∧
    Sends w reading w' a x ∧
    ∃ readConcern, a.command.readConcern = some readConcern ∧
      ∀ time, (snapshotTwice.filterMap (·.atClusterTime a.client)).head? = some time →
        readConcern.atClusterTime = some time := by
  obtain ⟨x, hx, hsnap⟩ : ∃ x, (after snapshotTwice).clients[0]? = some x ∧ x.session.snapshotEnabled = true :=
    ⟨_, rfl, rfl⟩
  have hsends : Sends (after snapshotTwice) reading (after (snapshotTwice ++ [reading]))
    (written ⟨some "snapshot", none, some 3⟩) x := ⟨rfl, rfl, hx, rfl, rfl⟩
  exact ⟨_, _, _, x, rfl, hsends, snapshot_session_reads_first rfl hsends hsnap rfl⟩

end Runs

end World

end MongoDriver.Sessions
