/-
Command monitoring (`write` of `src/cmap/connection.ts`). A connection that monitors reports when a command starts,
and each time its callback is called, whether it succeeded. Seen through one command, whatever else happens on the
connection in between, what it reports is the start and then one end before each callback; a connection that does
not monitor reports nothing. With `Cmap/Completion.lean` there is at most one end.
-/
import MongoDriver.Cmap.Completion

namespace MongoDriver.Cmap.Write

variable {δ : Type}

/-! ## What is reported of one command -/

/-- The command that an event of command monitoring or a callback is about. -/
def Effect.subject : Effect δ → Option Nat
  | .commandStarted ticket => some ticket
  | .commandSucceeded ticket => some ticket
  | .commandFailed ticket => some ticket
  | .callback ticket _ => some ticket
  | _ => none

/-- A command ends badly with an error, or with a reply that says so. -/
def Completion.failed (completion : Completion δ) : Bool :=
  completion.error.isSome || completion.result.any CommandResult.failed

/-- What a command is to begin with. -/
def Config.started (config : Config) (ticket : Nat) : List (Effect δ) :=
  if config.monitorCommands then [.commandStarted ticket] else []

/-- What a command is to end with. -/
def Config.finished (config : Config) (ticket : Nat) (completion : Completion δ) : List (Effect δ) :=
  if !config.monitorCommands then [.callback ticket completion]
  else if completion.failed then [.commandFailed ticket, .callback ticket completion]
  else [.commandSucceeded ticket, .callback ticket completion]

theorem subject_started {config : Config} {ticket : Nat} {effect : Effect δ} (h : effect ∈ config.started ticket) :
    effect.subject = some ticket := by
  unfold Config.started at h
  split at h
  · obtain rfl := List.mem_singleton.1 h
    rfl
  · cases h

theorem subject_finished {config : Config} {ticket : Nat} {completion : Completion δ} {effect : Effect δ}
    (h : effect ∈ config.finished ticket completion) : effect.subject = some ticket := by
  unfold Config.finished at h
  split at h
  · obtain rfl := List.mem_singleton.1 h
    rfl
  · split at h
    all_goals
      rcases List.mem_cons.1 h with rfl | h
      · rfl
      · obtain rfl := List.mem_singleton.1 h
        rfl

namespace Conn

variable {conn conn' : Conn δ} {config : Config} {ticket : Nat}

/-- What was seen of one command. -/
def about (conn : Conn δ) (ticket : Nat) : List (Effect δ) :=
  conn.trace.filter fun effect => effect.subject = some ticket

theorem about_emit (effects : List (Effect δ)) : (conn.emit effects).about ticket =
    conn.about ticket ++ effects.filter fun effect => effect.subject = some ticket := List.filter_append ..

theorem about_emit_self {effects : List (Effect δ)} (h : ∀ effect ∈ effects, effect.subject = some ticket) :
    (conn.emit effects).about ticket = conn.about ticket ++ effects := by
  rw [about_emit, List.filter_eq_self.2 fun effect he => decide_eq_true (h effect he)]

theorem about_emit_other {effects : List (Effect δ)} (h : ∀ effect ∈ effects, effect.subject ≠ some ticket) :
    (conn.emit effects).about ticket = conn.about ticket := by
  rw [about_emit, List.filter_eq_nil_iff.2 fun effect he => by simpa using h effect he, List.append_nil]

/-- The command is queued, held or compressed. -/
def Holds (conn : Conn δ) (ticket : Nat) : Prop :=
  (∃ op ∈ conn.queue.values, op.ticket = ticket) ∨ (∃ paused ∈ conn.paused, paused.ticket = ticket) ∨
    ∃ entry ∈ conn.compressing, entry.1.ticket = ticket

/-- Every command that was written has its account, and no other was heard of. -/
structure Accounted (config : Config) (conn : Conn δ) : Prop where
  settings : conn.config = config
  known : ∀ ticket, conn.Holds ticket → ticket < conn.calls.length
  account : ∀ ticket, ticket < conn.calls.length → ∃ completions : List (Completion δ),
    conn.about ticket = config.started ticket ++ completions.flatMap (config.finished ticket)
  unheard : ∀ ticket, conn.calls.length ≤ ticket → conn.about ticket = []

/-! ## The functions of a connection -/

/-- Nothing is reported, and no unknown command comes in. -/
theorem Accounted.frame (h : Accounted config conn) (hconfig : conn'.config = conn.config)
    (hcalls : conn'.calls = conn.calls) (htrace : ∀ ticket, conn'.about ticket = conn.about ticket)
    (hholds : ∀ ticket, conn'.Holds ticket → conn.Holds ticket ∨ ticket < conn.calls.length) :
    Accounted config conn' := by
  refine ⟨hconfig.trans h.settings, fun t ht => ?_, fun t ht => ?_, fun t ht => ?_⟩
  · rw [hcalls]
    rcases hholds t ht with ht | ht
    · exact h.known t ht
    · exact ht
  · rw [htrace]
    exact h.account t (hcalls ▸ ht)
  · rw [htrace]
    exact h.unheard t (hcalls ▸ ht)

theorem Accounted.emit (h : Accounted config conn) {effects : List (Effect δ)}
    (hquiet : ∀ effect ∈ effects, effect.subject = none) : Accounted config (conn.emit effects) := by
  refine h.frame rfl rfl (fun t => ?_) fun t ht => .inl ht
  exact about_emit_other fun effect he heq => by rw [hquiet effect he] at heq; cases heq

theorem original_eq (conn : Conn δ) (ticket : Nat) (completion : Completion δ) :
    conn.original ticket completion = conn.emit (conn.config.finished ticket completion) := by
  unfold original Config.finished Completion.failed
  cases conn.config.monitorCommands with
  | false => rfl
  | true =>
    simp only [if_true, Bool.not_true, Bool.false_eq_true, if_false]
    split <;> rfl

/-- A callback is one more end. -/
theorem Accounted.original (h : Accounted config conn) (ht : ticket < conn.calls.length)
    (completion : Completion δ) : Accounted config (conn.original ticket completion) := by
  rw [original_eq, h.settings]
  refine ⟨h.settings, h.known, fun u hu => ?_, fun u hu => ?_⟩
  · obtain ⟨completions, habout⟩ := h.account u hu
    by_cases htu : ticket = u
    · subst htu
      refine ⟨completions ++ [completion], ?_⟩
      rw [about_emit_self fun effect => subject_finished, habout, List.flatMap_append, List.flatMap_singleton,
        List.append_assoc]
    · refine ⟨completions, ?_⟩
      rw [about_emit_other fun effect he heq => htu ?_, habout]
      exact Option.some.inj ((subject_finished he).symm.trans heq)
  · rw [about_emit_other fun effect he heq => ?_]
    · exact h.unheard u hu
    · have htu : ticket = u := Option.some.inj ((subject_finished he).symm.trans heq)
      have hlt : u < conn.calls.length := htu ▸ ht
      exact absurd hu (Nat.not_le_of_lt hlt)

theorem Accounted.newCallback (h : Accounted config conn) (ht : ticket < conn.calls.length)
    (completion : Completion δ) : Accounted config (conn.newCallback ticket completion) := by
  unfold Conn.newCallback
  split
  · exact h.original ht _
  · split
    · refine h.frame rfl rfl (fun _ => rfl) fun u hu => ?_
      rcases hu with hu | ⟨paused, hmem, rfl⟩ | hu
      · exact .inl (.inl hu)
      · rcases List.mem_append.1 hmem with hmem | hmem
        · exact .inl (.inr (.inl ⟨paused, hmem, rfl⟩))
        · obtain rfl := List.mem_singleton.1 hmem
          exact .inr ht
      · exact .inl (.inr (.inr hu))
    · exact h.original ht _

theorem Accounted.enqueue (h : Accounted config conn) {requestId : Int} {op : OperationDescription}
    (ht : op.ticket < conn.calls.length) : Accounted config (conn.enqueue requestId op) := by
  have hemit : Accounted config (conn.emit [.queueSet requestId]) := h.emit fun effect he => by
    obtain rfl := List.mem_singleton.1 he
    rfl
  refine hemit.frame rfl rfl (fun _ => rfl) fun u hu => ?_
  rcases hu with ⟨op', hmem, rfl⟩ | hu
  · rcases List.mem_cons.1 ((conn.queue.values_set requestId op).mem_iff.1 hmem) with rfl | hmem
    · exact .inr ht
    · exact .inl (.inl ⟨op', (conn.queue.values_erase_sublist requestId).subset hmem, rfl⟩)
  · exact .inl (.inr hu)

theorem Accounted.dequeue (h : Accounted config conn) (requestId : Int) :
    Accounted config (conn.dequeue requestId) := by
  have hemit : Accounted config (conn.emit [.queueDelete requestId]) := h.emit fun effect he => by
    obtain rfl := List.mem_singleton.1 he
    rfl
  refine hemit.frame rfl rfl (fun _ => rfl) fun u hu => ?_
  rcases hu with ⟨op', hmem, rfl⟩ | hu
  · exact .inl (.inl ⟨op', (conn.queue.values_erase_sublist requestId).subset hmem, rfl⟩)
  · exact .inl (.inr hu)

/-- A write that goes on: what it does after the queue, in each of its four outcomes. -/
theorem Accounted.continueWrite (h : Accounted config conn) {call : WriteCall δ} {op : OperationDescription}
    (hop : op.ticket = ticket) (ht : ticket < conn.calls.length) :
    Accounted config (conn.continueWrite ticket call op) := by
  have hqueue : Accounted config (if !op.noResponse then conn.enqueue op.requestId op else conn) ∧
      (if !op.noResponse then conn.enqueue op.requestId op else conn).calls = conn.calls := by
    split
    · exact ⟨h.enqueue (hop ▸ ht), rfl⟩
    · exact ⟨h, rfl⟩
  unfold Conn.continueWrite
  simp only
  generalize (if !op.noResponse then conn.enqueue op.requestId op else conn) = c at hqueue ⊢
  obtain ⟨hc, hcalls⟩ := hqueue
  rw [← hcalls] at ht
  have hlast : ∀ {d : Conn δ}, Accounted config d → d.calls = c.calls →
      Accounted config (if op.noResponse then d.newCallback ticket {} else d) := by
    intro d hd hdc
    split
    · exact hd.newCallback (hdc ▸ ht) _
    · exact hd
  split
  · split
    · exact (hc.dequeue op.requestId).newCallback ht _
    · exact hc.newCallback ht _
  · rename_i data _
    refine hlast (hc.emit fun effect he => ?_) rfl
    obtain rfl := List.mem_singleton.1 he
    rfl
  · exact hlast (hc.newCallback ht _) (newCallback_calls ..)
  · rename_i opCode length _
    refine hlast (hc.frame rfl rfl (fun _ => rfl) fun u hu => ?_) rfl
    rcases hu with hu | hu | ⟨entry, hmem, rfl⟩
    · exact .inl (.inl hu)
    · exact .inl (.inr (.inl hu))
    · rcases List.mem_append.1 hmem with hmem | hmem
      · exact .inl (.inr (.inr ⟨entry, hmem, rfl⟩))
      · obtain rfl := List.mem_singleton.1 hmem
        exact .inr (show op.ticket < c.calls.length by rw [hop]; exact ht)

/-- A new command has its start. -/
theorem Accounted.describe (h : Accounted config conn) (call : WriteCall δ) :
    Accounted config (conn.describe conn.calls.length call).1 := by
  have htimeout : ∀ effect ∈ (call.socketTimeoutMS.toList.map Effect.setTimeout : List (Effect δ)),
      effect.subject = none := by
    intro effect he
    obtain ⟨ms, -, rfl⟩ := List.mem_map.1 he
    rfl
  have habout : ∀ u, (conn.describe conn.calls.length call).1.about u =
      conn.about u ++ (config.started conn.calls.length).filter fun effect => effect.subject = some u := by
    intro u
    have heffects : (conn.describe conn.calls.length call).1 = ({ conn with calls := conn.calls ++ [call] } : Conn δ).emit
        (call.socketTimeoutMS.toList.map .setTimeout ++ conn.config.started conn.calls.length) := rfl
    have hnone : (call.socketTimeoutMS.toList.map Effect.setTimeout : List (Effect δ)).filter
        (fun effect => effect.subject = some u) = [] := List.filter_eq_nil_iff.2 fun effect he => by
      rw [htimeout effect he]
      simp
    rw [heffects, about_emit, List.filter_append, hnone, h.settings]
    rfl
  have hlength : (conn.describe conn.calls.length call).1.calls.length = conn.calls.length + 1 := List.length_append
  refine ⟨h.settings, fun u hu => ?_, fun u hu => ?_, fun u hu => ?_⟩
  · rw [hlength]
    exact Nat.lt_succ_of_lt (h.known u hu)
  · rw [hlength] at hu
    by_cases hlast : u = conn.calls.length
    · subst hlast
      refine ⟨[], ?_⟩
      rw [habout, h.unheard _ le_rfl, List.nil_append, List.filter_eq_self.2 fun effect he => ?_]
      · exact (List.append_nil _).symm
      · exact decide_eq_true (subject_started he)
    · obtain ⟨completions, hold⟩ := h.account u (by omega)
      refine ⟨completions, ?_⟩
      rw [habout, List.filter_eq_nil_iff.2 fun effect he => ?_, List.append_nil, hold]
      rw [subject_started he]
      simpa using Ne.symm hlast
  · rw [hlength] at hu
    rw [habout, h.unheard u (by omega), List.nil_append, List.filter_eq_nil_iff]
    intro effect he
    rw [subject_started he]
    simp only [Option.some.injEq, decide_eq_true_eq]
    omega

theorem Accounted.write (h : Accounted config conn) (call : WriteCall δ) : Accounted config (conn.write call) := by
  have hd := h.describe call
  have hlt : conn.calls.length < (conn.describe conn.calls.length call).1.calls.length := by
    show conn.calls.length < (conn.calls ++ [call]).length
    simp
  unfold Conn.write
  simp only
  split
  · refine hd.frame rfl rfl (fun _ => rfl) fun u hu => ?_
    rcases hu with hu | ⟨paused, hmem, rfl⟩ | hu
    · exact .inl (.inl hu)
    · rcases List.mem_append.1 hmem with hmem | hmem
      · exact .inl (.inr (.inl ⟨paused, hmem, rfl⟩))
      · obtain rfl := List.mem_singleton.1 hmem
        exact .inr hlt
    · exact .inl (.inr (.inr hu))
  · exact hd.continueWrite rfl hlt

theorem Accounted.messageHandler (h : Accounted config conn) (message : Incoming δ) :
    Accounted config (conn.messageHandler current message) := by
  have hmessage : Accounted config (conn.emit [.message]) := h.emit fun effect he => by
    obtain rfl := List.mem_singleton.1 he
    rfl
  unfold Conn.messageHandler
  simp only
  split
  · exact hmessage
  · rename_i op hop
    have hlt : op.ticket < conn.calls.length :=
      hmessage.known _ (.inl ⟨op, OrderedMap.mem_values.2 ⟨_, hop⟩, rfl⟩)
    -- the reply takes its command off the queue, or puts it back under another id
    have hrequeue : Accounted config ((conn.emit [.message]).requeue op message) ∧
        ((conn.emit [.message]).requeue op message).calls = conn.calls := by
      have hdequeue := hmessage.dequeue message.responseTo
      unfold requeue
      simp only
      split
      · exact ⟨hdequeue.enqueue hlt, rfl⟩
      · split
        · refine ⟨hdequeue.emit fun effect he => ?_, rfl⟩
          obtain rfl := List.mem_singleton.1 he
          rfl
        · exact ⟨hdequeue, rfl⟩
    generalize (conn.emit [.message]).requeue op message = c at hrequeue ⊢
    obtain ⟨hc, hcalls⟩ := hrequeue
    rw [← hcalls] at hlt
    unfold deliver
    split
    · rename_i error _
      exact hc.newCallback hlt { error := some (.any error) }
    · rename_i document _
      refine Accounted.newCallback (hc.emit fun effect he => ?_) hlt (outcome op message document)
      split at he
      · cases he
      · rcases List.mem_append.1 he with he | he
        · split at he
          · obtain rfl := List.mem_singleton.1 he
            rfl
          · cases he
        · split at he
          · obtain rfl := List.mem_singleton.1 he
            rfl
          · cases he

theorem Accounted.callBackAll (error : AnyError) : ∀ {ops : List OperationDescription} {c : Conn δ},
    Accounted config c → (∀ op ∈ ops, op.ticket < c.calls.length) →
      Accounted config (ops.foldl (fun c op => c.newCallback op.ticket { error := some (.any error) }) c)
  | [], _, h, _ => h
  | op :: ops, c, h, hops => by
    rw [List.foldl_cons]
    refine Accounted.callBackAll error (h.newCallback (hops op (List.mem_cons_self ..)) _) fun op' hop' => ?_
    rw [newCallback_calls]
    exact hops op' (List.mem_cons_of_mem _ hop')

theorem Accounted.handleIssue (h : Accounted config conn) (issue : Issue) :
    Accounted config (conn.handleIssue current issue) := by
  unfold Conn.handleIssue
  split
  · exact h
  · have hshut : Accounted config (conn.shut issue) := by
      refine Accounted.frame (h.emit fun effect he => ?_) rfl rfl (fun _ => rfl) fun u hu => .inl hu
      split at he
      · cases he
      · obtain rfl := List.mem_singleton.1 he
        rfl
    have hall : Accounted config ((conn.shut issue).callBackAll current (conn.issueError issue)) :=
      Accounted.callBackAll (conn.issueError issue) hshut fun op hop => h.known _ (.inl ⟨op, hop, rfl⟩)
    have hclear : Accounted config
        { (conn.shut issue).callBackAll current (conn.issueError issue) with queue := .empty } := by
      refine hall.frame rfl rfl (fun _ => rfl) fun u hu => ?_
      rcases hu with ⟨op, hmem, -⟩ | hu
      · cases hmem
      · exact .inl (.inr hu)
    refine hclear.emit fun effect he => ?_
    rcases List.mem_cons.1 he with rfl | he
    · rfl
    · obtain rfl := List.mem_singleton.1 he
      rfl

theorem Accounted.resume (h : Accounted config conn) {paused : Paused δ} (ht : paused.ticket < conn.calls.length)
    (error : Option AnyError) (updatedResult : Option (CommandResult δ)) :
    Accounted config (conn.resume paused error updatedResult) := by
  unfold Conn.resume
  split
  · exact h.original ht _
  · split
    · exact h
    · exact h.continueWrite rfl ht
  · exact h.original ht _
  · exact h.original ht _

theorem step_accounted {e : Event δ} (h : Accounted config conn) (hstep : conn.step current e = some conn') :
    Accounted config conn' := by
  cases e with
  | write call => cases hstep; exact h.write call
  | message message => cases hstep; exact h.messageHandler message
  | issue issue => cases hstep; exact h.handleIssue issue
  | compressed k result =>
    obtain ⟨⟨op, opCode, length⟩, hk, rfl⟩ := Option.map_eq_some_iff.1 hstep
    have hmem := List.mem_of_getElem? hk
    have ht : op.ticket < conn.calls.length := h.known _ (.inr (.inr ⟨_, hmem, rfl⟩))
    have herase : Accounted config { conn with compressing := conn.compressing.eraseIdx k } := by
      refine h.frame rfl rfl (fun _ => rfl) fun u hu => .inl ?_
      rcases hu with hu | hu | ⟨entry, hentry, rfl⟩
      · exact .inl hu
      · exact .inr (.inl hu)
      · exact .inr (.inr ⟨entry, (List.eraseIdx_sublist ..).subset hentry, rfl⟩)
    show Accounted config (Conn.compressed _ _ _ _ _ _)
    unfold compressed
    split
    · exact herase.newCallback ht _
    · refine herase.emit fun effect he => ?_
      obtain rfl := List.mem_singleton.1 he
      rfl
  | resume k error updatedResult =>
    obtain ⟨paused, hk, rfl⟩ := Option.map_eq_some_iff.1 hstep
    have ht : paused.ticket < conn.calls.length := h.known _ (.inr (.inl ⟨_, List.mem_of_getElem? hk, rfl⟩))
    have herase : Accounted config { conn with paused := conn.paused.eraseIdx k } := by
      refine h.frame rfl rfl (fun _ => rfl) fun u hu => .inl ?_
      rcases hu with hu | ⟨paused, hpaused, rfl⟩ | hu
      · exact .inl hu
      · exact .inr (.inl ⟨paused, (List.eraseIdx_sublist ..).subset hpaused, rfl⟩)
      · exact .inr (.inr hu)
    exact herase.resume ht error updatedResult
  | capture isCommandCapturing =>
    cases hstep
    exact h.frame rfl rfl (fun _ => rfl) fun u hu => .inl hu

/-! ## Runs -/

theorem subject_called {effect : Effect δ} (h : Effect.called effect = some ticket) : effect.subject = some ticket := by
  cases effect with
  | callback u completion => exact h
  | _ => cases h

/-- How often a command was called back can be read off what was seen of it. -/
theorem count_called (ticket : Nat) : ∀ effects : List (Effect δ), (effects.filterMap Effect.called).count ticket =
    ((effects.filter fun effect => effect.subject = some ticket).filterMap Effect.called).count ticket
  | [] => rfl
  | effect :: effects => by
    have ih := count_called ticket effects
    by_cases hsubject : effect.subject = some ticket
    · have hkept : decide (effect.subject = some ticket) = true := decide_eq_true hsubject
      simp only [List.filter_cons, hkept, if_true]
      rw [List.filterMap_cons, List.filterMap_cons]
      split
      · exact ih
      · rw [List.count_cons, List.count_cons, ih]
    · have hdropped : decide (effect.subject = some ticket) = false := decide_eq_false hsubject
      simp only [List.filter_cons, hdropped, Bool.false_eq_true, if_false]
      rw [List.filterMap_cons, ← ih]
      split
      · rfl
      · rename_i u hu
        have hne : u ≠ ticket := by
          rintro rfl
          exact hsubject (subject_called hu)
        exact List.count_cons_of_ne hne

theorem called_started (config : Config) (ticket : Nat) :
    (config.started ticket : List (Effect δ)).filterMap Effect.called = [] := by
  unfold Config.started
  split <;> rfl

theorem called_finished (config : Config) (ticket : Nat) (completion : Completion δ) :
    (config.finished ticket completion).filterMap Effect.called = [ticket] := by
  unfold Config.finished
  split
  · rfl
  · split <;> rfl

theorem called_account (config : Config) (ticket : Nat) : ∀ completions : List (Completion δ),
    (completions.flatMap (config.finished ticket)).filterMap Effect.called =
      List.replicate completions.length ticket
  | [] => rfl
  | completion :: completions => by
    rw [List.flatMap_cons, List.filterMap_append, called_finished, called_account config ticket completions]
    rfl

/-- In every run of a connection, what is seen of a command is its start, and then, for each call of its callback,
one end that says how it went, right before it. -/
theorem monitoring_brackets_callbacks (config : Config) {es : List (Event δ)} {conn : Conn δ}
    (hrun : Run.exec (step current) { config } es = some conn) (hticket : ticket < conn.calls.length) :
    ∃ completions : List (Completion δ),
      conn.about ticket = config.started ticket ++ completions.flatMap (config.finished ticket) ∧
      conn.called.count ticket = completions.length := by
  have hinit : Accounted config ({ config } : Conn δ) := by
    refine ⟨rfl, fun u hu => ?_, fun u hu => (nomatch hu), fun u _ => rfl⟩
    rcases hu with ⟨op, hop, -⟩ | ⟨paused, hpaused, -⟩ | ⟨entry, hentry, -⟩
    · cases hop
    · cases hpaused
    · cases hentry
  have h : Accounted config conn := Run.exec_inv (step current) (fun c e c' hc hs => step_accounted hc hs) hinit hrun
  obtain ⟨completions, habout⟩ := h.account ticket hticket
  refine ⟨completions, habout, ?_⟩
  have hcount := count_called ticket conn.trace
  rw [show conn.trace.filter (fun effect => effect.subject = some ticket) = _ from habout, List.filterMap_append,
    called_started, List.nil_append, called_account, List.count_replicate_self] at hcount
  exact hcount

section Monitored

private def ping : WriteCall Unit where
  requestId := 7
  message := .msg ()
  commandName := some "ping"
  toBin := .ok (List.replicate 32 0)

/-- A monitored command whose reply says that it failed. -/
private def refusedPing : List (Event Unit) :=
  [.write ping, .message { requestId := 1, responseTo := 7, parsed := .ok (some { document := (), notOk := true }) }]

theorem refused_ping_reported : ∃ conn, Run.exec (step current) { config := { monitorCommands := true } } refusedPing =
    some conn ∧ ∃ completions : List (Completion Unit),
      conn.about 0 = Config.started { monitorCommands := true } 0 ++
        completions.flatMap (Config.finished { monitorCommands := true } 0) ∧
      conn.called.count 0 = completions.length := by
  obtain ⟨conn, hrun, hwritten⟩ : ∃ conn, Run.exec (step current) { config := { monitorCommands := true } }
      refusedPing = some conn ∧ 0 < conn.calls.length := ⟨_, rfl, Nat.zero_lt_one⟩
  exact ⟨conn, hrun, monitoring_brackets_callbacks _ hrun hwritten⟩

end Monitored

end Conn

end MongoDriver.Cmap.Write
