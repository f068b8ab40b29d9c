/-
Who calls a command back. `handleIssue` empties the queue once, when the connection closes; a command that is
written on a closed connection, perhaps after it was held before, stays on the queue. And the callback of the
compressor calls a command back without taking it off the queue, so that a reply or the end of the connection
calls it back again. Apart from these two a command on a closed connection is not queued, and no command is
called back twice.
-/
import MongoDriver.Cmap.WriteRefinement
import Mathlib.Data.List.Perm.Basic

namespace MongoDriver.Cmap.Write

variable {δ : Type}

namespace Conn

variable {conn conn' : Conn δ}

/-! ## Closed connections -/

/-- Nothing is queued on a closed connection. -/
def Drained (conn : Conn δ) : Prop := conn.closed = true → conn.queue.keys = []

/-- The command expects a response and writing it does not throw. -/
def enters (conn : Conn δ) (call : WriteCall δ) (op : OperationDescription) : Bool :=
  !op.noResponse && match conn.writeCommand call op with
    | .threw _ => false
    | _ => true

/-- The event puts a command on the queue: one that is written and not held, or one that was held and goes
on. -/
def enqueues (conn : Conn δ) : Event δ → Bool
  | .write call =>
    let (c, op) := conn.describe conn.calls.length call
    !c.pauses conn.calls.length && c.enters call op
  | .resume k none _ =>
    match conn.paused[k]? with
    | some (.pre op) => conn.calls[op.ticket]?.any (conn.enters · op)
    | _ => false
  | _ => false

/-- No command is put on the queue of a closed connection. -/
def WritesOpen (conn : Conn δ) (e : Event δ) : Prop := conn.closed = true → conn.enqueues e = false

theorem current_cb : (current : Version δ).cb = newCallback := rfl

@[simp] theorem newCallback_queue (ticket : Nat) (completion : Completion δ) :
    (conn.newCallback ticket completion).queue = conn.queue := by
  unfold newCallback
  split
  · rfl
  · split <;> rfl

@[simp] theorem newCallback_closed (ticket : Nat) (completion : Completion δ) :
    (conn.newCallback ticket completion).closed = conn.closed := by
  unfold newCallback
  split
  · rfl
  · split <;> rfl

/-- `writeCommand` looks at the configuration of the connection only. -/
theorem writeCommand_enqueue (call : WriteCall δ) (op : OperationDescription) (requestId : Int) :
    (conn.enqueue requestId op).writeCommand call op = conn.writeCommand call op := rfl

/-- The queue after the continuation of a write. -/
theorem continueWrite_queue (ticket : Nat) (call : WriteCall δ) (op : OperationDescription) :
    (conn.continueWrite ticket call op).queue =
      if op.noResponse then conn.queue
      else if conn.enters call op then conn.queue.set op.requestId op else conn.queue.erase op.requestId := by
  unfold continueWrite
  cases hresponse : op.noResponse with
  | true =>
    simp only [Bool.not_true, Bool.false_eq_true, if_false, if_true]
    split <;> simp [emit]
  | false =>
    simp only [Bool.not_false, if_true, Bool.false_eq_true, if_false]
    rw [writeCommand_enqueue]
    unfold enters
    cases conn.writeCommand call op with
    | threw error => simp [hresponse, dequeue, enqueue, OrderedMap.erase_set]
    | pushed data => simp [hresponse, emit, enqueue]
    | failed error => simp [hresponse, enqueue]
    | compressing opCode length => simp [hresponse, enqueue]

@[simp] theorem continueWrite_closed (ticket : Nat) (call : WriteCall δ) (op : OperationDescription) :
    (conn.continueWrite ticket call op).closed = conn.closed := by
  unfold continueWrite
  cases op.noResponse with
  | true =>
    simp only [Bool.not_true, Bool.false_eq_true, if_false, if_true]
    split <;> simp [emit]
  | false =>
    simp only [Bool.not_false, if_true, Bool.false_eq_true, if_false]
    split <;> simp [emit, enqueue, dequeue]

/-- The continuation of a write keeps a closed connection drained exactly when it queues nothing. -/
theorem continueWrite_drained (h : conn.Drained) (ticket : Nat) (call : WriteCall δ) (op : OperationDescription) :
    (conn.continueWrite ticket call op).Drained ↔ (conn.closed = true → conn.enters call op = false) := by
  unfold Drained
  rw [continueWrite_closed, continueWrite_queue]
  refine forall_congr' fun hclosed => ?_
  have hempty := OrderedMap.keys_eq_nil.1 (h hclosed)
  split
  · rename_i hresponse
    exact iff_of_true (h hclosed) (by simp [enters, hresponse])
  · split
    · rename_i henters
      refine iff_of_false ?_ (by simp [henters])
      rw [OrderedMap.keys_eq_nil]
      intro hnone
      have := hnone op.requestId
      simp at this
    · rename_i henters
      refine iff_of_true ?_ (by simpa using henters)
      rw [OrderedMap.keys_eq_nil]
      intro k
      rw [OrderedMap.get?_erase, hempty]
      split <;> rfl

theorem requeue_closed (op : OperationDescription) (message : Incoming δ) :
    (conn.requeue op message).closed = conn.closed := by
  unfold requeue
  simp only
  split
  · rfl
  · split <;> rfl

theorem deliver_closed (op : OperationDescription) (message : Incoming δ) :
    (conn.deliver current op message).closed = conn.closed := by
  unfold deliver
  split
  · exact newCallback_closed ..
  · exact newCallback_closed ..

/-- A reply finds nothing on a queue that is empty. -/
theorem messageHandler_drained (h : conn.Drained) (message : Incoming δ) :
    (conn.messageHandler current message).Drained := by
  unfold messageHandler
  simp only
  split
  · exact h
  · rename_i op hop
    intro hclosed
    rw [deliver_closed, requeue_closed] at hclosed
    have hnone := OrderedMap.keys_eq_nil.1 (h hclosed) message.responseTo
    rw [show conn.queue.get? message.responseTo = some op from hop] at hnone
    cases hnone

theorem handleIssue_drained (h : conn.Drained) (issue : Issue) : (conn.handleIssue current issue).Drained := by
  unfold handleIssue
  split
  · exact h
  · exact fun _ => rfl

theorem compressed_drained (h : conn.Drained) (op : OperationDescription) (opCode : Int) (length : Nat)
    (result : Except (Option AnyError) Buffer) : (conn.compressed current op opCode length result).Drained := by
  unfold compressed
  split
  · unfold Drained
    rw [current_cb, newCallback_closed, newCallback_queue]
    exact h
  · exact h

/-- One event, from a connection that is drained if it is closed. -/
theorem step_drained {e : Event δ} (h : conn.Drained) (hstep : conn.step current e = some conn') :
    conn'.Drained ↔ conn.WritesOpen e := by
  cases e with
  | write call =>
    cases hstep
    show (conn.write call).Drained ↔ _
    have hd : (conn.describe conn.calls.length call).1.Drained := h
    unfold write WritesOpen enqueues
    simp only
    cases (conn.describe conn.calls.length call).1.pauses conn.calls.length with
    | true => exact iff_of_true hd fun _ => rfl
    | false => exact continueWrite_drained hd ..
  | message message =>
    cases hstep
    exact iff_of_true (messageHandler_drained h message) fun _ => rfl
  | issue issue =>
    cases hstep
    exact iff_of_true (handleIssue_drained h issue) fun _ => rfl
  | compressed k result =>
    obtain ⟨⟨op, opCode, length⟩, -, rfl⟩ := Option.map_eq_some_iff.1 hstep
    have hd : ({ conn with compressing := conn.compressing.eraseIdx k } : Conn δ).Drained := h
    exact iff_of_true (compressed_drained hd op opCode length result) fun _ => rfl
  | resume k error updatedResult =>
    obtain ⟨paused, hk, rfl⟩ := Option.map_eq_some_iff.1 hstep
    have hd : ({ conn with paused := conn.paused.eraseIdx k } : Conn δ).Drained := h
    cases error with
    | some error =>
      refine iff_of_true ?_ fun _ => rfl
      cases paused <;> exact hd
    | none =>
      cases paused with
      | post ticket result => exact iff_of_true hd fun _ => by simp [enqueues, hk]
      | pre op =>
        unfold WritesOpen enqueues resume
        cases hcall : conn.calls[op.ticket]? with
        | none => exact iff_of_true (by simpa [hcall] using hd) fun _ => by simp [hk, hcall]
        | some call =>
          simp only [hk, hcall, Option.any_some]
          exact continueWrite_drained hd op.ticket call op
  | capture isCommandCapturing =>
    refine iff_of_true ?_ fun _ => rfl
    cases hstep
    exact h

theorem mem_foldl_newCallback (error : AnyError) :
    ∀ (ops : List OperationDescription) (conn : Conn δ) (effect : Effect δ),
      (effect ∈ conn.trace ∨ ∃ op ∈ ops, effect = .callback op.ticket { error := some (.any error) }) →
      effect ∈ (ops.foldl (fun c op => c.newCallback op.ticket { error := some (.any error) }) conn).trace
  | [], _, _, h => by
    rcases h with h | ⟨op, hop, -⟩
    · exact h
    · cases hop
  | op :: ops, conn, effect, h => by
    refine mem_foldl_newCallback error ops _ effect ?_
    rcases h with h | ⟨op', hop, rfl⟩
    · exact .inl (List.mem_append_left _ h)
    · rcases List.mem_cons.1 hop with rfl | hop
      · exact .inl (List.mem_append_right _ (List.mem_append_right _ (List.mem_singleton_self _)))
      · exact .inr ⟨op', hop, rfl⟩

/-- The commands on the queue when a connection closes are all called back with the reason. -/
theorem handleIssue_calls (hopen : conn.closed = false) (issue : Issue) (op : OperationDescription)
    (hop : op ∈ conn.queue.values) :
    .callback op.ticket { error := some (.any (conn.issueError issue)) } ∈ (conn.handleIssue current issue).trace := by
  unfold handleIssue
  rw [if_neg (by simp [hopen])]
  refine List.mem_append_left _ ?_
  exact mem_foldl_newCallback _ _ _ _ (.inr ⟨op, hop, rfl⟩)

/-- For every run of a connection: nothing is ever queued on it while it is closed, exactly when no command
is written or goes on after a pause while it is closed, unless writing throws; and the commands that are
queued when it closes are called back. -/
theorem closed_drained_iff (config : Config) {es : List (Event δ)} {conn : Conn δ}
    (hrun : Run.exec (step current) { config } es = some conn) :
    ((∀ es₁ es₂ c, es = es₁ ++ es₂ → Run.exec (step current) { config } es₁ = some c → c.closed = true →
        c.queue.keys = []) ↔ Run.Meets (step current) WritesOpen { config } es) ∧
      ∀ issue, conn.closed = false → ∀ op ∈ conn.queue.values,
        .callback op.ticket { error := some (.any (conn.issueError issue)) } ∈
          (conn.handleIssue current issue).trace := by
  refine ⟨?_, fun issue hopen op hop => handleIssue_calls hopen issue op hop⟩
  have hinit : Drained ({ config } : Conn δ) := fun _ => rfl
  exact (Run.meets_iff (step current) (fun _ _ _ hs ht => step_drained hs ht) hinit hrun).symm

section Resumed

/-- A command that expects a response and may be held. -/
private def find : WriteCall Unit where
  requestId := 7
  message := .msg ()
  commandName := some "find"
  toBin := .ok (List.replicate 32 0)
  session := some "s"

private def failing : List (Event Unit) := [.write find, .issue .isClose]

/-- The command on the queue of a connection that closes is taken off it. -/
theorem find_drained : ∃ conn, Run.exec (step current) { config := {} } failing = some conn ∧ conn.closed = true ∧
    conn.queue.keys = [] := by
  have hopen : Run.Meets (step current) WritesOpen { config := {} } failing := by
    refine ⟨fun h => (nomatch h), fun conn hconn => ?_⟩
    cases hconn
    exact ⟨fun _ => rfl, fun _ _ => trivial⟩
  refine ⟨_, rfl, rfl, ?_⟩
  exact (closed_drained_iff {} rfl).1.2 hopen failing [] _ rfl rfl rfl

/-- A command is held, its connection closes, and it is queued when it goes on; nobody is called back. -/
theorem resumed_on_closed :
    (Run.exec (step current) { config := {} }
      [.capture true, .write find, .issue .isClose, .resume 0 none none]).map
        (fun conn => (conn.closed, conn.queue.keys, conn.trace.any fun
          | .callback _ _ => true
          | _ => false)) = some (true, [7], false) := by
  decide

end Resumed

/-! ## One completion for each command -/

/-- The commands on the queue. -/
def queued (conn : Conn δ) : List Nat := conn.queue.values.map OperationDescription.ticket

/-- The commands that are held. -/
def held (conn : Conn δ) : List Nat := conn.paused.map Paused.ticket

/-- The command an effect calls back. -/
def Effect.called : Effect δ → Option Nat
  | .callback ticket _ => some ticket
  | _ => none

/-- The commands that were called back. -/
def called (conn : Conn δ) : List Nat := conn.trace.filterMap Effect.called

/-- How often a command is on the queue, held, or called back. -/
def tally (conn : Conn δ) (ticket : Nat) : Nat :=
  conn.queued.count ticket + conn.held.count ticket + conn.called.count ticket

/-- Every command is in one place at most, and what is not written yet is nowhere. -/
def Single (conn : Conn δ) : Prop :=
  ∀ ticket, conn.tally ticket ≤ 1 ∧ (conn.calls.length ≤ ticket → conn.tally ticket = 0)

theorem tally_eq (conn conn' : Conn δ) (hq : conn'.queued = conn.queued) (hh : conn'.held = conn.held)
    (hc : conn'.called = conn.called) (u : Nat) : conn'.tally u = conn.tally u := by
  unfold tally
  rw [hq, hh, hc]

theorem called_emit (effects : List (Effect δ)) :
    (conn.emit effects).called = conn.called ++ effects.filterMap Effect.called :=
  List.filterMap_append

theorem tally_emit {effects : List (Effect δ)} (h : effects.filterMap Effect.called = []) (u : Nat) :
    (conn.emit effects).tally u = conn.tally u :=
  tally_eq conn (conn.emit effects) rfl rfl (by rw [called_emit, h, List.append_nil]) u

@[simp] theorem tally_original (ticket : Nat) (completion : Completion δ) (u : Nat) :
    (conn.original ticket completion).tally u = conn.tally u + [ticket].count u := by
  have hcalled : (conn.original ticket completion).called = conn.called ++ [ticket] := by
    unfold original
    rw [called_emit, List.filterMap_append]
    congr 1
    split
    · split <;> rfl
    · rfl
  unfold tally
  rw [hcalled, List.count_append, ← Nat.add_assoc]
  rfl

/-- A callback is called or held. -/
@[simp] theorem tally_newCallback (ticket : Nat) (completion : Completion δ) (u : Nat) :
    (conn.newCallback ticket completion).tally u = conn.tally u + [ticket].count u := by
  unfold newCallback
  split
  · exact tally_original ..
  · split
    · have hheld : ({ conn with paused := conn.paused ++ [.post ticket completion.result] } : Conn δ).held =
          conn.held ++ [ticket] := List.map_append
      unfold tally
      rw [hheld, List.count_append]
      show conn.queued.count u + (conn.held.count u + [ticket].count u) + conn.called.count u = _
      omega
    · exact tally_original ..

theorem tally_enqueue (conn : Conn δ) (requestId : Int) (op : OperationDescription) (u : Nat) :
    (conn.enqueue requestId op).tally u ≤ conn.tally u + [op.ticket].count u := by
  have hset : (conn.enqueue requestId op).queued.count u =
      ([op.ticket] ++ (conn.queue.erase requestId).values.map OperationDescription.ticket).count u :=
    ((conn.queue.values_set requestId op).map OperationDescription.ticket).count_eq u
  have herase : ((conn.queue.erase requestId).values.map OperationDescription.ticket).count u ≤ conn.queued.count u :=
    ((conn.queue.values_erase_sublist requestId).map OperationDescription.ticket).count_le u
  have hheld : (conn.enqueue requestId op).held = conn.held := rfl
  have hcalled : (conn.enqueue requestId op).called = conn.called :=
    (called_emit [.queueSet requestId]).trans (List.append_nil _)
  rw [List.count_append] at hset
  unfold tally
  rw [hset, hheld, hcalled]
  omega

/-- A command is taken off the queue. -/
theorem tally_dequeue {requestId : Int} {op : OperationDescription}
    (h : conn.queue.get? requestId = some op) (u : Nat) :
    (conn.dequeue requestId).tally u + [op.ticket].count u = conn.tally u := by
  have herase : conn.queued.count u = ([op.ticket] ++ (conn.dequeue requestId).queued).count u :=
    ((OrderedMap.values_erase h).map OperationDescription.ticket).count_eq u
  have hheld : (conn.dequeue requestId).held = conn.held := rfl
  have hcalled : (conn.dequeue requestId).called = conn.called :=
    (called_emit [.queueDelete requestId]).trans (List.append_nil _)
  rw [List.count_append] at herase
  unfold tally
  rw [herase, hheld, hcalled]
  omega

/-- A command is put on the queue and taken off it again. -/
theorem tally_enqueue_dequeue (conn : Conn δ) (requestId : Int) (op : OperationDescription) (u : Nat) :
    ((conn.enqueue requestId op).dequeue requestId).tally u ≤ conn.tally u := by
  have hset : (conn.enqueue requestId op).queue.get? requestId = some op := OrderedMap.get?_set_self ..
  have hle := tally_enqueue conn requestId op u
  have heq := tally_dequeue hset u
  omega

/-! ## Writing -/

/-- `writeCommand` calls the command back itself: `Snappy` is not installed. -/
def compressorFails (conn : Conn δ) (call : WriteCall δ) (op : OperationDescription) : Bool :=
  match conn.writeCommand call op with
  | .failed _ => true
  | _ => false

/-- The continuation of a write puts its command in one place, unless the compressor fails at once. -/
theorem tally_continueWrite {call : WriteCall δ} {op : OperationDescription} (h : conn.compressorFails call op = false)
    (u : Nat) : (conn.continueWrite op.ticket call op).tally u ≤ conn.tally u + [op.ticket].count u := by
  unfold continueWrite
  unfold compressorFails at h
  cases hresponse : op.noResponse with
  | true =>
    simp only [Bool.not_true, Bool.false_eq_true, if_false, if_true]
    cases hw : conn.writeCommand call op with
    | threw error => simp
    | pushed data =>
      simp only [tally_newCallback]
      rw [tally_emit rfl]
    | failed error => rw [hw] at h; cases h
    | compressing opCode length => simp only [tally_newCallback]; exact le_rfl
  | false =>
    simp only [Bool.not_false, if_true, Bool.false_eq_true, if_false]
    rw [writeCommand_enqueue]
    cases hw : conn.writeCommand call op with
    | threw error =>
      simp only [tally_newCallback]
      have := tally_enqueue_dequeue conn op.requestId op u
      omega
    | pushed data =>
      simp only
      rw [tally_emit rfl]
      exact tally_enqueue ..
    | failed error => rw [hw] at h; cases h
    | compressing opCode length => exact tally_enqueue conn op.requestId op u

/-! ## Events -/

/-- The condition: the compressor of no command fails, at once or later. -/
def Compresses (conn : Conn δ) : Event δ → Prop
  | .write call =>
    let d := conn.describe conn.calls.length call
    d.1.pauses conn.calls.length = false → d.1.compressorFails call d.2 = false
  | .resume k none _ => ∀ op call, conn.paused[k]? = some (.pre op) → conn.calls[op.ticket]? = some call →
      conn.compressorFails call op = false
  | .compressed _ result => ∃ body, result = .ok body
  | _ => True

/-- A reply is the last of its command. -/
def LastReply (_ : Conn δ) : Event δ → Prop
  | .message message => message.moreToCome = false
  | _ => True

theorem Single.of_le (h : conn.Single) (hcalls : conn'.calls.length = conn.calls.length)
    (htally : ∀ u, conn'.tally u ≤ conn.tally u) : conn'.Single := by
  intro u
  obtain ⟨hone, hnone⟩ := h u
  have hle := htally u
  refine ⟨by omega, fun hu => ?_⟩
  have := hnone (by omega)
  omega

/-- The calls of `write` are numbered in order, so the next one has been nowhere. -/
theorem Single.next (h : conn.Single) (hcalls : conn'.calls.length = conn.calls.length + 1)
    (htally : ∀ u, conn'.tally u ≤ conn.tally u + [conn.calls.length].count u) : conn'.Single := by
  intro u
  obtain ⟨hone, hnone⟩ := h u
  have hle := htally u
  rw [List.count_singleton] at hle
  by_cases hu : conn.calls.length = u
  · subst hu
    have := hnone le_rfl
    simp only [beq_self_eq_true, if_true] at hle
    exact ⟨by omega, fun hu => by omega⟩
  · simp only [beq_iff_eq, hu, if_false] at hle
    refine ⟨by omega, fun hu' => ?_⟩
    have := hnone (by omega)
    omega

@[simp] theorem newCallback_calls (ticket : Nat) (completion : Completion δ) :
    (conn.newCallback ticket completion).calls = conn.calls := by
  unfold newCallback
  split
  · rfl
  · split <;> rfl

theorem continueWrite_calls (ticket : Nat) (call : WriteCall δ) (op : OperationDescription) :
    (conn.continueWrite ticket call op).calls = conn.calls := by
  unfold continueWrite
  cases op.noResponse with
  | true =>
    simp only [Bool.not_true, Bool.false_eq_true, if_false, if_true]
    split <;> simp [emit]
  | false =>
    simp only [Bool.not_false, if_true, Bool.false_eq_true, if_false]
    split <;> simp [emit, enqueue, dequeue]

theorem tally_describe (ticket : Nat) (call : WriteCall δ) (u : Nat) :
    (conn.describe ticket call).1.tally u = conn.tally u := by
  have hcalled : (conn.describe ticket call).1.called = conn.called := by
    refine (called_emit _).trans ?_
    rw [List.filterMap_append]
    cases call.socketTimeoutMS <;> (simp only [Option.toList]; split <;> exact List.append_nil _)
  exact tally_eq conn (conn.describe ticket call).1 rfl rfl hcalled u

theorem write_single (h : conn.Single) {call : WriteCall δ} (hc : conn.Compresses (.write call)) :
    (conn.write call).Single := by
  unfold write
  simp only
  split
  · refine h.next (List.length_append ..) fun u => ?_
    have hheld : ∀ c : Conn δ, ({ c with paused := c.paused ++
        [.pre (conn.describe conn.calls.length call).2] } : Conn δ).tally u = c.tally u +
          [conn.calls.length].count u := by
      intro c
      unfold tally
      rw [show ∀ p, ({ c with paused := c.paused ++ [p] } : Conn δ).held = c.held ++ [p.ticket] from
        fun p => List.map_append, List.count_append]
      show c.queued.count u + (c.held.count u + [conn.calls.length].count u) + c.called.count u = _
      omega
    rw [hheld, tally_describe]
  · rename_i hpause
    have hfine := hc (by simpa using hpause)
    refine h.next ?_ fun u => ?_
    · rw [continueWrite_calls]
      exact List.length_append ..
    · have := tally_continueWrite hfine u
      rw [tally_describe] at this
      exact this

theorem messageHandler_single (h : conn.Single) {message : Incoming δ} (hlast : message.moreToCome = false) :
    (conn.messageHandler current message).Single := by
  unfold messageHandler
  simp only
  split
  · exact h.of_le rfl fun u => (tally_emit rfl u).le
  · rename_i op hop
    have hrequeue : ∀ u, ((conn.emit [.message]).requeue op message).tally u + [op.ticket].count u = conn.tally u := by
      intro u
      have hdequeue := tally_dequeue hop u
      rw [tally_emit rfl] at hdequeue
      unfold requeue
      simp only [hlast, Bool.false_eq_true, if_false]
      split
      · rw [tally_emit rfl]; exact hdequeue
      · exact hdequeue
    have hcalls : ((conn.emit [.message]).requeue op message).calls = conn.calls := by
      unfold requeue
      simp only [hlast, Bool.false_eq_true, if_false]
      split <;> rfl
    unfold deliver
    split
    · refine h.of_le ?_ fun u => ?_
      · rw [current_cb, newCallback_calls, hcalls]
      · rw [current_cb, tally_newCallback]
        exact (hrequeue u).le
    · rename_i document _
      refine h.of_le ?_ fun u => ?_
      · rw [current_cb, newCallback_calls]
        exact congrArg List.length hcalls
      · rw [current_cb, tally_newCallback, tally_emit ?_]
        · exact (hrequeue u).le
        · cases document with
          | none => rfl
          | some d => simp only; split <;> split <;> rfl

theorem foldl_tally (error : AnyError) :
    ∀ (ops : List OperationDescription) (conn : Conn δ) (u : Nat),
      (ops.foldl (fun c op => c.newCallback op.ticket { error := some (.any error) }) conn).tally u =
        conn.tally u + (ops.map OperationDescription.ticket).count u
  | [], _, _ => rfl
  | op :: ops, conn, u => by
    have hcons : ((op :: ops).map OperationDescription.ticket).count u =
        [op.ticket].count u + (ops.map OperationDescription.ticket).count u := by
      rw [← List.count_append]
      rfl
    rw [List.foldl_cons, foldl_tally error ops, tally_newCallback, hcons, Nat.add_assoc]

theorem foldl_frame (error : AnyError) :
    ∀ (ops : List OperationDescription) (conn : Conn δ),
      (ops.foldl (fun c op => c.newCallback op.ticket { error := some (.any error) }) conn).queue = conn.queue ∧
        (ops.foldl (fun c op => c.newCallback op.ticket { error := some (.any error) }) conn).calls = conn.calls
  | [], _ => ⟨rfl, rfl⟩
  | op :: ops, conn => by
    obtain ⟨hq, hc⟩ := foldl_frame error ops (conn.newCallback op.ticket { error := some (.any error) })
    exact ⟨hq.trans (newCallback_queue ..), hc.trans (newCallback_calls ..)⟩

theorem shut_tally (issue : Issue) (u : Nat) : (conn.shut issue).tally u = conn.tally u := by
  have hcalled : (conn.shut issue).called = conn.called := by
    refine (called_emit _).trans ?_
    cases issue <;> exact List.append_nil _
  exact tally_eq conn (conn.shut issue) rfl rfl hcalled u

theorem clear_tally (conn : Conn δ) (u : Nat) :
    ({ conn with queue := .empty } : Conn δ).tally u + conn.queued.count u = conn.tally u := by
  unfold tally
  show 0 + conn.held.count u + conn.called.count u + _ = _
  omega

/-- The queue is called back as a whole and then cleared. -/
theorem handleIssue_single (h : conn.Single) (issue : Issue) : (conn.handleIssue current issue).Single := by
  unfold handleIssue
  split
  · exact h
  · obtain ⟨hqueue, hcalls⟩ := foldl_frame (conn.issueError issue) (conn.shut issue).queue.values (conn.shut issue)
    refine h.of_le (congrArg List.length hcalls) fun u => ?_
    have htally : ((conn.shut issue).callBackAll current (conn.issueError issue)).tally u =
        (conn.shut issue).tally u + conn.queued.count u := foldl_tally ..
    have hqueued : ((conn.shut issue).callBackAll current (conn.issueError issue)).queued = conn.queued :=
      congrArg (fun q : OrderedMap Int OperationDescription => q.values.map OperationDescription.ticket) hqueue
    have hclear := clear_tally ((conn.shut issue).callBackAll current (conn.issueError issue)) u
    rw [hqueued, htally, shut_tally] at hclear
    exact (tally_emit rfl u).le.trans (Nat.add_right_cancel hclear).le

theorem erase_held {k : Nat} {p : Paused δ} (hk : conn.paused[k]? = some p) (u : Nat) :
    ({ conn with paused := conn.paused.eraseIdx k } : Conn δ).tally u + [p.ticket].count u = conn.tally u := by
  obtain ⟨hlt, rfl⟩ := List.getElem?_eq_some_iff.1 hk
  have hperm := ((List.getElem_cons_eraseIdx_perm hlt).map Paused.ticket).count_eq u
  have hcons : ((conn.paused[k] :: conn.paused.eraseIdx k).map Paused.ticket).count u =
      [conn.paused[k].ticket].count u + ((conn.paused.eraseIdx k).map Paused.ticket).count u := by
    rw [← List.count_append]
    rfl
  unfold tally held
  rw [← hperm, hcons]
  show conn.queued.count u + ((conn.paused.eraseIdx k).map Paused.ticket).count u + conn.called.count u + _ =
    conn.queued.count u + _ + conn.called.count u
  omega

/-- What was held goes on in one place. -/
theorem resume_single (h : conn.Single) {k : Nat} {error : Option AnyError}
    {updatedResult : Option (CommandResult δ)} {p : Paused δ} (hk : conn.paused[k]? = some p)
    (hc : conn.Compresses (.resume k error updatedResult)) :
    (({ conn with paused := conn.paused.eraseIdx k } : Conn δ).resume p error updatedResult).Single := by
  have herase := erase_held hk
  cases error with
  | some error =>
    cases p with
    | pre op => exact h.of_le rfl fun u => by rw [resume, tally_original]; exact (herase u).le
    | post ticket result => exact h.of_le rfl fun u => by rw [resume, tally_original]; exact (herase u).le
  | none =>
    cases p with
    | post ticket result => exact h.of_le rfl fun u => by rw [resume, tally_original]; exact (herase u).le
    | pre op =>
      unfold resume
      cases hcall : conn.calls[op.ticket]? with
      | none =>
        simp only [hcall]
        exact h.of_le rfl fun u => by have := herase u; omega
      | some call =>
        simp only [hcall]
        have hfine : ({ conn with paused := conn.paused.eraseIdx k } : Conn δ).compressorFails call op = false :=
          hc op call hk hcall
        refine h.of_le ?_ fun u => ?_
        · rw [continueWrite_calls]
        · exact (tally_continueWrite hfine u).trans (herase u).le

/-- One event. -/
theorem step_single {e : Event δ} (h : conn.Single) (hc : conn.Compresses e) (hlast : conn.LastReply e)
    (hstep : conn.step current e = some conn') : conn'.Single := by
  cases e with
  | write call => cases hstep; exact write_single h hc
  | message message => cases hstep; exact messageHandler_single h hlast
  | issue issue => cases hstep; exact handleIssue_single h issue
  | compressed k result =>
    obtain ⟨⟨op, opCode, length⟩, -, rfl⟩ := Option.map_eq_some_iff.1 hstep
    obtain ⟨body, rfl⟩ := hc
    exact h.of_le rfl fun u => (tally_emit rfl u).le
  | resume k error updatedResult =>
    obtain ⟨p, hk, rfl⟩ := Option.map_eq_some_iff.1 hstep
    exact resume_single h hk hc
  | capture isCommandCapturing => cases hstep; exact h

/-- For every run of a connection with final replies in which no compressor fails: the callback of each
`write` is called at most once. -/
theorem called_at_most_once (config : Config) {es : List (Event δ)} {conn : Conn δ}
    (hlast : Run.Meets (step current) LastReply { config } es)
    (hcompress : Run.Meets (step current) Compresses { config } es)
    (hrun : Run.exec (step current) { config } es = some conn) (ticket : Nat) : conn.called.count ticket ≤ 1 := by
  have hinit : Single ({ config } : Conn δ) := fun _ => ⟨Nat.zero_le _, fun _ => rfl⟩
  have hsingle : conn.Single := by
    refine Run.exec_inv_meets (step current) (fun s e t hs hc ht => ?_) hinit (Run.meets_and _ hlast hcompress) hrun
    exact step_single hs hc.2 hc.1 ht
  have := (hsingle ticket).1
  unfold tally at this
  omega

section Failing

/-- A command is compressed, answered, and its connection closes. -/
private def answered : List (Event Unit) :=
  [.write find, .compressed 0 (.ok [1]), .message
    { requestId := 1, responseTo := 7, parsed := .ok none }, .issue .isClose]

theorem find_called_once :
    (Run.exec (step current) { config := { compressor := .zlib } } answered).map called = some [0] ∧
      ∀ conn, Run.exec (step current) { config := { compressor := .zlib } } answered = some conn →
        conn.called.count 0 ≤ 1 := by
  refine ⟨by decide, fun conn hrun => called_at_most_once { compressor := .zlib } ?_ ?_ hrun 0⟩
  · refine ⟨trivial, fun conn hconn => ⟨trivial, fun conn hconn => ⟨rfl, fun conn hconn => ⟨trivial, ?_⟩⟩⟩⟩
    exact fun _ _ => trivial
  · refine ⟨fun _ => rfl, fun conn hconn => ⟨⟨_, rfl⟩, fun conn hconn => ⟨trivial, fun conn hconn => ⟨trivial, ?_⟩⟩⟩⟩
    exact fun _ _ => trivial

/-- The compressor fails, which calls the command back and leaves it on the queue; the connection closes, which
calls it back again. -/
theorem failed_compression_calls_twice :
    (Run.exec (step current) { config := { compressor := .zlib } }
      [.write find, .compressed 0 (.error (some { cls := .error, message := "unexpected end of file" })),
        .issue .isClose]).map called = some [0, 0] := by
  decide

end Failing

end Conn

end MongoDriver.Cmap.Write
