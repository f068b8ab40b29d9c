/-
The capture hooks in `write` change nothing for a command that they do not hold. Take any of the commands of a
connection, and let the code that `write` replaced handle these and `write` the others: as long as nothing is
captured when one of them is written or completed, or it carries `kNoPause`, the run is the same, with the same
queue, the same data pushed and the same calls of callbacks in the same order.
-/
import MongoDriver.Cmap.CommandWrite
import MongoDriver.Base.Run

namespace MongoDriver.Cmap.Write

variable {δ : Type}

namespace Conn

variable {conn conn' : Conn δ} {replaced : Nat → Bool}

/-! ## Replacing the code for some commands -/

/-- The old code for some of the commands, and the code as it is for the others. -/
def replacing (replaced : Nat → Bool) : Version δ where
  write conn call := if replaced conn.calls.length then conn.oldWrite call else conn.write call
  cb conn ticket completion :=
    if replaced ticket then conn.original ticket completion else conn.newCallback ticket completion

theorem replacing_all : (replacing fun _ => true : Version δ) = old := rfl

/-- Nothing is captured, or the command carries `kNoPause`. -/
def Exempt (conn : Conn δ) (call : WriteCall δ) : Prop := conn.isCommandCapturing = false ∨ call.noPause = true

/-- The command that the event writes, answers or compresses is not captured, if it is one of those. A failure of
the connection is passed on to every command, captured or not. -/
def NotCapturing (replaced : Nat → Bool) (conn : Conn δ) : Event δ → Prop
  | .write call => replaced conn.calls.length = true → conn.Exempt call
  | .message message => ∀ op call, conn.queue.get? message.responseTo = some op → replaced op.ticket = true →
      conn.calls[op.ticket]? = some call → conn.Exempt call
  | .compressed k _ => ∀ entry call, conn.compressing[k]? = some entry → replaced entry.1.ticket = true →
      conn.calls[entry.1.ticket]? = some call → conn.Exempt call
  | _ => True

theorem pauses_exempt {ticket : Nat} (h : ∀ call, conn.calls[ticket]? = some call → conn.Exempt call) :
    conn.pauses ticket = false := by
  unfold pauses
  cases hc : conn.calls[ticket]? with
  | none => rfl
  | some call =>
    rcases h call hc with h | h
    · simp [h]
    · simp [h]

/-- A callback that gets an error or a result is passed through. -/
theorem newCallback_eq {ticket : Nat} {completion : Completion δ} (h : conn.pauses ticket = false)
    (hc : completion.error.isSome = true → completion.result = none) :
    conn.newCallback ticket completion = conn.original ticket completion := by
  unfold newCallback
  rcases completion with ⟨_ | error, result⟩
  · simp [h]
  · have hr : result = none := hc rfl
    rw [hr]

/-- The callback of a command that is not held. -/
theorem cb_eq {ticket : Nat} {completion : Completion δ} (h : replaced ticket = true → conn.pauses ticket = false)
    (hc : completion.error.isSome = true → completion.result = none) :
    current.cb conn ticket completion = (replacing replaced).cb conn ticket completion := by
  show conn.newCallback ticket completion = if replaced ticket then _ else _
  split
  · rename_i hreplaced
    exact newCallback_eq (h hreplaced) hc
  · rfl

/-! ## Writing -/

/-- The continuation of a command that is not held is the old code. -/
theorem write_eq (call : WriteCall δ) (h : conn.Exempt call) : conn.write call = conn.oldWrite call := by
  -- whatever the write has changed so far, the command is not held
  have hpauses : ∀ c : Conn δ, c.calls = conn.calls ++ [call] → c.isCommandCapturing = conn.isCommandCapturing →
      c.pauses conn.calls.length = false := by
    intro c hcalls hcapture
    refine pauses_exempt fun call' hcall' => ?_
    rw [hcalls, List.getElem?_concat_length] at hcall'
    obtain rfl := Option.some.inj hcall'
    unfold Exempt
    rw [hcapture]
    exact h
  have hpass : ∀ (c : Conn δ) (completion : Completion δ), c.calls = conn.calls ++ [call] →
      c.isCommandCapturing = conn.isCommandCapturing → (completion.error.isSome = true → completion.result = none) →
      c.newCallback conn.calls.length completion = c.original conn.calls.length completion :=
    fun c completion hcalls hcapture hc => newCallback_eq (hpauses c hcalls hcapture) hc
  have hcalls : (conn.describe conn.calls.length call).1.calls = conn.calls ++ [call] := rfl
  have hcapture : (conn.describe conn.calls.length call).1.isCommandCapturing = conn.isCommandCapturing := rfl
  unfold write oldWrite
  simp only [hpauses _ hcalls hcapture, Bool.false_eq_true, if_false]
  unfold continueWrite
  generalize conn.describe conn.calls.length call = d at hcalls hcapture ⊢
  obtain ⟨c, op⟩ := d
  cases hresponse : op.noResponse with
  | false =>
    simp only [Bool.not_false, if_true, Bool.false_eq_true, if_false]
    split
    · exact hpass _ _ hcalls hcapture fun _ => rfl
    · rfl
    · exact hpass _ _ hcalls hcapture fun _ => rfl
    · rfl
  | true =>
    simp only [Bool.not_true, Bool.false_eq_true, if_false, if_true]
    split
    · exact hpass _ _ hcalls hcapture fun h => nomatch h
    · exact hpass _ _ hcalls hcapture fun h => nomatch h
    · rw [hpass _ _ hcalls hcapture fun _ => rfl]
      exact hpass _ _ hcalls hcapture fun h => nomatch h
    · exact hpass _ _ hcalls hcapture fun h => nomatch h

/-! ## Replies and failures -/

/-- A reply completes a command with an error or with a result. -/
theorem outcome_error {op : OperationDescription} {message : Incoming δ} {document : Option (ReplyDocument δ)}
    (h : (outcome op message document).error.isSome = true) : (outcome op message document).result = none := by
  revert h
  unfold outcome
  cases document with
  | none => exact fun h => nomatch h
  | some d =>
    simp only
    split
    · split
      · exact fun _ => rfl
      · split
        · exact fun _ => rfl
        · exact fun h => nomatch h
    · split
      · exact fun _ => rfl
      · exact fun h => nomatch h

theorem deliver_eq (op : OperationDescription) (message : Incoming δ)
    (h : replaced op.ticket = true → conn.pauses op.ticket = false) :
    conn.deliver current op message = conn.deliver (replacing replaced) op message := by
  unfold deliver
  split
  · exact cb_eq h fun _ => rfl
  · exact cb_eq h outcome_error

theorem requeue_pauses (op : OperationDescription) (message : Incoming δ) (ticket : Nat) :
    (conn.requeue op message).pauses ticket = conn.pauses ticket := by
  unfold requeue
  simp only
  split
  · rfl
  · split <;> rfl

theorem messageHandler_eq {message : Incoming δ} (h : conn.NotCapturing replaced (.message message)) :
    conn.messageHandler current message = conn.messageHandler (replacing replaced) message := by
  unfold messageHandler
  simp only
  split
  · rfl
  · rename_i op hop
    refine deliver_eq op message fun hreplaced => ?_
    rw [requeue_pauses]
    exact pauses_exempt fun call hcall => h op call hop hreplaced hcall

/-- When the connection fails each command gets the error, which is never held. -/
theorem handleIssue_eq (conn : Conn δ) (issue : Issue) :
    conn.handleIssue current issue = conn.handleIssue (replacing replaced) issue := by
  have hcb : ∀ (error : AnyError), (fun (c : Conn δ) (op : OperationDescription) =>
        current.cb c op.ticket { error := some (.any error) }) =
      fun c op => (replacing replaced).cb c op.ticket { error := some (.any error) } := by
    intro error
    funext c op
    have hpass : c.newCallback op.ticket { error := some (.any error) } =
        c.original op.ticket { error := some (.any error) } := rfl
    show c.newCallback op.ticket { error := some (.any error) } =
      if replaced op.ticket then c.original op.ticket { error := some (.any error) }
      else c.newCallback op.ticket { error := some (.any error) }
    rw [hpass, ite_self]
  unfold handleIssue callBackAll
  rw [hcb]

theorem compressed_eq (op : OperationDescription) (opCode : Int) (length : Nat)
    (result : Except (Option AnyError) Buffer) (h : replaced op.ticket = true → conn.pauses op.ticket = false) :
    conn.compressed current op opCode length result = conn.compressed (replacing replaced) op opCode length result := by
  unfold compressed
  split
  · exact cb_eq h fun _ => rfl
  · rfl

/-! ## Runs -/

/-- One event. -/
theorem step_eq {e : Event δ} (h : conn.NotCapturing replaced e) :
    conn.step current e = conn.step (replacing replaced) e := by
  cases e with
  | write call =>
    show some (conn.write call) = some (if replaced conn.calls.length then conn.oldWrite call else conn.write call)
    split
    · rename_i hreplaced
      rw [write_eq call (h hreplaced)]
    · rfl
  | message message => exact congrArg some (messageHandler_eq h)
  | issue issue => exact congrArg some (handleIssue_eq conn issue)
  | compressed k result =>
    simp only [step]
    cases hk : conn.compressing[k]? with
    | none => rfl
    | some entry =>
      refine congrArg some (compressed_eq _ _ _ _ fun hreplaced => ?_)
      exact pauses_exempt fun call hcall => h entry call hk hreplaced hcall
  | resume k error updatedResult => rfl
  | capture isCommandCapturing => rfl

/-- For every connection, every choice of commands on it, and every sequence of writes, replies, failures,
compressions, pauses of other commands and changes of the capture: when nothing is captured while one of these
commands is written or completed, or it carries `kNoPause`, then `write` behaves as if it were the old code for
these commands. The states are equal, with their queues and with the sequence of queue operations, pushes and
calls of callbacks. -/
theorem write_refines_old (replaced : Nat → Bool) (conn : Conn δ) (es : List (Event δ))
    (h : Run.Meets (step current) (NotCapturing replaced) conn es) :
    Run.exec (step current) conn es = Run.exec (step (replacing replaced)) conn es := by
  induction es generalizing conn with
  | nil => rfl
  | cons e es ih =>
    obtain ⟨hnot, hrest⟩ := h
    show (conn.step current e).bind _ = (conn.step (replacing replaced) e).bind _
    rw [← step_eq hnot]
    cases hstep : conn.step current e with
    | none => rfl
    | some conn' => exact ih conn' (hrest conn' hstep)

section Captured

/-- A command that carries `kNoPause`. -/
private def hello : WriteCall Unit where
  requestId := 7
  message := .msg ()
  toBin := .ok [1, 2, 3]
  session := some "s"
  noPause := true

/-- While a command without `kNoPause` is held, `hello` is written and answered. -/
private def helloWhileCapturing : List (Event Unit) :=
  [.capture true, .write hello, .write { hello with requestId := 8, noPause := false },
    .message { requestId := 1, responseTo := 7, parsed := .ok (some { document := () }) }]

theorem hello_refines_old :
    Run.exec (step current) { config := {} } helloWhileCapturing =
        Run.exec (step (replacing (· = 0))) { config := {} } helloWhileCapturing ∧
      (Run.exec (step current) { config := {} } helloWhileCapturing).map
        (fun conn => (conn.queue.keys, conn.paused.length, conn.trace.length)) = some ([], 1, 6) := by
  refine ⟨write_refines_old (· = 0) { config := {} } helloWhileCapturing ?_, by decide⟩
  refine .cons trivial rfl ?_
  refine .cons (fun _ => .inr rfl) rfl ?_
  refine .cons (fun h => absurd h (by decide)) rfl ?_
  refine ⟨fun op call hop hreplaced hcall => .inr ?_, fun _ _ => trivial⟩
  obtain rfl := Option.some.inj hop
  obtain rfl := Option.some.inj hcall
  rfl

end Captured

end Conn

end MongoDriver.Cmap.Write
