/-
Commands on a connection (`write`, `messageHandler` and `Connection.handleIssue` of `src/cmap/connection.ts`,
`writeCommand` of `src/cmap/message_stream.ts`): a command is put on the queue under its request id and pushed
to the message stream, and its callback is called by a reply, by a failure or when the connection closes.
The capture hooks of `src/querypie` may hold a command before it is written and its result before it is passed
on. `write` is modelled twice: as it is, and as the code it replaced, which the source keeps in a comment. A
callback runs to its end before the next event.
-/
import MongoDriver.Cmap.Commands
import MongoDriver.Cmap.MessageStream
import MongoDriver.Base.OrderedMap
import MongoDriver.Querypie.Pause

namespace MongoDriver.Cmap.Write

open Querypie (WriteProtocolMessage)

/-! ## Data -/

/-- The compressors a connection can agree on. -/
inductive CompressorName
  | none
  | snappy
  | zlib
deriving DecidableEq

/-- `Compressor[name]`. -/
def CompressorName.id : CompressorName → Nat
  | none => 0
  | snappy => 1
  | zlib => 2

/-- A call of `write`: the command with what serializes it, and the options that are read. -/
structure WriteCall (δ : Type) where
  requestId : Int
  message : WriteProtocolMessage δ
  /-- the first key of the command document -/
  commandName : Option String := none
  /-- `Buffer.concat(command.toBin())` -/
  toBin : Except AnyError Buffer
  /-- the id of `options.session` -/
  session : Option String := none
  noPause : Bool := false
  noResponse : Bool := false
  fullResult : Bool := false
  command : Bool := false
  socketTimeoutMS : Option Nat := none

/-- `OperationDescription`, of the `write` call `ticket`, whose callback `cb` is. -/
structure OperationDescription where
  ticket : Nat
  requestId : Int
  fullResult : Bool
  noResponse : Bool
  command : Bool
  session : Bool
  socketTimeoutOverride : Bool
  agreedCompressor : CompressorName
deriving DecidableEq

/-- What is read of the first document of a reply. -/
structure ReplyDocument (δ : Type) where
  document : δ
  /-- `ok === 0` -/
  notOk : Bool := false
  writeConcernError : Bool := false
  /-- `$err` -/
  err : Bool := false
  errmsg : Bool := false
  code : Bool := false
  clusterTime : Bool := false

/-- What is read of a message. `parsed` is the outcome of `parse` and the first document. -/
structure Incoming (δ : Type) where
  requestId : Int
  responseTo : Int
  moreToCome : Bool := false
  parsed : Except AnyError (Option (ReplyDocument δ))

/-- An error a command ends with. -/
inductive CommandError (δ : Type)
  | any (error : AnyError)
  | mongoServerError (document : δ)
  | mongoWriteConcernError (document : δ)

/-- A result: the first document, or the whole message. -/
inductive CommandResult (δ : Type)
  | document (document : ReplyDocument δ)
  | message (message : Incoming δ)

/-- The arguments of a callback. -/
structure Completion (δ : Type) where
  error : Option (CommandError δ) := none
  result : Option (CommandResult δ) := none

/-- Why a connection ends: an error of the message stream, the stream closes, a timeout. -/
inductive Issue
  | error (error : AnyError)
  | isClose
  | isTimeout

/-- What is seen of a connection, in order. -/
inductive Effect (δ : Type)
  | queueSet (requestId : Int)
  | queueDelete (requestId : Int)
  | queueClear
  | push (data : Buffer)
  | setTimeout (ms : Nat)
  | destroy
  | close
  | message
  | clusterTimeReceived
  | updateSession (ticket : Nat)
  | commandStarted (ticket : Nat)
  | commandSucceeded (ticket : Nat)
  | commandFailed (ticket : Nat)
  | callback (ticket : Nat) (completion : Completion δ)

/-- A continuation that the pause manager holds: of a write, of a result. -/
inductive Paused (δ : Type)
  | pre (op : OperationDescription)
  | post (ticket : Nat) (result : Option (CommandResult δ))

def Paused.ticket {δ : Type} : Paused δ → Nat
  | pre op => op.ticket
  | post ticket _ => ticket

/-- The settings of a connection. -/
structure Config where
  id : Nat := 0
  address : String := ""
  socketTimeoutMS : Nat := 0
  monitorCommands : Bool := false
  compressor : CompressorName := .none
  /-- the error of a `Snappy` that is not installed -/
  snappyModuleError : Option AnyError := none
  /-- the handshake is not over -/
  beforeHandshake : Bool := false

/-- A `Connection`, with the calls of `write` so far, what others hold of it, and what was seen. -/
structure Conn (δ : Type) where
  config : Config := {}
  closed : Bool := false
  queue : OrderedMap Int OperationDescription := .empty
  calls : List (WriteCall δ) := []
  isCommandCapturing : Bool := false
  paused : List (Paused δ) := []
  /-- the commands whose compressor runs, with the opcode and the length of the message -/
  compressing : List (OperationDescription × Int × Nat) := []
  trace : List (Effect δ) := []

variable {δ : Type}

/-- The reply that command monitoring reports as failed. -/
def CommandResult.failed : CommandResult δ → Bool
  | document d => d.notOk || d.err
  | message _ => false

namespace Conn

variable (conn : Conn δ)

def emit (effects : List (Effect δ)) : Conn δ := { conn with trace := conn.trace ++ effects }

/-! ## Callbacks -/

/-- The callback given to `write`, which command monitoring wraps. -/
def original (ticket : Nat) (completion : Completion δ) : Conn δ :=
  let monitoring : List (Effect δ) :=
    if conn.config.monitorCommands then
      if completion.error.isSome || completion.result.any CommandResult.failed then [.commandFailed ticket]
      else [.commandSucceeded ticket]
    else []
  conn.emit (monitoring ++ [.callback ticket completion])

/-- `waitOnProtocol` holds the command: of the pause of a session, and for a `Msg`; without a session
nothing is held. -/
def pauses (ticket : Nat) : Bool :=
  conn.calls[ticket]?.any fun call => !call.noPause && conn.isCommandCapturing && call.session.isSome &&
    match call.message with
    | .msg _ => true
    | _ => false

/-- The callback `write` puts in its place: an error is passed on, a result is offered to the pause
manager first. -/
def newCallback (ticket : Nat) (completion : Completion δ) : Conn δ :=
  match completion.error with
  | some error => conn.original ticket { error := some error }
  | none =>
    if conn.pauses ticket then { conn with paused := conn.paused ++ [.post ticket completion.result] }
    else conn.original ticket { error := completion.error, result := completion.result }

/-! ## Writing a command -/

/-- What `writeCommand` does before it returns. -/
inductive Written
  | threw (error : AnyError)
  | pushed (data : Buffer)
  | failed (error : AnyError)
  | compressing (opCode : Int) (length : Nat)

def uncompressibleCommands : List String :=
  ["ismaster", "saslStart", "saslContinue", "getnonce", "authenticate", "createUser", "updateUser", "copydbSaslStart",
    "copydbgetnonce", "copydb"]

/-- The `TypeError` of `Object.keys(undefined)`: a legacy message has no `query`. -/
def noCommandDocument : AnyError := { cls := .typeError, message := "Cannot convert undefined or null to object" }

/-- `canCompress(command)`. -/
def canCompress (call : WriteCall δ) : Except AnyError Bool :=
  match call.message with
  | .getMore | .killCursor => .error noCommandDocument
  | .query | .msg _ => .ok (call.commandName.all (!uncompressibleCommands.contains ·))

/-- `writeCommand` up to the compressor, which `Snappy` answers at once when it is not installed. -/
def compressOrPush (call : WriteCall δ) (op : OperationDescription) : Except AnyError Written := do
  if op.agreedCompressor = .none then
    return .pushed (← call.toBin)
  if !(← canCompress call) then
    return .pushed (← call.toBin)
  let data ← call.toBin
  let opCode ← readInt32LE data 12
  match op.agreedCompressor, conn.config.snappyModuleError with
  | .snappy, some error => return .failed error
  | _, _ => return .compressing opCode (data.length - 16)

/-- `writeCommand(command, operationDescription)`. -/
def writeCommand (call : WriteCall δ) (op : OperationDescription) : Written :=
  match conn.compressOrPush call op with
  | .error error => .threw error
  | .ok written => written

/-- `write` up to the place where the two versions differ. -/
def describe (ticket : Nat) (call : WriteCall δ) : Conn δ × OperationDescription :=
  let op : OperationDescription :=
    { ticket
      requestId := call.requestId
      fullResult := call.fullResult
      noResponse := call.noResponse
      command := call.command
      session := call.session.isSome
      socketTimeoutOverride := call.socketTimeoutMS.isSome
      agreedCompressor := conn.config.compressor }
  let timeout : List (Effect δ) := call.socketTimeoutMS.toList.map .setTimeout
  let monitoring : List (Effect δ) := if conn.config.monitorCommands then [.commandStarted ticket] else []
  (({ conn with calls := conn.calls ++ [call] }).emit (timeout ++ monitoring), op)

def enqueue (requestId : Int) (op : OperationDescription) : Conn δ :=
  { conn.emit [.queueSet requestId] with queue := conn.queue.set requestId op }

def dequeue (requestId : Int) : Conn δ :=
  { conn.emit [.queueDelete requestId] with queue := conn.queue.erase requestId }

/-- The code that `write` had: the callback given to it is called directly. -/
def oldWrite (call : WriteCall δ) : Conn δ :=
  let ticket := conn.calls.length
  let (conn, op) := conn.describe ticket call
  let conn := if !op.noResponse then conn.enqueue op.requestId op else conn
  match conn.writeCommand call op with
  | .threw error =>
    if !op.noResponse then (conn.dequeue op.requestId).original ticket { error := some (.any error) }
    else conn.original ticket {}
  | .pushed data =>
    let conn := conn.emit [.push data]
    if op.noResponse then conn.original ticket {} else conn
  | .failed error =>
    let conn := conn.original ticket { error := some (.any error) }
    if op.noResponse then conn.original ticket {} else conn
  | .compressing opCode length =>
    let conn := { conn with compressing := conn.compressing ++ [(op, opCode, length)] }
    if op.noResponse then conn.original ticket {} else conn

/-- The continuation of `write` after the command may have been held. -/
def continueWrite (ticket : Nat) (call : WriteCall δ) (op : OperationDescription) : Conn δ :=
  let conn := if !op.noResponse then conn.enqueue op.requestId op else conn
  match conn.writeCommand call op with
  | .threw error =>
    if !op.noResponse then (conn.dequeue op.requestId).newCallback ticket { error := some (.any error) }
    else conn.newCallback ticket {}
  | .pushed data =>
    let conn := conn.emit [.push data]
    if op.noResponse then conn.newCallback ticket {} else conn
  | .failed error =>
    let conn := conn.newCallback ticket { error := some (.any error) }
    if op.noResponse then conn.newCallback ticket {} else conn
  | .compressing opCode length =>
    let conn := { conn with compressing := conn.compressing ++ [(op, opCode, length)] }
    if op.noResponse then conn.newCallback ticket {} else conn

/-- `write(conn, command, options, callback)`. -/
def write (call : WriteCall δ) : Conn δ :=
  let ticket := conn.calls.length
  let (conn, op) := conn.describe ticket call
  if conn.pauses ticket then { conn with paused := conn.paused ++ [.pre op] }
  else conn.continueWrite ticket call op

/-! ## What comes back -/

/-- A version of `write`: the function, and the callback it puts into the operation description. -/
structure Version (δ : Type) where
  write : Conn δ → WriteCall δ → Conn δ
  cb : Conn δ → Nat → Completion δ → Conn δ

def old : Version δ := ⟨oldWrite, original⟩

def current : Version δ := ⟨write, newCallback⟩

variable (v : Version δ)

/-- The completion of a command with the first document of its reply. -/
def outcome (op : OperationDescription) (message : Incoming δ) (document : Option (ReplyDocument δ)) : Completion δ :=
  let done : Completion δ := { result := if op.fullResult then some (.message message) else document.map .document }
  match document with
  | none => done
  | some d =>
    if op.command then
      if d.writeConcernError then { error := some (.mongoWriteConcernError d.document) }
      else if d.notOk || d.err || d.errmsg || d.code then { error := some (.mongoServerError d.document) }
      else done
    else if d.notOk || d.err || d.errmsg then { error := some (.mongoServerError d.document) }
    else done

/-- The queue after a reply: an exhaust reply names the request the next one answers. -/
def requeue (op : OperationDescription) (message : Incoming δ) : Conn δ :=
  let conn := conn.dequeue message.responseTo
  if message.moreToCome then conn.enqueue message.requestId op
  else if op.socketTimeoutOverride then conn.emit [.setTimeout conn.config.socketTimeoutMS]
  else conn

/-- The reply is parsed and the command called back. -/
def deliver (op : OperationDescription) (message : Incoming δ) : Conn δ :=
  match message.parsed with
  | .error error => v.cb conn op.ticket { error := some (.any error) }
  | .ok document =>
    let seen : List (Effect δ) := match document with
      | none => []
      | some d => (if op.session then [.updateSession op.ticket] else []) ++
          (if d.clusterTime then [.clusterTimeReceived] else [])
    v.cb (conn.emit seen) op.ticket (outcome op message document)

/-- `messageHandler(conn)(message)`. -/
def messageHandler (message : Incoming δ) : Conn δ :=
  let conn := conn.emit [.message]
  match conn.queue.get? message.responseTo with
  | none => conn
  | some op => (conn.requeue op message).deliver v op message

/-- The error each queued command is called back with. -/
def issueError (issue : Issue) : AnyError :=
  let who := "connection " ++ toString conn.config.id ++ " to " ++ conn.config.address
  match issue with
  | .isTimeout =>
    { cls := .mongoNetworkTimeoutError
      message := who ++ " timed out"
      beforeHandshake := conn.config.beforeHandshake }
  | .isClose => { cls := .mongoNetworkError, message := who ++ " closed" }
  | .error error => error

/-- The stream is destroyed, unless it closed by itself, and the connection is closed. -/
def shut (issue : Issue) : Conn δ :=
  let destroy : List (Effect δ) := match issue with
    | .isClose => []
    | _ => [.destroy]
  { conn.emit destroy with closed := true }

/-- Every command on the queue is called back. -/
def callBackAll (error : AnyError) : Conn δ :=
  conn.queue.values.foldl (fun c op => v.cb c op.ticket { error := some (.any error) }) conn

/-- `handleIssue(issue)`. -/
def handleIssue (issue : Issue) : Conn δ :=
  if conn.closed then conn
  else { (conn.shut issue).callBackAll v (conn.issueError issue) with queue := .empty }.emit [.queueClear, .close]

/-- The header and the details of a compressed message, which its body follows. -/
def compressedMessage (op : OperationDescription) (opCode : Int) (length : Nat) (body : Buffer) : Buffer :=
  writeInt32LE (16 + 9 + body.length) ++ writeInt32LE op.requestId ++ writeInt32LE 0 ++ writeInt32LE opCompressed ++
    writeInt32LE opCode ++ writeInt32LE length ++ [UInt8.ofNat op.agreedCompressor.id] ++ body

/-- The callback of `compress`, with an error or with nothing, or with the compressed message. -/
def compressed (op : OperationDescription) (opCode : Int) (length : Nat) (result : Except (Option AnyError) Buffer) :
    Conn δ :=
  match result with
  | .error error => v.cb conn op.ticket { error := error.map .any }
  | .ok body => conn.emit [.push (compressedMessage op opCode length body)]

/-- The pause manager lets a continuation go on: after an abort with its error, else with the result that
replaces the held one. -/
def resume (paused : Paused δ) (error : Option AnyError) (updatedResult : Option (CommandResult δ)) : Conn δ :=
  match paused, error with
  | .pre op, some error => conn.original op.ticket { error := some (.any error) }
  | .pre op, none =>
    match conn.calls[op.ticket]? with
    | none => conn
    | some call => conn.continueWrite op.ticket call op
  | .post ticket _, some error => conn.original ticket { error := some (.any error) }
  | .post ticket result, none => conn.original ticket { result := updatedResult <|> result }

/-! ## Events -/

inductive Event (δ : Type)
  | write (call : WriteCall δ)
  | message (message : Incoming δ)
  | issue (issue : Issue)
  /-- the `k`th running compressor calls back -/
  | compressed (k : Nat) (result : Except (Option AnyError) Buffer)
  /-- the `k`th held continuation goes on -/
  | resume (k : Nat) (error : Option AnyError) (updatedResult : Option (CommandResult δ))
  | capture (isCommandCapturing : Bool)

def step (conn : Conn δ) : Event δ → Option (Conn δ)
  | .write call => some (v.write conn call)
  | .message message => some (conn.messageHandler v message)
  | .issue issue => some (conn.handleIssue v issue)
  | .compressed k result => conn.compressing[k]?.map fun (op, opCode, length) =>
      { conn with compressing := conn.compressing.eraseIdx k }.compressed v op opCode length result
  | .resume k error updatedResult => conn.paused[k]?.map fun paused =>
      { conn with paused := conn.paused.eraseIdx k }.resume paused error updatedResult
  | .capture isCommandCapturing => some { conn with isCommandCapturing }

end Conn

end MongoDriver.Cmap.Write
