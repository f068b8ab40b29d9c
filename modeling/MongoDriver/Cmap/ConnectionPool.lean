/-
The connection pool (`src/cmap/connection_pool.ts`) as a machine. Connecting is asynchronous: an
attempt starts in one event and ends in another. A pass over the wait queue is one synchronous run of
`processWaitQueue`, but the callbacks it calls may use the pool, so each turn of its loop is an event
and only calls of the pool's methods can come between two turns.
-/
import MongoDriver.Cmap.Connection

namespace MongoDriver.Cmap

/-- The options the modelled functions read; zero stands for no limit. -/
structure PoolOptions where
  maxPoolSize : Nat := 100
  minPoolSize : Nat := 0
  maxIdleTimeMS : Nat := 0
  loadBalanced : Bool := false

/-- A `WaitQueueMember`. -/
structure WaitQueueMember where
  id : Nat
  cancelled : Bool := false
deriving DecidableEq

/-- A connection that is being established, for a waiting member or to reach the minimum size. -/
structure Attempt where
  id : Nat
  generation : Nat
  forMember : Bool
deriving DecidableEq

/-- What a checkout callback receives. -/
inductive Answer
  | connection (id : Nat)
  | poolClosed
  | timedOut
  | connectFailed
deriving DecidableEq

/-- `ConnectionPool`. `looping` tells that a pass is inside its loop, `ticks` counts the scheduled
passes, `inUse` holds the connections that are checked out. -/
structure ConnectionPool where
  connections : List Connection := []
  permits : Int
  waitQueue : List WaitQueueMember := []
  processingWaitQueue : Bool := false
  looping : Bool := false
  ticks : Nat := 0
  attempts : List Attempt := []
  inUse : List Connection := []
  checkedOut : Int := 0
  generations : Generations := {}
  connectionCounter : Nat := 1
  closed : Bool := false
  answers : List (Nat × Answer) := []

/-- The constructor. -/
def ConnectionPool.new (options : PoolOptions) : ConnectionPool :=
  { permits := options.maxPoolSize, generations := { loadBalanced := options.loadBalanced } }

namespace ConnectionPool

/-- `totalConnectionCount`. -/
def totalConnectionCount (options : PoolOptions) (pool : ConnectionPool) : Int :=
  pool.connections.length + (options.maxPoolSize - pool.permits)

def answer (pool : ConnectionPool) (member : Nat) (a : Answer) : ConnectionPool :=
  { pool with answers := pool.answers ++ [(member, a)] }

/-- `process.nextTick(processWaitQueue, pool)`. -/
def nextTick (pool : ConnectionPool) : ConnectionPool := { pool with ticks := pool.ticks + 1 }

/-- `createConnection` up to its asynchronous part. -/
def createConnection (pool : ConnectionPool) (forMember : Bool) : ConnectionPool :=
  { pool with
    permits := pool.permits - 1
    attempts := pool.attempts ++ [⟨pool.connectionCounter, pool.generations.generation, forMember⟩]
    connectionCounter := pool.connectionCounter + 1 }

/-- `destroyConnection`. -/
def destroyConnection (pool : ConnectionPool) : ConnectionPool := { pool with permits := pool.permits + 1 }

/-- `connectionIsIdle`. -/
def connectionIsIdle (options : PoolOptions) (idleTime : Nat) : Bool :=
  options.maxIdleTimeMS ≠ 0 && idleTime > options.maxIdleTimeMS

/-! ## Methods -/

def checkOut (pool : ConnectionPool) (member : Nat) : ConnectionPool :=
  if pool.closed then pool.answer member .poolClosed
  else nextTick { pool with
    checkedOut := pool.checkedOut + 1
    waitQueue := pool.waitQueue ++ [{ id := member }] }

/-- `checkIn` of a connection that is checked out. -/
def checkIn (pool : ConnectionPool) (connection : Connection) : ConnectionPool :=
  let willDestroy := pool.closed || connectionIsStale pool.generations connection || connection.closed
  let pool := { pool with inUse := pool.inUse.erase connection, checkedOut := pool.checkedOut - 1 }
  let pool :=
    if willDestroy then pool.destroyConnection else { pool with connections := connection :: pool.connections }
  pool.nextTick

/-- `clear(serviceId)`, which may throw. -/
def clear (pool : ConnectionPool) (serviceId : Option ObjectId) : ConnectionPool :=
  match pool.generations.clear serviceId with
  | .ok generations => { pool with generations }
  | .error _ => pool

/-- `close` up to the destruction of the available connections. -/
def close (pool : ConnectionPool) : ConnectionPool :=
  if pool.closed then pool
  else { pool with
    waitQueue := []
    answers := pool.answers ++ (pool.waitQueue.reverse.filter (!·.cancelled)).map fun m => (m.id, .poolClosed)
    closed := true }

/-! ## The minimum size -/

/-- `ensureMinPoolSize`. The loop starts from the total count and counts up. -/
def ensureMinPoolSize (options : PoolOptions) (pool : ConnectionPool) : ConnectionPool :=
  if pool.closed || options.minPoolSize = 0 then pool
  else (List.range ((options.minPoolSize : Int) - pool.totalConnectionCount options).toNat).foldl
    (fun pool _ => pool.createConnection false) pool

/-! ## A pass over the wait queue -/

/-- The first lines of `processWaitQueue`. -/
def startPass (pool : ConnectionPool) : ConnectionPool :=
  if pool.closed || pool.processingWaitQueue then pool
  else { pool with processingWaitQueue := true, looping := true }

/-- The lines of `processWaitQueue` after the loop. -/
def finishPass (options : PoolOptions) (pool : ConnectionPool) : ConnectionPool :=
  let pool := { pool with looping := false }
  if pool.waitQueue ≠ [] ∧
      (options.maxPoolSize = 0 ∨ pool.totalConnectionCount options < (options.maxPoolSize : Int)) then
    pool.createConnection true
  else { pool with processingWaitQueue := false }

/-- One turn of the loop. `idleTime` is the idle time of the connection it takes. -/
def turn (options : PoolOptions) (pool : ConnectionPool) (idleTime : Nat) : ConnectionPool :=
  match pool.waitQueue with
  | [] => pool.finishPass options
  | member :: rest =>
    if member.cancelled then { pool with waitQueue := rest }
    -- a member that cannot be served stays at the front
    else match pool.connections with
      | [] => pool.finishPass options
      | connection :: available =>
        let unusable := connectionIsStale pool.generations connection || connectionIsIdle options idleTime ||
          connection.closed
        if unusable then destroyConnection { pool with connections := available }
        else answer { pool with
          connections := available
          waitQueue := rest
          inUse := connection :: pool.inUse } member.id (.connection connection.id)

/-! ## The end of an attempt -/

/-- The callback a pass gives to `createConnection`, for a connection or for a failure: the member at
the front is answered, if it has not been cancelled, and another pass is scheduled. -/
def memberCallback (pool : ConnectionPool) (result : Option Connection) : ConnectionPool :=
  match pool.waitQueue with
  | [] => { pool with connections := pool.connections ++ result.toList, processingWaitQueue := false }
  | member :: rest =>
    -- the cancelled member is shifted, and no pass is scheduled for the others
    if member.cancelled then
      { pool with
        waitQueue := rest
        connections := pool.connections ++ result.toList
        processingWaitQueue := false }
    else
      let pool := { pool with waitQueue := rest, inUse := result.toList ++ pool.inUse }
      let pool := pool.answer member.id (match result with
        | some connection => .connection connection.id
        | none => .connectFailed)
      nextTick { pool with processingWaitQueue := false }

/-- The rest of `createConnection` when connecting failed. -/
def connectFailed (pool : ConnectionPool) (attempt : Attempt) : ConnectionPool :=
  let pool := { pool with permits := pool.permits + 1, attempts := pool.attempts.erase attempt }
  if attempt.forMember then pool.memberCallback none else pool

/-- The rest of `createConnection` when connecting succeeded. -/
def connected (pool : ConnectionPool) (attempt : Attempt) (serviceId : Option ObjectId) : ConnectionPool :=
  let pool := { pool with attempts := pool.attempts.erase attempt }
  -- the connection is destroyed without giving back its permit
  if pool.closed then pool
  else
    let (generations, connection) :=
      pool.generations.adopt { id := attempt.id, generation := attempt.generation, serviceId }
    let pool := { pool with generations }
    if attempt.forMember then pool.memberCallback (some connection)
    else nextTick { pool with connections := pool.connections ++ [connection] }

/-- A wait-queue timeout. -/
def timeOut (pool : ConnectionPool) (member : Nat) : ConnectionPool :=
  answer { pool with
    waitQueue := pool.waitQueue.map fun m => if m.id = member then { m with cancelled := true } else m }
    member .timedOut

/-- A connection is closed from outside, wherever it is. -/
def closeConnection (pool : ConnectionPool) (id : Nat) : ConnectionPool :=
  let mark := fun c : Connection => if c.id = id then { c with closed := true } else c
  { pool with connections := pool.connections.map mark, inUse := pool.inUse.map mark }

end ConnectionPool

open ConnectionPool

inductive PoolEvent
  | checkOut (member : Nat)
  | checkIn (connection : Connection)
  | clear (serviceId : Option ObjectId)
  | close
  | closeConnection (id : Nat)
  | turn (idleTime : Nat)
  | tick
  | timeOut (member : Nat)
  | connected (attempt : Attempt) (serviceId : Option ObjectId)
  | connectFailed (attempt : Attempt)
  | ensureMinPoolSize
  | connectionsDestroyed

/-- One event. The pool's methods can be called at any time, the turns belong to a running pass, and
everything else waits for its end. A connection is checked in only while it is checked out. -/
def poolStep (options : PoolOptions) (pool : ConnectionPool) : PoolEvent → Option ConnectionPool
  | .checkOut member => some (pool.checkOut member)
  | .checkIn connection => if connection ∈ pool.inUse then some (pool.checkIn connection) else none
  | .clear serviceId => some (pool.clear serviceId)
  | .close => some pool.close
  | .closeConnection id => some (pool.closeConnection id)
  | .turn idleTime => if pool.looping then some (pool.turn options idleTime) else none
  | .tick =>
    if pool.looping = false ∧ 0 < pool.ticks then some (startPass { pool with ticks := pool.ticks - 1 }) else none
  | .timeOut member =>
    if pool.looping = false ∧ ∃ m ∈ pool.waitQueue, m.id = member ∧ m.cancelled = false then some (pool.timeOut member)
    else none
  | .connected attempt serviceId =>
    if pool.looping = false ∧ attempt ∈ pool.attempts then some (pool.connected attempt serviceId) else none
  | .connectFailed attempt =>
    if pool.looping = false ∧ attempt ∈ pool.attempts then some (pool.connectFailed attempt) else none
  | .ensureMinPoolSize => if pool.looping = false then some (pool.ensureMinPoolSize options) else none
  | .connectionsDestroyed =>
    if pool.looping = false ∧ pool.closed then some { pool with connections := [] } else none

/-- Everything a step can do, with what it requires. -/
inductive PoolStep (options : PoolOptions) (pool : ConnectionPool) : PoolEvent → ConnectionPool → Prop
  | checkOut (member : Nat) : PoolStep options pool (.checkOut member) (pool.checkOut member)
  | checkIn {connection : Connection} (hmem : connection ∈ pool.inUse) :
    PoolStep options pool (.checkIn connection) (pool.checkIn connection)
  | clear (serviceId : Option ObjectId) : PoolStep options pool (.clear serviceId) (pool.clear serviceId)
  | close : PoolStep options pool .close pool.close
  | closeConnection (id : Nat) : PoolStep options pool (.closeConnection id) (pool.closeConnection id)
  | turn (idleTime : Nat) (hloop : pool.looping = true) :
    PoolStep options pool (.turn idleTime) (pool.turn options idleTime)
  | tick (hloop : pool.looping = false) (hticks : 0 < pool.ticks) :
    PoolStep options pool .tick (startPass { pool with ticks := pool.ticks - 1 })
  | timeOut (member : Nat) (hloop : pool.looping = false) :
    PoolStep options pool (.timeOut member) (pool.timeOut member)
  | connected {attempt : Attempt} (serviceId : Option ObjectId) (hloop : pool.looping = false)
    (hmem : attempt ∈ pool.attempts) :
    PoolStep options pool (.connected attempt serviceId) (pool.connected attempt serviceId)
  | connectFailed {attempt : Attempt} (hloop : pool.looping = false) (hmem : attempt ∈ pool.attempts) :
    PoolStep options pool (.connectFailed attempt) (pool.connectFailed attempt)
  | ensureMinPoolSize (hloop : pool.looping = false) :
    PoolStep options pool .ensureMinPoolSize (pool.ensureMinPoolSize options)
  | connectionsDestroyed (hclosed : pool.closed = true) :
    PoolStep options pool .connectionsDestroyed { pool with connections := [] }

theorem poolStep_cases {options : PoolOptions} {pool pool' : ConnectionPool} {e : PoolEvent}
    (h : poolStep options pool e = some pool') : PoolStep options pool e pool' := by
  cases e with
  | checkOut member => cases h; exact .checkOut member
  | checkIn connection =>
    simp only [poolStep] at h
    split at h <;> cases h
    exact .checkIn ‹_›
  | clear serviceId => cases h; exact .clear serviceId
  | close => cases h; exact .close
  | closeConnection id => cases h; exact .closeConnection id
  | turn idleTime =>
    simp only [poolStep] at h
    split at h <;> cases h
    exact .turn idleTime ‹_›
  | tick =>
    simp only [poolStep] at h
    split at h <;> cases h
    rename_i hg
    exact .tick hg.1 hg.2
  | timeOut member =>
    simp only [poolStep] at h
    split at h <;> cases h
    rename_i hg
    exact .timeOut member hg.1
  | connected attempt serviceId =>
    simp only [poolStep] at h
    split at h <;> cases h
    rename_i hg
    exact .connected serviceId hg.1 hg.2
  | connectFailed attempt =>
    simp only [poolStep] at h
    split at h <;> cases h
    rename_i hg
    exact .connectFailed hg.1 hg.2
  | ensureMinPoolSize =>
    simp only [poolStep] at h
    split at h <;> cases h
    exact .ensureMinPoolSize ‹_›
  | connectionsDestroyed =>
    simp only [poolStep] at h
    split at h <;> cases h
    rename_i hg
    exact .connectionsDestroyed hg.2

end MongoDriver.Cmap
