/-
Pooled connections and the generations that tell a stale one (`src/cmap/connection_pool.ts`). A pool
behind a load balancer counts one generation for each service; otherwise the pool has one.
-/
import MongoDriver.Base.OrderedMap
import MongoDriver.Error

namespace MongoDriver.Cmap

/-- What the pool reads of a `Connection`. -/
structure Connection where
  id : Nat
  generation : Nat
  serviceId : Option ObjectId := none
  closed : Bool := false
deriving DecidableEq

/-- The generation fields of a pool. A service is keyed by its id, of which the source uses the hex
text. -/
structure Generations where
  loadBalanced : Bool := false
  generation : Nat := 0
  serviceGenerations : OrderedMap ObjectId Nat := .empty

/-- `connectionIsStale(pool, connection)` of the pool. -/
def connectionIsStale (pool : Generations) (connection : Connection) : Bool :=
  match pool.loadBalanced, connection.serviceId with
  | true, some sid => some connection.generation ≠ pool.serviceGenerations.get? sid
  | _, _ => connection.generation ≠ pool.generation

def serviceGenerationRequired : AnyError :=
  { cls := .mongoRuntimeError, message := "Service generations are required in load balancer mode." }

/-- `clear(serviceId)`: no connection is touched, the generation they are compared with moves on. -/
def Generations.clear (pool : Generations) (serviceId : Option ObjectId) : Except AnyError Generations :=
  match pool.loadBalanced, serviceId with
  | true, some sid =>
    match pool.serviceGenerations.get? sid with
    | none => .error serviceGenerationRequired
    | some generation => .ok { pool with serviceGenerations := pool.serviceGenerations.set sid (generation + 1) }
  | _, _ => .ok { pool with generation := pool.generation + 1 }

/-- The generation an established connection is given: behind a load balancer it joins the current
generation of its service, which starts at zero. -/
def Generations.adopt (pool : Generations) (connection : Connection) : Generations × Connection :=
  match pool.loadBalanced, connection.serviceId with
  | true, some sid =>
    match pool.serviceGenerations.get? sid with
    | some (generation + 1) => (pool, { connection with generation := generation + 1 })
    | _ => ({ pool with serviceGenerations := pool.serviceGenerations.set sid 0 }, { connection with generation := 0 })
  | _, _ => (pool, connection)

end MongoDriver.Cmap
