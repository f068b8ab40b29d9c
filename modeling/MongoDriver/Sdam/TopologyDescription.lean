/-
The client's view of a deployment (`src/sdam/topology_description.ts`): the description built by
the constructor, and `update`, which folds one server description into it through the cascade of
topology-type branches.
-/
import MongoDriver.Base.OrderedMap
import MongoDriver.Base.Run
import MongoDriver.Sdam.ServerDescription

namespace MongoDriver.Sdam

abbrev ServerMap := OrderedMap String ServerDescription

/-! ## The description and its derived fields -/

def minSupportedServerVersion : String := "3.6"
def maxSupportedServerVersion : String := "5.1"
def minSupportedWireVersion : Int := 6
def maxSupportedWireVersion : Int := 14

/-- `TopologyDescriptionOptions`, with the defaults filled in. -/
structure TopologyDescriptionOptions where
  heartbeatFrequencyMS : Nat := 0
  localThresholdMS : Nat := 0
deriving DecidableEq

/-- `TopologyDescription`. -/
structure TopologyDescription where
  type : TopologyType
  setName : Option String
  maxSetVersion : Option Int
  maxElectionId : Option ObjectId
  servers : ServerMap
  compatible : Bool
  compatibilityError : Option String
  logicalSessionTimeoutMinutes : Option Int
  options : TopologyDescriptionOptions
  commonWireVersion : Option Int

/-- The wire-version loop of the constructor: a server too new overwrites the error and the loop
goes on, one too old ends it. -/
def checkCompatibility : List ServerDescription → Bool × Option String → Bool × Option String
  | [], acc => acc
  | sd :: rest, acc =>
    if sd.type = .unknown ∨ sd.type = .loadBalancer then checkCompatibility rest acc
    else
      let acc :=
        if sd.minWireVersion > maxSupportedWireVersion then
          (false, some ("Server at " ++ sd.address ++ " requires wire version " ++ toString sd.minWireVersion ++
            ", but this version of the driver only supports up to " ++ toString maxSupportedWireVersion ++
            " (MongoDB " ++ maxSupportedServerVersion ++ ")"))
        else acc
      if sd.maxWireVersion < minSupportedWireVersion then
        (false, some ("Server at " ++ sd.address ++ " reports wire version " ++ toString sd.maxWireVersion ++
          ", but this version of the driver requires at least " ++ toString minSupportedWireVersion ++
          " (MongoDB " ++ minSupportedServerVersion ++ ")."))
      else checkCompatibility rest acc

/-- The session-timeout loop of the constructor: the smallest timeout of the readable servers, and
none as soon as one of them has none. -/
def commonSessionTimeout : List ServerDescription → Option Int → Option Int
  | [], acc => acc
  | sd :: rest, acc =>
    if sd.isReadable then
      match sd.logicalSessionTimeoutMinutes with
      | none => none
      | some t => commonSessionTimeout rest (some (match acc with
        | none => t
        | some a => min a t))
    else commonSessionTimeout rest acc

namespace TopologyDescription

/-- `new TopologyDescription(...)`. The optional arguments are stored only when truthy. -/
def new (type : TopologyType) (servers : ServerMap) (setName : Option String) (maxSetVersion : Option Int)
    (maxElectionId : Option ObjectId) (commonWireVersion : Option Int) (options : TopologyDescriptionOptions) :
    TopologyDescription where
  type := type
  setName := truthyStr setName
  maxSetVersion := truthyNum maxSetVersion
  maxElectionId := maxElectionId
  servers := servers
  compatible := (checkCompatibility servers.values (true, none)).1
  compatibilityError := (checkCompatibility servers.values (true, none)).2
  logicalSessionTimeoutMinutes := commonSessionTimeout servers.values none
  options := options
  commonWireVersion := truthyNum commonWireVersion

def hasServer (d : TopologyDescription) (address : String) : Bool := d.servers.contains address

end TopologyDescription

/-! ## Helpers of `update` -/

def mongosOrUnknown (t : ServerType) : Bool := t = .mongos || t = .unknown
def mongosOrStandalone (t : ServerType) : Bool := t = .mongos || t = .standalone
def nonPrimaryRsMember (t : ServerType) : Bool := t = .rsSecondary || t = .rsArbiter || t = .rsOther

def topologyTypeForServerType : ServerType → TopologyType
  | .standalone => .single
  | .mongos => .sharded
  | .rsPrimary => .replicaSetWithPrimary
  | .rsOther | .rsSecondary => .replicaSetNoPrimary
  | _ => .unknown

/-- `compareObjectId`; an absent id is older than any. -/
def compareObjectId : Option ObjectId → Option ObjectId → Int
  | none, _ => -1
  | some _, none => 1
  | some a, some b => a.compare b

def checkHasPrimary (servers : ServerMap) : TopologyType :=
  if servers.values.any (·.type = .rsPrimary) then .replicaSetWithPrimary else .replicaSetNoPrimary

/-- Reset the first other primary to Unknown, under its key. -/
def demoteOtherPrimary (rt : Runtime) (address : String) (servers : ServerMap) : Except AnyError ServerMap :=
  match servers.entries.find? fun p => p.2.type = .rsPrimary ∧ p.2.address ≠ address with
  | none => .ok servers
  | some (key, server) => do
    let reset ← ServerDescription.ofString rt server.address
    return servers.set key reset

/-- Add an Unknown description for a host that has none. -/
def discoverHost (rt : Runtime) (servers : ServerMap) (address : String) : Except AnyError ServerMap :=
  if servers.contains address then .ok servers
  else do
    let sd ← ServerDescription.ofString rt address
    return servers.set address sd

def discoverHosts (rt : Runtime) (hosts : List String) (servers : ServerMap) : Except AnyError ServerMap :=
  hosts.foldlM (discoverHost rt) servers

/-- Remove the hosts the primary does not list. -/
def removeUnlisted (hosts : List String) (servers : ServerMap) : ServerMap :=
  (servers.keys.filter (· ∉ hosts)).foldl OrderedMap.erase servers

/-- The local variables that the branches of `update` overwrite. -/
structure Vars where
  type : TopologyType
  servers : ServerMap
  setName : Option String
  maxSetVersion : Option Int
  maxElectionId : Option ObjectId

/-- The description is of an older election than the maxima seen so far. -/
def isStalePrimary (sd : ServerDescription) (maxSetVersion : Option Int) (maxElectionId : Option ObjectId) : Bool :=
  match truthyNum sd.setVersion, sd.electionId, truthyNum maxSetVersion, maxElectionId with
  | some v, some e, some mv, some me => mv > v || compareObjectId (some me) (some e) > 0
  | _, _, _, _ => false

/-- The larger of the set versions, an absent one being the smallest. -/
def advanceSetVersion (maxSetVersion setVersion : Option Int) : Option Int :=
  match setVersion with
  | none => maxSetVersion
  | some v => match maxSetVersion with
    | none => some v
    | some mv => if v > mv then some v else some mv

/-- The election id of a primary that reports both fields replaces the maximum. -/
def advanceElectionId (maxElectionId : Option ObjectId) (sd : ServerDescription) : Option ObjectId :=
  if (truthyNum sd.setVersion).isSome && sd.electionId.isSome then sd.electionId else maxElectionId

/-- `updateRsFromPrimary`. -/
def updateRsFromPrimary (rt : Runtime) (sd : ServerDescription) (v : Vars) : Except AnyError Vars := do
  let setName := truthyStr v.setName <|> sd.setName
  if setName ≠ sd.setName then
    let servers := v.servers.erase sd.address
    return { v with type := checkHasPrimary servers, servers, setName }
  if isStalePrimary sd v.maxSetVersion v.maxElectionId then
    let reset ← ServerDescription.ofString rt sd.address
    let servers := v.servers.set sd.address reset
    return { v with type := checkHasPrimary servers, servers, setName }
  let servers ← demoteOtherPrimary rt sd.address v.servers
  let servers ← discoverHosts rt sd.allHosts servers
  let servers := removeUnlisted sd.allHosts servers
  return {
    type := checkHasPrimary servers
    servers, setName
    maxSetVersion := advanceSetVersion v.maxSetVersion sd.setVersion
    maxElectionId := advanceElectionId v.maxElectionId sd }

/-- The member reports an address of its own that differs from the one it was reached under. -/
def addressMismatch (sd : ServerDescription) : Bool := (truthyStr sd.me).any (sd.address ≠ ·)

def setNameRequired : AnyError :=
  { cls := .mongoRuntimeError, message := "Argument \"setName\" is required if connected to a replica set" }

/-- `updateRsWithPrimaryFromMember`. -/
def updateRsWithPrimaryFromMember (sd : ServerDescription) (v : Vars) : Except AnyError Vars :=
  match v.setName with
  | none => .error setNameRequired
  | some setName =>
    let servers :=
      if some setName ≠ sd.setName ∨ addressMismatch sd then v.servers.erase sd.address else v.servers
    .ok { v with type := checkHasPrimary servers, servers }

/-- `updateRsNoPrimaryFromMember`. -/
def updateRsNoPrimaryFromMember (rt : Runtime) (sd : ServerDescription) (v : Vars) : Except AnyError Vars := do
  let setName := truthyStr v.setName <|> sd.setName
  if setName ≠ sd.setName then
    return { v with type := .replicaSetNoPrimary, servers := v.servers.erase sd.address, setName }
  let servers ← discoverHosts rt sd.allHosts v.servers
  let servers := if addressMismatch sd then servers.erase sd.address else servers
  return { v with type := .replicaSetNoPrimary, servers, setName }

/-! ## `update` -/

section Branches

-- `address` is the one the description arrived with, `sd` the description that is applied
variable (rt : Runtime) (address : String) (sd : ServerDescription)

/-- The branch of an unknown topology. `size` counts the servers before the update. -/
def unknownBranch (size : Nat) (v : Vars) : Vars :=
  if v.type = .unknown then
    if sd.type = .standalone ∧ size ≠ 1 then { v with servers := v.servers.erase address }
    else { v with type := topologyTypeForServerType sd.type }
  else v

def shardedBranch (v : Vars) : Vars :=
  if v.type = .sharded ∧ !mongosOrUnknown sd.type then { v with servers := v.servers.erase address } else v

def noPrimaryBranch (v : Vars) : Except AnyError Vars :=
  if v.type = .replicaSetNoPrimary then
    let v := if mongosOrStandalone sd.type then { v with servers := v.servers.erase address } else v
    if sd.type = .rsPrimary then updateRsFromPrimary rt sd v
    else if nonPrimaryRsMember sd.type then updateRsNoPrimaryFromMember rt sd v
    else .ok v
  else .ok v

def withPrimaryBranch (v : Vars) : Except AnyError Vars :=
  if v.type = .replicaSetWithPrimary then
    if mongosOrStandalone sd.type then
      let servers := v.servers.erase address
      .ok { v with type := checkHasPrimary servers, servers }
    else if sd.type = .rsPrimary then updateRsFromPrimary rt sd v
    else if nonPrimaryRsMember sd.type then updateRsWithPrimaryFromMember sd v
    else .ok { v with type := checkHasPrimary v.servers }
  else .ok v

/-- The fall-through cascade of the topology-type branches. -/
def cascade (size : Nat) (v : Vars) : Except AnyError Vars := do
  let v ← noPrimaryBranch rt address sd (shardedBranch address sd (unknownBranch address sd size v))
  withPrimaryBranch rt address sd v

end Branches

/-- The description that is applied: a member of another set counts as unknown. -/
def appliedDescription (rt : Runtime) (setName : Option String) (sd : ServerDescription) :
    Except AnyError ServerDescription :=
  match truthyStr sd.setName, truthyStr setName with
  | some mine, some ours => if mine ≠ ours then ServerDescription.ofString rt sd.address else .ok sd
  | _, _ => .ok sd

/-- The smallest non-zero `maxWireVersion` seen so far. -/
def advanceWireVersion (commonWireVersion : Option Int) (sd : ServerDescription) : Option Int :=
  if sd.maxWireVersion ≠ 0 then
    match commonWireVersion with
    | none => some sd.maxWireVersion
    | some w => some (min w sd.maxWireVersion)
  else commonWireVersion

namespace TopologyDescription

/-- The mutable variables at the start of the cascade: the description is stored under the address
of the argument. -/
def startVars (d : TopologyDescription) (address : String) (sd : ServerDescription) : Vars where
  type := d.type
  servers := d.servers.set address sd
  setName := d.setName
  maxSetVersion := d.maxSetVersion
  maxElectionId := d.maxElectionId

/-- `update(serverDescription)`. -/
def update (rt : Runtime) (d : TopologyDescription) (serverDescription : ServerDescription) :
    Except AnyError TopologyDescription := do
  let sd ← appliedDescription rt d.setName serverDescription
  let v := d.startVars serverDescription.address sd
  -- once defined as single, that never changes
  let v ← if d.type = .single then pure v else cascade rt serverDescription.address sd d.servers.size v
  return new v.type v.servers v.setName v.maxSetVersion v.maxElectionId
    (advanceWireVersion d.commonWireVersion sd) d.options

end TopologyDescription

/-! ## Descriptions the `Topology` constructor builds -/

/-- The options the constructor of `Topology` reads for its first description. -/
structure TopologyOptions where
  directConnection : Bool := false
  replicaSet : Option String := none
  loadBalanced : Bool := false
  description : TopologyDescriptionOptions := {}

/-- `topologyTypeFromOptions`. -/
def topologyTypeFromOptions (options : TopologyOptions) : TopologyType :=
  if options.directConnection then .single
  else if (truthyStr options.replicaSet).isSome then .replicaSetNoPrimary
  else if options.loadBalanced then .loadBalanced
  else .unknown

/-- The first description of a topology: every selected seed is Unknown. -/
def initialDescription (rt : Runtime) (options : TopologyOptions) (seeds : List HostAddress) : TopologyDescription :=
  TopologyDescription.new (topologyTypeFromOptions options)
    (seeds.foldl (fun m h => m.set h.toString (ServerDescription.new rt h)) OrderedMap.empty)
    options.replicaSet none none none options.description

end MongoDriver.Sdam
