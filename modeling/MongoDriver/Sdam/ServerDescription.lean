/-
The client's view of one server (`src/sdam/server_description.ts`, `HostAddress` of
`src/utils.ts`): how a hello reply becomes a description, and how topology versions compare.
The address parser rests on the runtime's `URL`, which enters as `Runtime`.
-/
import MongoDriver.Error

namespace MongoDriver.Sdam

/-- `TopologyType`. -/
inductive TopologyType
  | single
  | replicaSetNoPrimary
  | replicaSetWithPrimary
  | sharded
  | unknown
  | loadBalanced
deriving DecidableEq, Repr

/-- `ServerType`. -/
inductive ServerType
  | standalone
  | mongos
  | possiblePrimary
  | rsPrimary
  | rsSecondary
  | rsArbiter
  | rsOther
  | rsGhost
  | unknown
  | loadBalancer
deriving DecidableEq, Repr

/-! ## Addresses -/

/-- The parts of the JavaScript runtime the address code calls: `new URL(text)` (host name and
explicit port, `none` when it throws), `decodeURIComponent` and `toLowerCase`. -/
structure Runtime where
  url : String → Option (String × Option Nat)
  decodeURIComponent : String → Option String
  toLowerCase : String → String

/-- `HostAddress`: a TCP address, or the path of a domain socket. -/
inductive HostAddress
  | tcp (host : String) (port : Nat) (isIPv6 : Bool)
  | socket (path : String)
deriving DecidableEq, Repr

namespace HostAddress

def thrown (cls : ErrorClass) (message : String) : AnyError := { cls, message }

/-- `hostString.split(' ').join('%20')`. -/
def escapeSpaces (hostString : String) : String :=
  String.ofList (hostString.toList.flatMap fun c => if c = ' ' then ['%', '2', '0'] else [c])

/-- `new HostAddress(hostString)`. -/
def ofString (rt : Runtime) (hostString : String) : Except AnyError HostAddress :=
  match rt.url ("mongodb://" ++ escapeSpaces hostString) with
  | none => .error (thrown .typeError "Invalid URL")
  | some (hostname, port) =>
    match rt.decodeURIComponent hostname with
    | none => .error (thrown .error "URI malformed")
    | some decoded =>
      if hostname.endsWith ".sock" then .ok (.socket decoded)
      else
        let normalized := rt.toLowerCase decoded
        let isIPv6 := normalized.startsWith "[" && normalized.endsWith "]"
        let normalized :=
          if isIPv6 then String.ofList ((normalized.toList.drop 1).take (hostname.length - 2)) else normalized
        let port := port.getD 27017
        if port = 0 then .error (thrown .mongoParseError "Invalid port (zero) with hostname")
        else .ok (.tcp (rt.toLowerCase normalized) port isIPv6)

/-- `toString()`, without IPv6 brackets. -/
def toString : HostAddress → String
  | tcp host port _ => host ++ ":" ++ ToString.toString port
  | socket path => path

end HostAddress

/-- An address text that parses and prints back to itself. -/
def Canonical (rt : Runtime) (address : String) : Prop :=
  ∃ h, HostAddress.ofString rt address = .ok h ∧ h.toString = address

/-! ## Hello replies and descriptions -/

/-- `$clusterTime`: the BSON timestamp that orders cluster times. -/
structure ClusterTime where
  clusterTime : Nat
deriving DecidableEq, Repr

/-- The fields of a hello reply the description reads. A field read only for its truth value is a
`Bool`. -/
structure Hello where
  ok : Bool := true
  isreplicaset : Bool := false
  msg : Option String := none
  setName : Option String := none
  hidden : Bool := false
  isWritablePrimary : Bool := false
  secondary : Bool := false
  arbiterOnly : Bool := false
  hosts : Option (List String) := none
  passives : Option (List String) := none
  arbiters : Option (List String) := none
  tags : Option (List (String × String)) := none
  minWireVersion : Option Int := none
  maxWireVersion : Option Int := none
  topologyVersion : Option TopologyVersion := none
  primary : Option String := none
  me : Option String := none
  setVersion : Option Int := none
  electionId : Option ObjectId := none
  logicalSessionTimeoutMinutes : Option Int := none
  clusterTime : Option ClusterTime := none

/-- `ServerDescriptionOptions`. -/
structure ServerDescriptionOptions where
  error : Option AnyError := none
  topologyVersion : Option TopologyVersion := none
  loadBalanced : Bool := false

/-- `ServerDescription`. -/
structure ServerDescription where
  address : String
  type : ServerType := .unknown
  hosts : List String := []
  passives : List String := []
  arbiters : List String := []
  tags : List (String × String) := []
  error : Option AnyError := none
  topologyVersion : Option TopologyVersion := none
  minWireVersion : Int := 0
  maxWireVersion : Int := 0
  me : Option String := none
  primary : Option String := none
  setName : Option String := none
  setVersion : Option Int := none
  electionId : Option ObjectId := none
  logicalSessionTimeoutMinutes : Option Int := none
  clusterTime : Option ClusterTime := none
deriving DecidableEq

/-- An optional string read through its truth value: the empty string counts as absent. -/
def truthyStr (s : Option String) : Option String := s.filter (· ≠ "")

/-- An optional number read through its truth value: zero counts as absent. -/
def truthyNum (n : Option Int) : Option Int := n.filter (· ≠ 0)

theorem truthyStr_eq_some {s : Option String} {x : String} : truthyStr s = some x ↔ s = some x ∧ x ≠ "" := by
  unfold truthyStr
  rw [Option.filter_eq_some_iff, decide_eq_true_iff]

theorem truthyNum_eq_some {n : Option Int} {x : Int} : truthyNum n = some x ↔ n = some x ∧ x ≠ 0 := by
  unfold truthyNum
  rw [Option.filter_eq_some_iff, decide_eq_true_iff]

theorem truthyStr_twice (s : Option String) : truthyStr (truthyStr s) = truthyStr s := by
  ext x
  simp only [truthyStr_eq_some]
  tauto

theorem truthyNum_twice (n : Option Int) : truthyNum (truthyNum n) = truthyNum n := by
  ext x
  simp only [truthyNum_eq_some]
  tauto

theorem truthyStr_orElse_self (s : Option String) : (truthyStr s <|> s) = s := by
  cases ht : truthyStr s with
  | none => rfl
  | some x => exact (truthyStr_eq_some.1 ht).1.symm

/-- `parseServerType`. -/
def parseServerType (hello : Option Hello) (options : ServerDescriptionOptions) : ServerType :=
  if options.loadBalanced then .loadBalancer
  else match hello with
    | none => .unknown
    | some h =>
      if !h.ok then .unknown
      else if h.isreplicaset then .rsGhost
      else if h.msg = some "isdbgrid" then .mongos
      else if (truthyStr h.setName).isSome then
        if h.hidden then .rsOther
        else if h.isWritablePrimary then .rsPrimary
        else if h.secondary then .rsSecondary
        else if h.arbiterOnly then .rsArbiter
        else .rsOther
      else .standalone

/-- Only a reply that names its set is from a member of one. -/
theorem parseServerType_setName {hello : Option Hello} {options : ServerDescriptionOptions} {t : ServerType}
    (ht : parseServerType hello options = t)
    (hmember : t = .rsPrimary ∨ t = .rsSecondary ∨ t = .rsArbiter ∨ t = .rsOther) :
    (truthyStr (hello.bind (·.setName))).isSome := by
  by_contra hnone
  unfold parseServerType at ht
  by_cases hbalanced : options.loadBalanced = true
  · rw [if_pos hbalanced] at ht
    subst ht
    exact absurd hmember (by decide)
  · rw [if_neg hbalanced] at ht
    cases hello with
    | none =>
      subst ht
      exact absurd hmember (by decide)
    | some r =>
      rw [Option.bind_some] at hnone
      simp only [if_neg hnone] at ht
      repeat' split at ht
      all_goals
        subst ht
        exact absurd hmember (by decide)

namespace ServerDescription

/-- `new ServerDescription(address, hello, options)` for a parsed address. -/
def new (rt : Runtime) (address : HostAddress) (hello : Option Hello := none)
    (options : ServerDescriptionOptions := {}) : ServerDescription where
  address := address.toString
  type := parseServerType hello options
  hosts := ((hello.bind (·.hosts)).getD []).map rt.toLowerCase
  passives := ((hello.bind (·.passives)).getD []).map rt.toLowerCase
  arbiters := ((hello.bind (·.arbiters)).getD []).map rt.toLowerCase
  tags := (hello.bind (·.tags)).getD []
  error := options.error
  topologyVersion := options.topologyVersion <|> hello.bind (·.topologyVersion)
  minWireVersion := (hello.bind (·.minWireVersion)).getD 0
  maxWireVersion := (hello.bind (·.maxWireVersion)).getD 0
  me := (truthyStr (hello.bind (·.me))).map rt.toLowerCase
  primary := truthyStr (hello.bind (·.primary))
  setName := truthyStr (hello.bind (·.setName))
  setVersion := truthyNum (hello.bind (·.setVersion))
  electionId := hello.bind (·.electionId)
  logicalSessionTimeoutMinutes := truthyNum (hello.bind (·.logicalSessionTimeoutMinutes))
  clusterTime := hello.bind (·.clusterTime)

/-- `new ServerDescription(text)`: the address is parsed again; the server is unknown. -/
def ofString (rt : Runtime) (address : String) : Except AnyError ServerDescription := do
  let host ← HostAddress.ofString rt address
  return new rt host

/-- The description of a server nothing is known about. -/
def fresh (address : String) : ServerDescription := { address }

/-- A description built by the constructor from some reply, error or load-balancer option. -/
def Built (rt : Runtime) (sd : ServerDescription) : Prop :=
  ∃ address hello options, sd = new rt address hello options

def allHosts (sd : ServerDescription) : List String := sd.hosts ++ sd.arbiters ++ sd.passives

def isWritable (sd : ServerDescription) : Bool :=
  sd.type = .rsPrimary || sd.type = .standalone || sd.type = .mongos || sd.type = .loadBalancer

def isReadable (sd : ServerDescription) : Bool := sd.type = .rsSecondary || sd.isWritable

def isDataBearing (sd : ServerDescription) : Bool :=
  sd.type = .rsPrimary || sd.type = .rsSecondary || sd.type = .mongos || sd.type = .standalone ||
    sd.type = .loadBalancer

theorem new_fresh (rt : Runtime) (h : HostAddress) : new rt h = fresh h.toString := rfl

theorem ofString_ok {rt : Runtime} {address : String} {sd : ServerDescription}
    (h : ofString rt address = .ok sd) : sd = fresh sd.address := by
  unfold ofString at h
  cases hp : HostAddress.ofString rt address with
  | error e => rw [hp] at h; cases h
  | ok a => rw [hp] at h; cases h; rfl

theorem ofString_canonical {rt : Runtime} {address : String} (h : Canonical rt address) :
    ofString rt address = .ok (fresh address) := by
  obtain ⟨a, ha, hs⟩ := h
  unfold ofString
  rw [ha]
  show Except.ok (new rt a) = _
  rw [new_fresh, hs]

/-! ## What the constructor guarantees -/

variable {rt : Runtime} {sd : ServerDescription}

/-- A replica-set member reports its set name. -/
theorem Built.setName (h : Built rt sd)
    (ht : sd.type = .rsPrimary ∨ sd.type = .rsSecondary ∨ sd.type = .rsArbiter ∨ sd.type = .rsOther) :
    ∃ name, sd.setName = some name ∧ name ≠ "" := by
  obtain ⟨a, hello, options, rfl⟩ := h
  have hs : (truthyStr (hello.bind (·.setName))).isSome := parseServerType_setName rfl ht
  obtain ⟨name, hn⟩ := Option.isSome_iff_exists.1 hs
  exact ⟨name, hn, (truthyStr_eq_some.1 hn).2⟩

/-- A reported set version is never zero. -/
theorem Built.setVersion (h : Built rt sd) : sd.setVersion ≠ some 0 := by
  obtain ⟨a, hello, options, rfl⟩ := h
  intro hs
  exact (truthyNum_eq_some.1 hs).2 rfl

end ServerDescription

/-- `compareTopologyVersion(lhs, rhs)`: negative when `lhs` is older, positive when it is newer. The
right-hand counter of a `Long` is read from `lhs`, as the source does. -/
def compareTopologyVersion (lhs rhs : Option TopologyVersion) : Int :=
  match lhs, rhs with
  | some lhs, some rhs =>
    if lhs.processId = rhs.processId then
      let lhsCounter := if lhs.counter.isLong then lhs.counter else lhs.counter.fromNumber
      let rhsCounter := if rhs.counter.isLong then lhs.counter else rhs.counter.fromNumber
      lhsCounter.compare rhsCounter
    else -1
  | _, _ => -1

end MongoDriver.Sdam
