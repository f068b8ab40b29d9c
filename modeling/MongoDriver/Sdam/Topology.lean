/-
How a topology takes in the description of one server (`Topology.serverUpdateHandler` of
`src/sdam/topology.ts`): descriptions of servers it does not know and outdated ones are dropped, the
others are folded into the topology description and the set of server instances. Server selection,
which the handler resumes at its end, reads the description and is not part of this module.
-/
import MongoDriver.Sdam.TopologyDescription

namespace MongoDriver.Sdam

/-! ## Equality of descriptions -/

/-- `errorStrictEqual`: two errors of one class and message. -/
def errorStrictEqual : Option AnyError → Option AnyError → Bool
  | none, none => true
  | some l, some r => l.cls = r.cls && l.message = r.message
  | _, _ => false

/-- `tagsStrictEqual`: as many keys, each with the value it has in the other set. -/
def tagsStrictEqual (tags tags2 : List (String × String)) : Bool :=
  tags.length = tags2.length && tags.all fun p => tags2.lookup p.1 = some p.2

/-- `equals`. Descriptions that hold one and the same topology version object also compare as
equivalent, so that the identity test of the source only matters when both have none. -/
def ServerDescription.equals (sd other : ServerDescription) : Bool :=
  let topologyVersionsEqual :=
    (sd.topologyVersion = none && other.topologyVersion = none) ||
      compareTopologyVersion sd.topologyVersion other.topologyVersion = 0
  errorStrictEqual sd.error other.error && sd.type = other.type && sd.minWireVersion = other.minWireVersion &&
    sd.hosts = other.hosts && tagsStrictEqual sd.tags other.tags && sd.setName = other.setName &&
    sd.setVersion = other.setVersion && sd.electionId = other.electionId && sd.primary = other.primary &&
    sd.logicalSessionTimeoutMinutes = other.logicalSessionTimeoutMinutes && topologyVersionsEqual

/-! ## The handler -/

/-- What the handler emits or starts. -/
inductive TopologyEvent
  | error (message : String)
  | serverDescriptionChanged (address : String) (previous new : ServerDescription)
  | serverOpening (address : String)
  | destroyServer (address : String)
  | topologyDescriptionChanged (previous new : TopologyDescription)

/-- The part of a `Topology` the handler works on. A server instance is its own description. -/
structure Topology where
  description : TopologyDescription
  servers : ServerMap
  clusterTime : Option ClusterTime := none
  emitted : List TopologyEvent := []

/-- `isStaleServerDescription`. -/
def isStaleServerDescription (d : TopologyDescription) (incoming : ServerDescription) : Bool :=
  compareTopologyVersion ((d.servers.get? incoming.address).bind (·.topologyVersion)) incoming.topologyVersion > 0

/-- `_advanceClusterTime`. -/
def advanceClusterTime (current : Option ClusterTime) (received : ClusterTime) : Option ClusterTime :=
  match current with
  | none => some received
  | some c => if received.clusterTime > c.clusterTime then some received else some c

namespace Topology

def emit (t : Topology) (event : TopologyEvent) : Topology := { t with emitted := t.emitted ++ [event] }

/-- Create a server instance for a description that has none. -/
def openServer (t : Topology) (sd : ServerDescription) : Topology :=
  if t.servers.contains sd.address then t
  else { t.emit (.serverOpening sd.address) with servers := t.servers.set sd.address sd }

/-- Destroy the instance of a server that the description lost. -/
def dropServer (t : Topology) (address : String) : Topology :=
  if t.description.hasServer address then t
  else { t.emit (.destroyServer address) with servers := t.servers.erase address }

/-- `updateServers(topology, incoming)`. -/
def updateServers (t : Topology) (incoming : ServerDescription) : Topology :=
  let t :=
    if t.servers.contains incoming.address then { t with servers := t.servers.set incoming.address incoming } else t
  let t := t.description.servers.values.foldl openServer t
  t.servers.keys.foldl dropServer t

/-- The handler after the checks and the cluster time: the new description, then the events. -/
def installDescription (t : Topology) (previous sd : ServerDescription) (d : TopologyDescription) : Topology :=
  let equalDescriptions := previous.equals sd
  let t' := { t with description := d }
  match d.compatibilityError with
  | some message => t'.emit (.error message)
  | none =>
    let t' :=
      if equalDescriptions then t'
      else match d.servers.get? sd.address with
        | none => t'
        | some new => t'.emit (.serverDescriptionChanged sd.address previous new)
    let t' := t'.updateServers sd
    if equalDescriptions then t' else t'.emit (.topologyDescriptionChanged t.description d)

/-- `serverUpdateHandler(serverDescription)`, with what it throws. A throwing `update` leaves the
description as it was. -/
def serverUpdateHandler (rt : Runtime) (t : Topology) (sd : ServerDescription) : Topology × Option AnyError :=
  match t.description.servers.get? sd.address with
  | none => (t, none)
  | some previous =>
    if isStaleServerDescription t.description sd then (t, none)
    else
      let t := match sd.clusterTime with
        | none => t
        | some c => { t with clusterTime := advanceClusterTime t.clusterTime c }
      match t.description.update rt sd with
      | .error e => (t, some e)
      | .ok d => (t.installDescription previous sd d, none)

/-! ## Which steps touch the description -/

@[simp] theorem emit_description (t : Topology) (event : TopologyEvent) : (t.emit event).description = t.description :=
  rfl

@[simp] theorem openServer_description (t : Topology) (sd : ServerDescription) :
    (t.openServer sd).description = t.description := by
  unfold openServer; split <;> rfl

@[simp] theorem dropServer_description (t : Topology) (address : String) :
    (t.dropServer address).description = t.description := by
  unfold dropServer; split <;> rfl

/-- What no step of a fold changes, the fold does not change. -/
theorem foldl_keeps {α β : Type} {f : Topology → α → Topology} (g : Topology → β) (hf : ∀ t a, g (f t a) = g t) :
    ∀ (l : List α) (t : Topology), g (l.foldl f t) = g t
  | [], _ => rfl
  | a :: l, t => (foldl_keeps g hf l (f t a)).trans (hf t a)

@[simp] theorem updateServers_description (t : Topology) (sd : ServerDescription) :
    (t.updateServers sd).description = t.description := by
  unfold updateServers
  simp only [foldl_keeps description dropServer_description, foldl_keeps description openServer_description]
  split <;> rfl

@[simp] theorem installDescription_description (t : Topology) (previous sd : ServerDescription)
    (d : TopologyDescription) : (t.installDescription previous sd d).description = d := by
  unfold installDescription
  simp only
  split
  · rfl
  · have hfirst : ∀ t' : Topology, t'.description = d →
        (if previous.equals sd = true then t'.updateServers sd else
          (t'.updateServers sd).emit (.topologyDescriptionChanged t.description d)).description = d := by
      intro t' ht'
      split <;> simp [ht']
    refine hfirst _ ?_
    split
    · rfl
    · split <;> rfl

/-- A report of a known server that is not stale is installed, after its cluster time. -/
theorem serverUpdateHandler_installs {rt : Runtime} {t : Topology} {sd previous : ServerDescription}
    {d : TopologyDescription} (hp : t.description.servers.get? sd.address = some previous)
    (hs : isStaleServerDescription t.description sd = false) (hu : t.description.update rt sd = .ok d) :
    ∃ clusterTime, t.serverUpdateHandler rt sd =
      ({ t with clusterTime := clusterTime }.installDescription previous sd d, none) := by
  unfold serverUpdateHandler
  simp only [hp, hs, Bool.false_eq_true, if_false]
  cases sd.clusterTime with
  | none => exact ⟨t.clusterTime, by simp only [hu]⟩
  | some c => exact ⟨advanceClusterTime t.clusterTime c, by simp only [hu]⟩

/-- A report that cannot be applied leaves all but the cluster time. -/
theorem serverUpdateHandler_throws {rt : Runtime} {t : Topology} {sd previous : ServerDescription} {e : AnyError}
    (hp : t.description.servers.get? sd.address = some previous)
    (hs : isStaleServerDescription t.description sd = false) (hu : t.description.update rt sd = .error e) :
    ∃ clusterTime, t.serverUpdateHandler rt sd = ({ t with clusterTime := clusterTime }, some e) := by
  unfold serverUpdateHandler
  simp only [hp, hs, Bool.false_eq_true, if_false]
  cases sd.clusterTime with
  | none => exact ⟨t.clusterTime, by simp only [hu]⟩
  | some c => exact ⟨advanceClusterTime t.clusterTime c, by simp only [hu]⟩

/-- The handler leaves the description alone, or updates it with a description that is known and
not stale. -/
theorem serverUpdateHandler_cases (rt : Runtime) (t : Topology) (sd : ServerDescription) :
    (t.serverUpdateHandler rt sd).1.description = t.description ∨
      (isStaleServerDescription t.description sd = false ∧
        t.description.update rt sd = .ok (t.serverUpdateHandler rt sd).1.description) := by
  unfold serverUpdateHandler
  split
  · exact .inl rfl
  · split
    · exact .inl rfl
    · rename_i hstale
      have hd : ∀ t' : Topology, t' = (match sd.clusterTime with
          | none => t
          | some c => { t with clusterTime := advanceClusterTime t.clusterTime c }) →
          t'.description = t.description := by
        rintro t' rfl
        split <;> rfl
      simp only [hd _ rfl]
      split
      · exact .inl (hd _ rfl)
      · rename_i d hu
        refine .inr ⟨by simpa using hstale, ?_⟩
        rw [installDescription_description]
        exact hu

end Topology

end MongoDriver.Sdam
