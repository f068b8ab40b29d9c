/-
Changes of the seed list found by SRV polling (`SrvPollingEvent` of `src/sdam/srv_polling.ts`,
`updateFromSrvPollingEvent` of `src/sdam/topology_description.ts`, `shuffle` of `src/utils.ts` and
`detectSrvRecords` of `src/sdam/topology.ts`).
-/
import MongoDriver.Sdam.Topology

namespace MongoDriver.Sdam

/-! ## The polled host names -/

structure SrvRecord where
  name : String
  port : Nat
deriving DecidableEq

/-- `HostAddress.fromSrvRecord`: a name with a colon is an IPv6 address and gets its brackets. -/
def HostAddress.fromSrvRecord (rt : Runtime) (record : SrvRecord) : Except AnyError HostAddress :=
  let host := if ':' ∈ record.name.toList then "[" ++ record.name ++ "]" else record.name
  HostAddress.ofString rt (host ++ ":" ++ ToString.toString record.port)

/-- `hostnames()`, in the order of the set. -/
def hostnames (rt : Runtime) (srvRecords : List SrvRecord) : Except AnyError (List String) := do
  let hosts ← srvRecords.mapM (HostAddress.fromSrvRecord rt)
  return (hosts.map HostAddress.toString).eraseDups

/-! ## Shuffling -/

section Shuffle

variable {α : Type*}

def limitTooLarge : AnyError := { cls := .mongoRuntimeError, message := "Limit must be less than the number of items" }

/-- Swap the items at two positions. -/
def swap (items : List α) (i j : Nat) : List α :=
  match items[i]?, items[j]? with
  | some a, some b => (items.set i b).set j a
  | _, _ => items

/-- The loop of `shuffle`: while more than `lowerBound` items are left, swap the last of them with one that
was drawn. `random n` is the draw among `n` items. -/
def shuffleLoop (random : Nat → Nat) (lowerBound : Nat) : Nat → List α → List α
  | 0, items => items
  | remaining + 1, items =>
    if remaining + 1 > lowerBound then
      shuffleLoop random lowerBound remaining (swap items remaining (random (remaining + 1) % (remaining + 1)))
    else items

/-- `shuffle(sequence, limit)`. -/
def shuffle (random : Nat → Nat) (sequence : List α) (limit : Nat) : Except AnyError (List α) :=
  if limit > sequence.length then .error limitTooLarge
  else
    let lowerBound := if limit % sequence.length = 0 then 1 else sequence.length - limit
    let items := shuffleLoop random lowerBound sequence.length sequence
    .ok (if limit % sequence.length = 0 then items else items.drop lowerBound)

theorem mem_swap {items : List α} {i j : Nat} {x : α} (h : x ∈ swap items i j) : x ∈ items := by
  unfold swap at h
  split at h
  · rename_i a b ha hb
    rcases List.mem_or_eq_of_mem_set h with h | rfl
    · rcases List.mem_or_eq_of_mem_set h with h | rfl
      · exact h
      · exact List.mem_of_getElem? hb
    · exact List.mem_of_getElem? ha
  · exact h

theorem mem_shuffleLoop {random : Nat → Nat} {lowerBound : Nat} {x : α} :
    ∀ {remaining : Nat} {items : List α}, x ∈ shuffleLoop random lowerBound remaining items → x ∈ items
  | 0, _, h => h
  | remaining + 1, items, h => by
    unfold shuffleLoop at h
    split at h
    · exact mem_swap (mem_shuffleLoop h)
    · exact h

/-- A shuffle selects from the sequence. -/
theorem mem_shuffle {random : Nat → Nat} {sequence items : List α} {limit : Nat}
    (h : shuffle random sequence limit = .ok items) {x : α} (hx : x ∈ items) : x ∈ sequence := by
  unfold shuffle at h
  split at h
  · cases h
  · cases h
    split at hx
    · exact mem_shuffleLoop hx
    · exact mem_shuffleLoop (List.mem_of_mem_drop hx)

end Shuffle

/-! ## The description -/

/-- Add an Unknown description under the polled name. -/
def addPolledHost (rt : Runtime) (servers : ServerMap) (host : String) : Except AnyError ServerMap := do
  let sd ← ServerDescription.ofString rt host
  return servers.set host sd

/-- The polled hosts to add to the servers that are left: all of them, or as many as `srvMaxHosts` allows. -/
def selectPolledHosts (random : Nat → Nat) (hostnamesToAdd : List String) (size srvMaxHosts : Nat) :
    Except AnyError (List String) :=
  if hostnamesToAdd.length > 0 then
    if srvMaxHosts = 0 then .ok hostnamesToAdd
    else if size < srvMaxHosts then shuffle random hostnamesToAdd (srvMaxHosts - size)
    else .ok []
  else .ok []

/-- `updateFromSrvPollingEvent(ev, srvMaxHosts)`; `none` says that the description itself is returned. -/
def TopologyDescription.updateFromSrvPollingEvent (rt : Runtime) (random : Nat → Nat) (d : TopologyDescription)
    (srvRecords : List SrvRecord) (srvMaxHosts : Nat) : Except AnyError (Option TopologyDescription) := do
  let incomingHostnames ← hostnames rt srvRecords
  let hostnamesToAdd := incomingHostnames.filter fun host => !d.servers.contains host
  let hostnamesToRemove := d.servers.keys.filter (· ∉ incomingHostnames)
  if hostnamesToAdd.length = 0 ∧ hostnamesToRemove.length = 0 then return none
  let servers := hostnamesToRemove.foldl OrderedMap.erase d.servers
  let selected ← selectPolledHosts random hostnamesToAdd servers.size srvMaxHosts
  let servers ← selected.foldlM (addPolledHost rt) servers
  return some (.new d.type servers d.setName d.maxSetVersion d.maxElectionId d.commonWireVersion d.options)

theorem mem_selectPolledHosts {random : Nat → Nat} {hosts selected : List String} {size srvMaxHosts : Nat}
    (h : selectPolledHosts random hosts size srvMaxHosts = .ok selected) {x : String} (hx : x ∈ selected) :
    x ∈ hosts := by
  unfold selectPolledHosts at h
  split at h
  · split at h
    · cases h; exact hx
    · split at h
      · exact mem_shuffle h hx
      · cases h; cases hx
  · cases h; cases hx

/-- The steps of a poll that changes the description. -/
theorem updateFromSrvPollingEvent_cases {rt : Runtime} {random : Nat → Nat} {d d' : TopologyDescription}
    {srvRecords : List SrvRecord} {srvMaxHosts : Nat}
    (h : d.updateFromSrvPollingEvent rt random srvRecords srvMaxHosts = .ok (some d')) :
    ∃ (incoming removed selected : List String) (servers : ServerMap), hostnames rt srvRecords = .ok incoming ∧
      (∀ host ∈ selected, host ∈ incoming) ∧
      selected.foldlM (addPolledHost rt) (removed.foldl OrderedMap.erase d.servers) = .ok servers ∧
      d'.servers = servers := by
  unfold TopologyDescription.updateFromSrvPollingEvent at h
  obtain ⟨incoming, hi, h⟩ := Run.bind_ok.1 h
  simp only at h
  split at h
  · cases h
  · obtain ⟨selected, hs, h⟩ := Run.bind_ok.1 h
    obtain ⟨servers, hf, h⟩ := Run.bind_ok.1 h
    cases h
    refine ⟨incoming, _, selected, servers, hi, ?_, hf, rfl⟩
    intro host hhost
    exact (List.mem_filter.1 (mem_selectPolledHosts hs hhost)).1

/-! ## The topology -/

namespace Topology

/-- `updateServers(topology)` after the incoming description was stored: instances for the descriptions that
have none, and no others. -/
def reconcileServers (t : Topology) : Topology :=
  let t := t.description.servers.values.foldl openServer t
  t.servers.keys.foldl dropServer t

theorem updateServers_eq (t : Topology) (incoming : ServerDescription) :
    t.updateServers incoming = reconcileServers (if t.servers.contains incoming.address then
      { t with servers := t.servers.set incoming.address incoming } else t) := rfl

/-- `detectSrvRecords(ev)`, with what it throws. -/
def detectSrvRecords (rt : Runtime) (random : Nat → Nat) (srvMaxHosts : Nat) (t : Topology)
    (srvRecords : List SrvRecord) : Topology × Option AnyError :=
  match t.description.updateFromSrvPollingEvent rt random srvRecords srvMaxHosts with
  | .error e => (t, some e)
  | .ok none => (t, none)
  | .ok (some d) =>
    let t' := reconcileServers { t with description := d }
    (t'.emit (.topologyDescriptionChanged t.description d), none)

@[simp] theorem reconcileServers_description (t : Topology) : t.reconcileServers.description = t.description := by
  unfold reconcileServers
  simp only [foldl_keeps description dropServer_description, foldl_keeps description openServer_description]

end Topology

end MongoDriver.Sdam
