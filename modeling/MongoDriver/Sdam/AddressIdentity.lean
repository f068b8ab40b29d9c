/-
Addresses as identities. The map of descriptions is keyed by the host texts of hello replies and SRV
records, the descriptions in it carry addresses that were parsed from them and printed again, and
membership tests mix the two. As long as every text prints back to itself, a key is the address of
its description and the server instances are those of the description; a bracketed IPv6 host is a text
that does not.
-/
import MongoDriver.Sdam.Invariant
import MongoDriver.Sdam.SrvPolling

namespace MongoDriver.Sdam

/-! ## Texts that print back to themselves -/

/-- An address text that, if it parses, prints back to itself. -/
def Faithful (rt : Runtime) (address : String) : Prop :=
  ∀ host, HostAddress.ofString rt address = .ok host → host.toString = address

theorem Canonical.faithful {rt : Runtime} {address : String} (h : Canonical rt address) : Faithful rt address := by
  obtain ⟨host, hhost, hs⟩ := h
  intro host' hhost'
  rw [hhost] at hhost'
  cases hhost'
  exact hs

theorem Faithful.ofString {rt : Runtime} {address : String} {sd : ServerDescription} (h : Faithful rt address)
    (hsd : ServerDescription.ofString rt address = .ok sd) : sd = .fresh address := by
  obtain ⟨host, hhost, hsd⟩ := Run.bind_ok.1 hsd
  cases hsd
  rw [ServerDescription.new_fresh, h host hhost]

/-- The address of a reply and the hosts it lists print back to themselves. -/
structure FaithfulReport (rt : Runtime) (sd : ServerDescription) : Prop where
  address : Faithful rt sd.address
  hosts : ∀ a ∈ sd.allHosts, Faithful rt a

/-- The host names of an SRV answer print back to themselves. -/
def FaithfulRecords (rt : Runtime) (records : List SrvRecord) : Prop :=
  ∀ names, hostnames rt records = .ok names → ∀ a ∈ names, Faithful rt a

/-! ## Keys are addresses -/

/-- The description is stored under its own address; that of a primary can be parsed again. -/
def OwnKey (rt : Runtime) (key : String) (sd : ServerDescription) : Prop :=
  sd.address = key ∧ (sd.type = .rsPrimary → Faithful rt key)

theorem ownKey_fresh (rt : Runtime) (key : String) : OwnKey rt key (.fresh key) := ⟨rfl, fun h => by cases h⟩

theorem ownKey_resets {rt : Runtime} {sd : ServerDescription} (h : FaithfulReport rt sd) :
    Resets rt (OwnKey rt) sd where
  own r hr := by
    rw [h.address.ofString hr]
    exact ownKey_fresh rt sd.address
  host a ha r hr := by
    rw [(h.hosts a ha).ofString hr]
    exact ownKey_fresh rt a
  primary key s hs ht r hr := by
    obtain ⟨rfl, hf⟩ := hs
    rw [(hf ht).ofString hr]
    exact ownKey_fresh rt s.address

theorem update_ownKey {rt : Runtime} {d d' : TopologyDescription} {sd : ServerDescription}
    (h : Entries (OwnKey rt) d.servers) (hf : FaithfulReport rt sd) (hu : d.update rt sd = .ok d') :
    Entries (OwnKey rt) d'.servers :=
  h.update ⟨rfl, fun _ => hf.address⟩ (ownKey_resets hf) hu

/-- A poll stores nothing but the descriptions of polled hosts. -/
theorem Entries.updateFromSrvPollingEvent {P : String → ServerDescription → Prop} {rt : Runtime} {random : Nat → Nat}
    {d d' : TopologyDescription} {records : List SrvRecord} {srvMaxHosts : Nat} (h : Entries P d.servers)
    (hhost : ∀ names, hostnames rt records = .ok names → ∀ a ∈ names, ∀ r,
      ServerDescription.ofString rt a = .ok r → P a r)
    (hu : d.updateFromSrvPollingEvent rt random records srvMaxHosts = .ok (some d')) : Entries P d'.servers := by
  obtain ⟨incoming, removed, selected, servers, hi, hsel, hfold, rfl⟩ := updateFromSrvPollingEvent_cases hu
  have hstart : Entries P (removed.foldl OrderedMap.erase d.servers) := by
    intro a s hs
    rw [OrderedMap.get?_foldl_erase] at hs
    split at hs
    · cases hs
    · exact h a s hs
  refine Run.foldlM_inv_mem ?_ hstart hfold
  intro m host m' hmem hm hadd
  obtain ⟨sd, hsd, hadd⟩ := Run.bind_ok.1 hadd
  cases hadd
  exact hm.set (hhost incoming hi host (hsel host hmem) sd hsd)

theorem updateFromSrvPollingEvent_ownKey {rt : Runtime} {random : Nat → Nat} {d d' : TopologyDescription}
    {records : List SrvRecord} {srvMaxHosts : Nat} (h : Entries (OwnKey rt) d.servers)
    (hf : FaithfulRecords rt records)
    (hu : d.updateFromSrvPollingEvent rt random records srvMaxHosts = .ok (some d')) :
    Entries (OwnKey rt) d'.servers := by
  refine h.updateFromSrvPollingEvent ?_ hu
  intro names hnames a ha r hr
  rw [(hf names hnames a ha).ofString hr]
  exact ownKey_fresh rt a

theorem initialDescription_ownKey (rt : Runtime) (options : TopologyOptions) (seeds : List HostAddress) :
    Entries (OwnKey rt) (initialDescription rt options seeds).servers := by
  intro a s hs
  obtain ⟨rfl, -⟩ := initialDescription_get? hs
  exact ownKey_fresh rt a

/-! ## The server instances -/

/-- Two maps have the same keys. -/
def SameKeys {α β : Type} (m : OrderedMap String α) (m' : OrderedMap String β) : Prop :=
  ∀ a, m.contains a = true ↔ m'.contains a = true

namespace Topology

/-- Opening servers adds their addresses. -/
theorem contains_openServers : ∀ (sds : List ServerDescription) (t : Topology) (a : String),
    (sds.foldl openServer t).servers.contains a = true ↔ t.servers.contains a = true ∨ ∃ sd ∈ sds, sd.address = a
  | [], t, a => by simp
  | sd :: sds, t, a => by
    rw [List.foldl_cons, contains_openServers sds (t.openServer sd) a]
    have hopen : (t.openServer sd).servers.contains a = true ↔ t.servers.contains a = true ∨ sd.address = a := by
      unfold openServer
      split
      · rename_i hin
        constructor
        · exact .inl
        · rintro (h | rfl)
          · exact h
          · exact hin
      · simp only [OrderedMap.contains, OrderedMap.get?_set]
        by_cases ha : a = sd.address
        · simp [ha]
        · simp [ha, Ne.symm ha]
    rw [hopen, List.exists_mem_cons_iff, or_assoc]

/-- Dropping servers keeps those the description has. -/
theorem contains_dropServers (d : TopologyDescription) : ∀ (addresses : List String) (t : Topology) (a : String),
    t.description = d → ((addresses.foldl dropServer t).servers.contains a = true ↔
      t.servers.contains a = true ∧ (a ∈ addresses → d.hasServer a = true))
  | [], t, a, _ => by simp
  | b :: addresses, t, a, hd => by
    rw [List.foldl_cons, contains_dropServers d addresses (t.dropServer b) a (by simp [hd])]
    have hdrop : (t.dropServer b).servers.contains a = true ↔
        t.servers.contains a = true ∧ (a = b → d.hasServer a = true) := by
      unfold dropServer
      rw [hd]
      split
      · rename_i hb
        constructor
        · intro h
          exact ⟨h, fun e => by rw [e]; exact hb⟩
        · exact fun h => h.1
      · rename_i hb
        simp only [OrderedMap.contains, OrderedMap.get?_erase]
        by_cases ha : a = b
        · subst ha; simp [hb]
        · simp [ha]
    rw [hdrop, List.mem_cons]
    tauto

/-- When keys are addresses, the instances are brought in line with the description. -/
theorem reconcileServers_sameKeys {rt : Runtime} {t : Topology} (h : Entries (OwnKey rt) t.description.servers) :
    SameKeys t.reconcileServers.servers t.description.servers := by
  intro a
  have hdesc : (t.description.servers.values.foldl openServer t).description = t.description :=
    foldl_keeps description openServer_description _ _
  unfold reconcileServers
  rw [contains_dropServers t.description _ _ _ hdesc]
  constructor
  · rintro ⟨hopen, hdrop⟩
    obtain ⟨s, hs⟩ := Option.isSome_iff_exists.1 hopen
    exact hdrop (OrderedMap.mem_keys.2 ⟨s, hs⟩)
  · intro ha
    refine ⟨?_, fun _ => ha⟩
    rw [contains_openServers]
    obtain ⟨s, hs⟩ := Option.isSome_iff_exists.1 ha
    exact .inr ⟨s, OrderedMap.mem_values.2 ⟨a, hs⟩, (h a s hs).1⟩

/-- An instance whose address the description has is kept. -/
theorem reconcileServers_keeps {t : Topology} {a : String} (ha : t.servers.contains a = true)
    (hd : t.description.hasServer a = true) : t.reconcileServers.servers.contains a = true := by
  have hdesc : (t.description.servers.values.foldl openServer t).description = t.description :=
    foldl_keeps description openServer_description _ _
  unfold reconcileServers
  rw [contains_dropServers t.description _ _ _ hdesc, contains_openServers]
  exact ⟨.inl ha, fun _ => hd⟩

/-- The instances are brought in line with the description, starting from those of `t`. -/
def Reconciles (t t' : Topology) : Prop :=
  ∃ u : Topology, u.description = t'.description ∧ (∀ a, u.servers.contains a = t.servers.contains a) ∧
    t'.servers = u.reconcileServers.servers

theorem updateServers_reconciles {t u : Topology} (sd : ServerDescription) (hu : u.servers = t.servers) :
    Reconciles t (u.updateServers sd) := by
  rw [updateServers_eq]
  refine ⟨_, (reconcileServers_description _).symm, ?_, rfl⟩
  intro a
  split
  · rename_i hin
    simp only [OrderedMap.contains, OrderedMap.get?_set]
    split
    · rename_i ha
      rw [ha, ← hu]
      exact hin.symm
    · rw [hu]
  · rw [hu]

/-- Past the compatibility check, the handler brings the instances in line with the new description. -/
theorem installDescription_reconciles {t : Topology} {previous sd : ServerDescription} {d : TopologyDescription}
    (hc : d.compatibilityError = none) : Reconciles t (t.installDescription previous sd d) := by
  have hemit : ∀ u : Topology, u.servers = t.servers → Reconciles t
      (if previous.equals sd = true then u.updateServers sd
        else (u.updateServers sd).emit (.topologyDescriptionChanged t.description d)) := by
    intro u hu
    split
    · exact updateServers_reconciles sd hu
    · exact updateServers_reconciles sd hu
  unfold installDescription
  simp only [hc]
  refine hemit _ ?_
  split
  · rfl
  · split
    · rfl
    · rfl

theorem installDescription_incompatible {t : Topology} {previous sd : ServerDescription} {d : TopologyDescription}
    (hc : d.compatibilityError ≠ none) : (t.installDescription previous sd d).servers = t.servers := by
  unfold installDescription
  simp only
  split
  · rfl
  · rename_i hnone
    exact absurd hnone hc

end Topology

/-! ## Runs -/

/-- What changes a topology: the report of a monitor, or the answer to an SRV poll with the draws of the
shuffle. -/
inductive SdamInput where
  | report (sd : ServerDescription)
  | poll (random : Nat → Nat) (records : List SrvRecord)

/-- The texts of the input print back to themselves. -/
def SdamInput.Faithful (rt : Runtime) : SdamInput → Prop
  | report sd => FaithfulReport rt sd
  | poll _ records => FaithfulRecords rt records

/-- The description after an input; one that throws leaves it as it was. -/
def TopologyDescription.apply (rt : Runtime) (srvMaxHosts : Nat) (d : TopologyDescription) :
    SdamInput → TopologyDescription
  | .report sd =>
    match d.update rt sd with
    | .error _ => d
    | .ok d' => d'
  | .poll random records =>
    match d.updateFromSrvPollingEvent rt random records srvMaxHosts with
    | .error _ | .ok none => d
    | .ok (some d') => d'

/-- The topology after an input. -/
def Topology.apply (rt : Runtime) (srvMaxHosts : Nat) (t : Topology) : SdamInput → Topology
  | .report sd => (t.serverUpdateHandler rt sd).1
  | .poll random records => (t.detectSrvRecords rt random srvMaxHosts records).1

/-- The handler of the input gets to `updateServers`: the report is of a known server and not stale, and the
new description is compatible; the poll changes the description. -/
def Topology.reachesUpdateServers (rt : Runtime) (srvMaxHosts : Nat) (t : Topology) : SdamInput → Bool
  | .report sd =>
    t.description.hasServer sd.address && !isStaleServerDescription t.description sd &&
      match t.description.update rt sd with
      | .error _ => false
      | .ok d => d.compatibilityError.isNone
  | .poll random records =>
    match t.description.updateFromSrvPollingEvent rt random records srvMaxHosts with
    | .error _ | .ok none => false
    | .ok (some _) => true

section Runs

variable {rt : Runtime} {srvMaxHosts : Nat}

theorem TopologyDescription.apply_ownKey {d : TopologyDescription} {e : SdamInput} (h : Entries (OwnKey rt) d.servers)
    (he : e.Faithful rt) : Entries (OwnKey rt) (d.apply rt srvMaxHosts e).servers := by
  cases e with
  | report sd =>
    simp only [TopologyDescription.apply]
    split
    · exact h
    · rename_i d' hu
      exact update_ownKey h he hu
  | poll random records =>
    simp only [TopologyDescription.apply]
    split
    · exact h
    · exact h
    · rename_i d' hu
      exact updateFromSrvPollingEvent_ownKey h he hu

/-- An input leaves the description alone or replaces it by what `update` or the SRV poll makes of it. -/
theorem Topology.apply_description_cases (rt : Runtime) (srvMaxHosts : Nat) (t : Topology) (e : SdamInput) :
    (t.apply rt srvMaxHosts e).description = t.description ∨
    (∃ sd, e = .report sd ∧ t.description.update rt sd = .ok (t.apply rt srvMaxHosts e).description) ∨
    ∃ random records, e = .poll random records ∧ t.description.updateFromSrvPollingEvent rt random records srvMaxHosts =
      .ok (some (t.apply rt srvMaxHosts e).description) := by
  cases e with
  | report sd =>
    rcases t.serverUpdateHandler_cases rt sd with hd | ⟨-, hu⟩
    · exact .inl hd
    · exact .inr (.inl ⟨sd, rfl, hu⟩)
  | poll random records =>
    simp only [Topology.apply, Topology.detectSrvRecords]
    split
    · exact .inl rfl
    · exact .inl rfl
    · rename_i d' hu
      simp only [Topology.emit_description, Topology.reconcileServers_description]
      exact .inr (.inr ⟨random, records, rfl, hu⟩)

theorem Topology.apply_ownKey {t : Topology} {e : SdamInput} (h : Entries (OwnKey rt) t.description.servers)
    (he : e.Faithful rt) : Entries (OwnKey rt) (t.apply rt srvMaxHosts e).description.servers := by
  rcases Topology.apply_description_cases rt srvMaxHosts t e with hd | ⟨sd, rfl, hu⟩ | ⟨random, records, rfl, hu⟩
  · rw [hd]
    exact h
  · exact update_ownKey h he hu
  · exact updateFromSrvPollingEvent_ownKey h he hu

/-- An input that gets to `updateServers` ends with the instances brought in line with its description; any other
leaves the instances alone. -/
theorem Topology.apply_servers (rt : Runtime) (srvMaxHosts : Nat) (t : Topology) (e : SdamInput) :
    (t.reachesUpdateServers rt srvMaxHosts e = true ∧ Reconciles t (t.apply rt srvMaxHosts e)) ∨
      (t.reachesUpdateServers rt srvMaxHosts e = false ∧ (t.apply rt srvMaxHosts e).servers = t.servers) := by
  cases e with
  | report sd =>
    simp only [Topology.apply, Topology.reachesUpdateServers, TopologyDescription.hasServer, OrderedMap.contains]
    cases hprev : t.description.servers.get? sd.address with
    | none => exact .inr ⟨rfl, by simp only [Topology.serverUpdateHandler, hprev]⟩
    | some previous =>
      cases hstale : isStaleServerDescription t.description sd with
      | true => exact .inr ⟨rfl, by simp only [Topology.serverUpdateHandler, hprev, hstale, if_true]⟩
      | false =>
        cases hu : t.description.update rt sd with
        | error e =>
          refine .inr ⟨rfl, ?_⟩
          simp only [Topology.serverUpdateHandler, hprev, hstale, Bool.false_eq_true, if_false]
          cases sd.clusterTime <;> simp only [hu]
        | ok d =>
          obtain ⟨clusterTime, heq⟩ := Topology.serverUpdateHandler_installs hprev hstale hu
          rw [heq]
          cases hc : d.compatibilityError with
          | none =>
            exact .inl ⟨by simp [hc], Topology.installDescription_reconciles
              (t := { t with clusterTime := clusterTime }) hc⟩
          | some message =>
            exact .inr ⟨by simp [hc],
              Topology.installDescription_incompatible (t := { t with clusterTime := clusterTime }) (by simp [hc])⟩
  | poll random records =>
    simp only [Topology.apply, Topology.detectSrvRecords, Topology.reachesUpdateServers]
    cases hu : t.description.updateFromSrvPollingEvent rt random records srvMaxHosts with
    | error e => exact .inr ⟨rfl, rfl⟩
    | ok d =>
      cases d with
      | none => exact .inr ⟨rfl, rfl⟩
      | some d => exact .inl ⟨rfl, { t with description := d }, by simp, fun _ => rfl, rfl⟩

theorem Topology.apply_sameKeys {t : Topology} {e : SdamInput} (h : Entries (OwnKey rt) t.description.servers)
    (he : e.Faithful rt) (hr : t.reachesUpdateServers rt srvMaxHosts e = true) :
    SameKeys (t.apply rt srvMaxHosts e).servers (t.apply rt srvMaxHosts e).description.servers := by
  have hown : Entries (OwnKey rt) (t.apply rt srvMaxHosts e).description.servers := Topology.apply_ownKey h he
  rcases Topology.apply_servers rt srvMaxHosts t e with ⟨-, u, hd, -, hs⟩ | ⟨hr', -⟩
  · rw [hs, ← hd]
    rw [← hd] at hown
    exact Topology.reconcileServers_sameKeys hown
  · rw [hr] at hr'
    cases hr'

/-- An instance whose address the new description has outlives the input. -/
theorem Topology.apply_keeps {t : Topology} {e : SdamInput} {a : String} (ha : t.servers.contains a = true)
    (hd : (t.apply rt srvMaxHosts e).description.hasServer a = true) :
    (t.apply rt srvMaxHosts e).servers.contains a = true := by
  rcases Topology.apply_servers rt srvMaxHosts t e with ⟨-, u, hdesc, hkeys, hs⟩ | ⟨-, hs⟩
  · rw [hs]
    refine Topology.reconcileServers_keeps (by rw [hkeys]; exact ha) ?_
    rw [hdesc]
    exact hd
  · rw [hs]
    exact ha

theorem foldl_ownKey {σ : Type} {f : σ → SdamInput → σ} (servers : σ → ServerMap)
    (hf : ∀ s e, Entries (OwnKey rt) (servers s) → e.Faithful rt → Entries (OwnKey rt) (servers (f s e))) :
    ∀ (es : List SdamInput) (s : σ), Entries (OwnKey rt) (servers s) → (∀ e ∈ es, e.Faithful rt) →
      Entries (OwnKey rt) (servers (es.foldl f s))
  | [], _, h, _ => h
  | e :: es, s, h, he =>
    foldl_ownKey servers hf es (f s e) (hf s e h (he e (List.mem_cons_self ..))) fun e' h' =>
      he e' (List.mem_cons_of_mem _ h')

end Runs

/-- While every address text of the inputs prints back to itself, every key of the description is the address
stored under it, and each input that gets to `updateServers` leaves the server instances that the
description has. -/
theorem addresses_identify_servers (rt : Runtime) (srvMaxHosts : Nat) (options : TopologyOptions)
    (seeds : List HostAddress) (es : List SdamInput) (hes : ∀ e ∈ es, e.Faithful rt) :
    (∀ a s, (es.foldl (TopologyDescription.apply rt srvMaxHosts) (initialDescription rt options seeds)).servers.get? a =
      some s → s.address = a) ∧
    ∀ t : Topology, t.description = initialDescription rt options seeds →
      (∀ a s, (es.foldl (Topology.apply rt srvMaxHosts) t).description.servers.get? a = some s → s.address = a) ∧
      ∀ e : SdamInput, e.Faithful rt →
        (es.foldl (Topology.apply rt srvMaxHosts) t).reachesUpdateServers rt srvMaxHosts e = true →
        SameKeys ((es ++ [e]).foldl (Topology.apply rt srvMaxHosts) t).servers
          ((es ++ [e]).foldl (Topology.apply rt srvMaxHosts) t).description.servers := by
  have hinit := initialDescription_ownKey rt options seeds
  constructor
  · intro a s hs
    exact (foldl_ownKey TopologyDescription.servers
      (fun d e h he => TopologyDescription.apply_ownKey h he) es _ hinit hes a s
      hs).1
  · intro t ht
    rw [← ht] at hinit
    have hrun : Entries (OwnKey rt) (es.foldl (Topology.apply rt srvMaxHosts) t).description.servers :=
      foldl_ownKey (fun t : Topology => t.description.servers)
        (fun t e h he => Topology.apply_ownKey h he) es t hinit hes
    refine ⟨fun a s hs => (hrun a s hs).1, ?_⟩
    intro e he hr
    rw [List.foldl_append]
    exact Topology.apply_sameKeys hrun he hr

/-- The runtime on a network with a host name and an IPv6 address: `new URL` keeps the brackets. -/
def dualRuntime : Runtime where
  url text :=
    if text = "mongodb://a:27017" then some ("a", some 27017)
    else if text = "mongodb://[::1]:27017" then some ("[::1]", some 27017)
    else none
  decodeURIComponent := some
  toLowerCase := id

/-- A primary that lists itself and a member with an IPv6 address. -/
def dualReport : ServerDescription :=
  .new dualRuntime (.tcp "a" 27017 false) (some
    { setName := some "rs", isWritablePrimary := true, hosts := some ["a:27017", "[::1]:27017"],
      minWireVersion := some 6, maxWireVersion := some 13 })

def dualTopology : Topology where
  description := initialDescription dualRuntime {} [.tcp "a" 27017 false]
  servers := (initialDescription dualRuntime {} [.tcp "a" 27017 false]).servers

/-- The IPv6 member is stored under its bracketed name with the address that lacks the brackets: its instance
is created under the address and destroyed again, as the description has no such key. -/
theorem bracketed_host_lost :
    (∃ s, ((initialDescription dualRuntime {} [.tcp "a" 27017 false]).apply dualRuntime 0
      (.report dualReport)).servers.get?
      "[::1]:27017" = some s ∧ s.address ≠ "[::1]:27017") ∧
    dualTopology.reachesUpdateServers dualRuntime 0 (.report dualReport) = true ∧
    ¬ SameKeys (dualTopology.apply dualRuntime 0 (.report dualReport)).servers
      (dualTopology.apply dualRuntime 0 (.report dualReport)).description.servers := by
  refine ⟨⟨.fresh "::1:27017", by decide +kernel, by decide⟩, by decide +kernel, ?_⟩
  intro h
  have hnot : ¬ ((dualTopology.apply dualRuntime 0 (.report dualReport)).servers.contains "[::1]:27017" = true) := by
    decide +kernel
  exact hnot ((h "[::1]:27017").2 (by decide +kernel))

/-- A primary found from one seed and an SRV answer with both hosts. -/
def lanInputs : List SdamInput := [.report (lanReport "a" true), .poll id [⟨"a", 27017⟩, ⟨"b", 27017⟩]]

theorem addresses_identify_lan :
    (∀ a s, (lanInputs.foldl (TopologyDescription.apply lanRuntime 0)
        (initialDescription lanRuntime {} [lanHost "a"])).servers.get? a = some s → s.address = a) ∧
    ∀ t : Topology, t.description = initialDescription lanRuntime {} [lanHost "a"] →
      (∀ a s, (lanInputs.foldl (Topology.apply lanRuntime 0) t).description.servers.get? a = some s → s.address = a) ∧
      ∀ e : SdamInput, e.Faithful lanRuntime →
        (lanInputs.foldl (Topology.apply lanRuntime 0) t).reachesUpdateServers lanRuntime 0 e = true →
        SameKeys ((lanInputs ++ [e]).foldl (Topology.apply lanRuntime 0) t).servers
          ((lanInputs ++ [e]).foldl (Topology.apply lanRuntime 0) t).description.servers := by
  refine addresses_identify_servers lanRuntime 0 {} [lanHost "a"] lanInputs ?_
  simp only [lanInputs, List.mem_cons, List.not_mem_nil, or_false]
  rintro e (rfl | rfl)
  · exact ⟨lan_canonical.1.faithful, fun a ha => (lanReport_hosts "a" true a ha).faithful⟩
  · intro names hnames a ha
    have hok : hostnames lanRuntime [⟨"a", 27017⟩, ⟨"b", 27017⟩] = .ok ["a:27017", "b:27017"] := by decide +kernel
    rw [hok] at hnames
    cases hnames
    rcases List.mem_pair.1 ha with rfl | rfl
    · exact lan_canonical.1.faithful
    · exact lan_canonical.2.faithful

end MongoDriver.Sdam
