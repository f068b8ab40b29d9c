/-
The common wire version of a topology. `update` carries it along as a running minimum of what was ever heard, and the
servers it was heard from are replaced, reset and removed. It stays the least version of the servers that are there for
as long as, at every step, one of them still holds it.
-/
import MongoDriver.Sdam.AddressIdentity
import MongoDriver.Sdam.Ruling
import MongoDriver.Sdam.SrvHosts

namespace MongoDriver.Sdam

/-! ## The least version -/

/-- The least non-zero `maxWireVersion` of the servers. -/
def leastWireVersion (m : ServerMap) : Option Int := ((m.values.map (·.maxWireVersion)).filter (· ≠ 0)).min?

/-- The common wire version is that of the servers that are there. -/
def CommonWire (d : TopologyDescription) : Prop := d.commonWireVersion = leastWireVersion d.servers

section Least

variable {m : ServerMap} {w : Int} {common : Option Int}

theorem mem_wireVersions : w ∈ (m.values.map (·.maxWireVersion)).filter (· ≠ 0) ↔
    (∃ a s, m.get? a = some s ∧ s.maxWireVersion = w) ∧ w ≠ 0 := by
  rw [List.mem_filter, List.mem_map]
  simp only [OrderedMap.mem_values, decide_eq_true_eq]
  constructor
  · rintro ⟨⟨s, ⟨a, hs⟩, hw⟩, hne⟩
    exact ⟨⟨a, s, hs, hw⟩, hne⟩
  · rintro ⟨⟨a, s, hs, hw⟩, hne⟩
    exact ⟨⟨s, ⟨a, hs⟩, hw⟩, hne⟩

/-- The value is not above any version of the servers. -/
structure Bounds (common : Option Int) (m : ServerMap) : Prop where
  nonzero : common ≠ some 0
  below : ∀ a s, m.get? a = some s → s.maxWireVersion ≠ 0 → ∃ w, common = some w ∧ w ≤ s.maxWireVersion

theorem bounds_least (m : ServerMap) : Bounds (leastWireVersion m) m where
  nonzero h := (mem_wireVersions.1 (List.min?_eq_some_iff.1 h).1).2 rfl
  below a s hs hne := by
    have hmem := mem_wireVersions.2 ⟨⟨a, s, hs, rfl⟩, hne⟩
    cases hleast : leastWireVersion m with
    | none =>
      rw [List.min?_eq_none_iff.1 hleast] at hmem
      cases hmem
    | some w => exact ⟨w, rfl, (List.min?_eq_some_iff.1 hleast).2 _ hmem⟩

/-- A bound is the least version when a server holds it. -/
theorem Bounds.least_iff (h : Bounds common m) :
    common = leastWireVersion m ↔ ∀ w, common = some w → ∃ a s, m.get? a = some s ∧ s.maxWireVersion = w := by
  constructor
  · rintro rfl w hw
    exact (mem_wireVersions.1 (List.min?_eq_some_iff.1 hw).1).1
  · intro hheld
    cases hc : common with
    | none =>
      refine (List.min?_eq_none_iff.2 (List.eq_nil_iff_forall_not_mem.2 fun w hw => ?_)).symm
      obtain ⟨⟨a, s, hs, rfl⟩, hne⟩ := mem_wireVersions.1 hw
      obtain ⟨w, hw, -⟩ := h.below a s hs hne
      rw [hc] at hw
      cases hw
    | some w =>
      have hne : w ≠ 0 := by
        rintro rfl
        exact h.nonzero hc
      refine (List.min?_eq_some_iff.2 ⟨mem_wireVersions.2 ⟨hheld w hc, hne⟩, fun w' hw' => ?_⟩).symm
      obtain ⟨⟨a, s, hs, rfl⟩, hne'⟩ := mem_wireVersions.1 hw'
      obtain ⟨b, hb, hle⟩ := h.below a s hs hne'
      rw [hc] at hb
      cases hb
      exact hle

end Least

/-! ## An update -/

section Update

variable {rt : Runtime} {d d' : TopologyDescription} {sd : ServerDescription}

/-- The version that is taken from a reply: none from a server of another set. -/
def heardVersion (d : TopologyDescription) (sd : ServerDescription) : Int :=
  if namesOther d.setName sd then 0 else sd.maxWireVersion

/-- The version is that of the reply, and the reply is stored, or that of a server that stays as it is. -/
def StillHeld (d : TopologyDescription) (sd : ServerDescription) (w : Int) : Prop :=
  (ruling d sd).Admits sd ∧ sd.maxWireVersion = w ∨
    ∃ a s, a ≠ sd.address ∧ d.servers.get? a = some s ∧ (ruling d sd).Stays d.servers sd a ∧ s.maxWireVersion = w

/-- A reply with a version below all others is stored; after any other reply, the version that was the least is still
held by a server. -/
structure KeepsLeast (d : TopologyDescription) (sd : ServerDescription) : Prop where
  lower : heardVersion d sd ≠ 0 → (∀ w, d.commonWireVersion = some w → heardVersion d sd < w) → (ruling d sd).Admits sd
  held : ∀ w, d.commonWireVersion = some w → heardVersion d sd = 0 ∨ w ≤ heardVersion d sd → StillHeld d sd w

theorem IsFresh.maxWireVersion {s : ServerDescription} (h : s.IsFresh) : s.maxWireVersion = 0 := by
  rw [h]; rfl

theorem applied_maxWireVersion {applied : ServerDescription} (h : appliedDescription rt d.setName sd = .ok applied) :
    applied.maxWireVersion = heardVersion d sd := by
  unfold heardVersion
  cases hother : namesOther d.setName sd with
  | true =>
    rw [applied_of_namesOther hother] at h
    exact IsFresh.maxWireVersion (ServerDescription.ofString_ok h)
  | false =>
    rw [applied_of_not_namesOther hother] at h
    cases h
    rfl

/-- A reply that is stored is heard. -/
theorem heard_of_admits (h : (ruling d sd).Admits sd) : heardVersion d sd = sd.maxWireVersion := by
  unfold heardVersion
  cases hother : namesOther d.setName sd with
  | true =>
    unfold ruling at h
    rw [hother] at h
    exact h.elim
  | false => rfl

theorem truthyNum_of_ne_zero {n : Option Int} (h : n ≠ some 0) : truthyNum n = n := by
  cases n with
  | none => rfl
  | some w => exact truthyNum_eq_some.2 ⟨rfl, fun hw => h (by rw [hw])⟩

/-- The common version stays, or the version heard is below it and takes its place. -/
theorem update_commonWireVersion (hd : d.commonWireVersion ≠ some 0) (h : d.update rt sd = .ok d') :
    (d'.commonWireVersion = d.commonWireVersion ∧
        (heardVersion d sd = 0 ∨ ∃ w, d.commonWireVersion = some w ∧ w ≤ heardVersion d sd)) ∨
      d'.commonWireVersion = some (heardVersion d sd) ∧ heardVersion d sd ≠ 0 ∧
        ∀ w, d.commonWireVersion = some w → heardVersion d sd < w := by
  obtain ⟨applied, v, ha, -, rfl⟩ := update_cases h
  show (truthyNum (advanceWireVersion d.commonWireVersion applied) = _ ∧ _) ∨
    truthyNum (advanceWireVersion d.commonWireVersion applied) = _ ∧ _
  have hkept := truthyNum_of_ne_zero hd
  unfold advanceWireVersion
  rw [applied_maxWireVersion ha]
  by_cases hheard : heardVersion d sd = 0
  · rw [if_neg (by simpa using hheard)]
    exact .inl ⟨hkept, .inl hheard⟩
  rw [if_pos hheard]
  cases hc : d.commonWireVersion with
  | none => exact .inr ⟨truthyNum_eq_some.2 ⟨rfl, hheard⟩, hheard, fun w hw => (by cases hw)⟩
  | some w =>
    by_cases hle : w ≤ heardVersion d sd
    · simp only [min_eq_left hle]
      rw [hc] at hkept
      exact .inl ⟨hkept, .inr ⟨w, rfl, hle⟩⟩
    · simp only [min_eq_right (by omega : heardVersion d sd ≤ w)]
      refine .inr ⟨truthyNum_eq_some.2 ⟨rfl, hheard⟩, hheard, fun w' hw' => ?_⟩
      cases hw'
      omega

/-- The common version bounds the servers after an update, whatever they were before. -/
theorem update_bounds (hc : Calm d) (hd : Bounds d.commonWireVersion d.servers) (h : d.update rt sd = .ok d') :
    Bounds d'.commonWireVersion d'.servers := by
  have hruled := update_ruled hc h
  rcases update_commonWireVersion hd.nonzero h with ⟨hcommon, hheard⟩ | ⟨hcommon, hheard, hbelow⟩
  · rw [hcommon]
    refine ⟨hd.nonzero, fun a s hs hne => ?_⟩
    rcases hruled.only a s hs with hfresh | ⟨-, rfl, hadmits⟩ | ⟨-, hold, -⟩
    · exact absurd (IsFresh.maxWireVersion hfresh) hne
    · rw [heard_of_admits hadmits] at hheard
      exact hheard.resolve_left hne
    · exact hd.below a s hold hne
  · rw [hcommon]
    refine ⟨fun hzero => hheard (Option.some.inj hzero), fun a s hs hne => ⟨_, rfl, ?_⟩⟩
    rcases hruled.only a s hs with hfresh | ⟨-, rfl, hadmits⟩ | ⟨-, hold, -⟩
    · exact absurd (IsFresh.maxWireVersion hfresh) hne
    · exact (heard_of_admits hadmits).le
    · obtain ⟨w, hw, hle⟩ := hd.below a s hold hne
      have hlt := hbelow w hw
      omega

/-- A version other than zero is held after an update by the reply or by a server that stayed. -/
theorem update_held_iff (hc : Calm d) (h : d.update rt sd = .ok d') {w : Int} (hw : w ≠ 0) :
    (∃ a s, d'.servers.get? a = some s ∧ s.maxWireVersion = w) ↔ StillHeld d sd w := by
  have hruled := update_ruled hc h
  constructor
  · rintro ⟨a, s, hs, rfl⟩
    rcases hruled.only a s hs with hfresh | ⟨-, rfl, hadmits⟩ | ⟨hne, hold, hstays⟩
    · exact absurd (IsFresh.maxWireVersion hfresh) hw
    · exact .inl ⟨hadmits, rfl⟩
    · exact .inr ⟨a, s, hne, hold, hstays, rfl⟩
  · rintro (⟨hadmits, rfl⟩ | ⟨a, s, hne, hold, hstays, rfl⟩)
    · exact ⟨sd.address, sd, hruled.own hadmits, rfl⟩
    · exact ⟨a, s, hruled.kept a s hne hold hstays, rfl⟩

/-- One update keeps the common version that of the servers exactly under the condition. -/
theorem update_commonWire_iff (hc : Calm d) (hd : CommonWire d) (h : d.update rt sd = .ok d') :
    CommonWire d' ↔ KeepsLeast d sd := by
  have hbounds : Bounds d.commonWireVersion d.servers := by
    rw [hd]
    exact bounds_least d.servers
  have hiff := (update_bounds hc hbounds h).least_iff
  unfold CommonWire
  rw [hiff]
  rcases update_commonWireVersion hbounds.nonzero h with ⟨hcommon, hheard⟩ | ⟨hcommon, hheard, hbelow⟩
  · rw [hcommon]
    have hnonzero : ∀ w, d.commonWireVersion = some w → w ≠ 0 := by
      rintro w hw rfl
      exact hbounds.nonzero hw
    constructor
    · refine fun hheld => ⟨fun hne hlt => ?_, fun w hw _ => (update_held_iff hc h (hnonzero w hw)).1 (hheld w hw)⟩
      obtain ⟨w, hw, hle⟩ := hheard.resolve_left hne
      have hlt := hlt w hw
      omega
    · intro hkeeps w hw
      refine (update_held_iff hc h (hnonzero w hw)).2 (hkeeps.held w hw ?_)
      rcases hheard with hzero | ⟨w', hw', hle⟩
      · exact .inl hzero
      · rw [hw] at hw'
        cases hw'
        exact .inr hle
  · rw [hcommon]
    have hadmits : StillHeld d sd (heardVersion d sd) ↔ (ruling d sd).Admits sd := by
      constructor
      · rintro (⟨hadmits, -⟩ | ⟨a, s, -, hold, -, hversion⟩)
        · exact hadmits
        · -- a server that was there is not below the old common version
          obtain ⟨w, hw, hle⟩ := hbounds.below a s hold (by rw [hversion]; exact hheard)
          have hlt := hbelow w hw
          omega
      · exact fun hadmits => .inl ⟨hadmits, (heard_of_admits hadmits).symm⟩
    constructor
    · refine fun hheld => ⟨fun _ _ => hadmits.1 ((update_held_iff hc h hheard).1 (hheld _ rfl)), fun w hw hcase => ?_⟩
      have hlt := hbelow w hw
      omega
    · intro hkeeps w hw
      cases hw
      exact (update_held_iff hc h hheard).2 (hadmits.2 (hkeeps.lower hheard hbelow))

end Update

/-! ## A poll -/

section Poll

variable {rt : Runtime} {d : TopologyDescription} {random : Nat → Nat} {records : List SrvRecord} {srvMaxHosts : Nat}
  {polled : List String} {result : Option TopologyDescription}

/-- A server that is still polled holds the common version. -/
def PollKeepsLeast (d : TopologyDescription) (polled : List String) : Prop :=
  ∀ w, d.commonWireVersion = some w → ∃ a s, d.servers.get? a = some s ∧ s.maxWireVersion = w ∧ a ∈ polled

theorem poll_commonWireVersion (hd : d.commonWireVersion ≠ some 0)
    (h : d.updateFromSrvPollingEvent rt random records srvMaxHosts = .ok result) :
    (result.getD d).commonWireVersion = d.commonWireVersion := by
  rcases (poll_fields h).2 with hsame | htruthy
  · exact hsame
  · rw [htruthy, truthyNum_of_ne_zero hd]

theorem poll_calm (hc : Calm d) (h : d.updateFromSrvPollingEvent rt random records srvMaxHosts = .ok result) :
    Calm (result.getD d) := by
  obtain ⟨polled, -, hservers⟩ := poll_polled h
  intro htype a s hp
  rw [(poll_fields h).1] at htype
  exact hc htype a s (hservers.forgets.primaryAt hp)

/-- One poll keeps the common version that of the servers exactly under the condition. -/
theorem poll_commonWire_iff (hd : CommonWire d) (hpolled : hostnames rt records = .ok polled)
    (h : d.updateFromSrvPollingEvent rt random records srvMaxHosts = .ok result) :
    CommonWire (result.getD d) ↔ PollKeepsLeast d polled := by
  have hbounds : Bounds d.commonWireVersion d.servers := by
    rw [hd]
    exact bounds_least d.servers
  obtain ⟨polled', hpolled', hservers⟩ := poll_polled h
  rw [hpolled] at hpolled'
  cases hpolled'
  have hafter : Bounds d.commonWireVersion (result.getD d).servers := by
    refine ⟨hbounds.nonzero, fun a s hs hne => ?_⟩
    rcases hservers.forgets a s hs with hold | hfresh
    · exact hbounds.below a s hold hne
    · exact absurd (IsFresh.maxWireVersion hfresh) hne
  unfold CommonWire
  rw [poll_commonWireVersion hbounds.nonzero h, hafter.least_iff]
  refine forall_congr' fun w => forall_congr' fun hw => ?_
  constructor
  · rintro ⟨a, s, hs, rfl⟩
    rcases hservers.forgets a s hs with hold | hfresh
    · exact ⟨a, s, hold, rfl, hservers.subset a (contains_eq_true.2 ⟨s, hs⟩)⟩
    · rw [IsFresh.maxWireVersion hfresh] at hw
      exact absurd hw hbounds.nonzero
  · rintro ⟨a, s, hs, hversion, hin⟩
    exact ⟨a, s, hservers.kept a s hs hin, hversion⟩

end Poll

/-! ## Runs -/

section Runs

variable {rt : Runtime} {srvMaxHosts : Nat} {d d' : TopologyDescription} {e : SdamInput}

/-- A description changed by a report or a poll, unless that throws. -/
def sdamStep (rt : Runtime) (srvMaxHosts : Nat) (d : TopologyDescription) : SdamInput → Option TopologyDescription
  | .report sd => (d.update rt sd).toOption
  | .poll random records =>
    ((d.updateFromSrvPollingEvent rt random records srvMaxHosts).toOption).map fun result => result.getD d

/-- The input leaves a server that holds the least version. -/
def LeavesLeast (rt : Runtime) (d : TopologyDescription) : SdamInput → Prop
  | .report sd => KeepsLeast d sd
  | .poll _ records => ∀ polled, hostnames rt records = .ok polled → PollKeepsLeast d polled

theorem toOption_eq_some {α : Type} {x : Except AnyError α} {a : α} : x.toOption = some a ↔ x = .ok a := by
  cases x with
  | error e => simp [Except.toOption]
  | ok b => simp [Except.toOption]

theorem sdamStep_calm (hc : Calm d) (h : sdamStep rt srvMaxHosts d e = some d') : Calm d' := by
  cases e with
  | report sd => exact update_calm hc (toOption_eq_some.1 h)
  | poll random records =>
    obtain ⟨result, hresult, rfl⟩ := Option.map_eq_some_iff.1 h
    exact poll_calm hc (toOption_eq_some.1 hresult)

theorem sdamStep_commonWire_iff (hc : Calm d) (hd : CommonWire d) (h : sdamStep rt srvMaxHosts d e = some d') :
    CommonWire d' ↔ LeavesLeast rt d e := by
  cases e with
  | report sd => exact update_commonWire_iff hc hd (toOption_eq_some.1 h)
  | poll random records =>
    obtain ⟨result, hresult, rfl⟩ := Option.map_eq_some_iff.1 h
    have hresult := toOption_eq_some.1 hresult
    obtain ⟨polled, hpolled, -⟩ := poll_polled hresult
    rw [poll_commonWire_iff hd hpolled hresult]
    constructor
    · intro hkeeps polled' hpolled'
      rw [hpolled] at hpolled'
      cases hpolled'
      exact hkeeps
    · exact fun hleaves => hleaves polled hpolled

theorem initialDescription_commonWire (rt : Runtime) (options : TopologyOptions) (seeds : List HostAddress) :
    CommonWire (initialDescription rt options seeds) := by
  have hbounds : Bounds none (initialDescription rt options seeds).servers := by
    refine ⟨by decide, fun a s hs hne => ?_⟩
    rw [(initialDescription_get? hs).1] at hne
    exact absurd rfl hne
  exact hbounds.least_iff.2 fun w hw => by cases hw

end Runs

/-- Along a run of reports and polls from a description that the `Topology` constructor builds, the common wire version
is the least non-zero version of the servers in every description reached exactly when each input leaves a server that
holds it. -/
theorem common_wire_version_iff (rt : Runtime) (options : TopologyOptions) (seeds : List HostAddress)
    (srvMaxHosts : Nat) (es : List SdamInput) (d : TopologyDescription)
    (hrun : Run.exec (sdamStep rt srvMaxHosts) (initialDescription rt options seeds) es = some d) :
    (∀ es₁ es₂ d₁, es = es₁ ++ es₂ →
        Run.exec (sdamStep rt srvMaxHosts) (initialDescription rt options seeds) es₁ = some d₁ →
        d₁.commonWireVersion = leastWireVersion d₁.servers) ↔
      Run.Meets (sdamStep rt srvMaxHosts) (LeavesLeast rt) (initialDescription rt options seeds) es := by
  have hcalm : Calm (initialDescription rt options seeds) := (initialDescription_wellShaped rt options seeds).calm
  have hstep : ∀ s e t, Calm s ∧ CommonWire s → sdamStep rt srvMaxHosts s e = some t →
      (Calm t ∧ CommonWire t ↔ LeavesLeast rt s e) := by
    rintro s e t ⟨hc, hw⟩ h
    rw [← sdamStep_commonWire_iff hc hw h]
    exact ⟨fun ht => ht.2, fun ht => ⟨sdamStep_calm hc h, ht⟩⟩
  rw [Run.meets_iff _ hstep ⟨hcalm, initialDescription_commonWire rt options seeds⟩ hrun]
  constructor
  · intro hcommon es₁ es₂ d₁ hes hd₁
    exact ⟨Run.exec_inv _ (fun s e t hs h => sdamStep_calm hs h) hcalm hd₁, hcommon es₁ es₂ d₁ hes hd₁⟩
  · intro hgood es₁ es₂ d₁ hes hd₁
    exact (hgood es₁ es₂ d₁ hes hd₁).2

/-- The reply of the mongos after an upgrade. -/
def lanUpgraded : ServerDescription :=
  .new lanRuntime (lanHost "a") (some { msg := some "isdbgrid", minWireVersion := some 6, maxWireVersion := some 14 })

/-- After the only server was upgraded, the common version is still the old one. -/
theorem upgrade_unnoticed :
    ∃ d, Run.exec (sdamStep lanRuntime 0) (initialDescription lanRuntime {} [lanHost "a"])
        [.report (lanMongos "a"), .report lanUpgraded] = some d ∧
      d.commonWireVersion = some 13 ∧ leastWireVersion d.servers = some 14 := by
  have hrun : (Run.exec (sdamStep lanRuntime 0) (initialDescription lanRuntime {} [lanHost "a"])
      [.report (lanMongos "a"), .report lanUpgraded]).map
        (fun d => (d.commonWireVersion, leastWireVersion d.servers)) = some (some 13, some 14) := by
    decide
  obtain ⟨d, hd, hview⟩ := Option.map_eq_some_iff.1 hrun
  exact ⟨d, hd, congrArg Prod.fst hview, congrArg Prod.snd hview⟩

/-- The first reply of a mongos. -/
theorem common_wire_version_first :
    ∃ d, Run.exec (sdamStep lanRuntime 0) (initialDescription lanRuntime {} [lanHost "a"])
        [.report (lanMongos "a")] = some d ∧
      ((∀ es₁ es₂ d₁, [SdamInput.report (lanMongos "a")] = es₁ ++ es₂ →
          Run.exec (sdamStep lanRuntime 0) (initialDescription lanRuntime {} [lanHost "a"]) es₁ = some d₁ →
          d₁.commonWireVersion = leastWireVersion d₁.servers) ↔
        Run.Meets (sdamStep lanRuntime 0) (LeavesLeast lanRuntime) (initialDescription lanRuntime {} [lanHost "a"])
          [.report (lanMongos "a")]) := by
  have hrun : (Run.exec (sdamStep lanRuntime 0) (initialDescription lanRuntime {} [lanHost "a"])
      [.report (lanMongos "a")]).isSome := by
    decide
  obtain ⟨d, hd⟩ := Option.isSome_iff_exists.1 hrun
  exact ⟨d, hd, common_wire_version_iff lanRuntime {} [lanHost "a"] 0 [.report (lanMongos "a")] d hd⟩

end MongoDriver.Sdam
