/-
How a topology of type Unknown finds its type. The type follows from the first server that tells what it is, through
`topologyTypeForServerType`; arbiters are missing from its switch, so that the reply of an arbiter is stored and the
topology stays Unknown.
-/
import MongoDriver.Sdam.Election

namespace MongoDriver.Sdam

/-! ## What identifies a topology -/

/-- Types that say nothing about the deployment. -/
def ServerType.Mute (t : ServerType) : Prop := t = .unknown ∨ t = .rsGhost

/-- A topology is Unknown only while nothing is known about it. -/
def Identified (d : TopologyDescription) : Prop :=
  d.type = .unknown → ∀ a s, d.servers.get? a = some s → s.type.Mute

/-- The type that a server gives to a topology of type Unknown with `size` servers. -/
def Gives (size : Nat) : ServerType → TopologyType → Prop
  | .standalone, t => size = 1 → t = .single
  | .mongos, t => t = .sharded
  | .rsPrimary, t => t = .replicaSetWithPrimary ∨ t = .replicaSetNoPrimary
  | .rsSecondary, t | .rsArbiter, t | .rsOther, t => t = .replicaSetNoPrimary
  | .possiblePrimary, _ | .rsGhost, _ | .unknown, _ | .loadBalancer, _ => True

/-- The types that are stored in a topology which stays Unknown. -/
def ServerType.Unplaced (t : ServerType) : Prop := t = .rsArbiter ∨ t = .possiblePrimary ∨ t = .loadBalancer

/-! ## The cascade from Unknown -/

section Cascade

variable {rt : Runtime} {address : String} {sd : ServerDescription} {size : Nat} {v v' : Vars}

/-- A topology that is not Unknown does not become so. -/
theorem cascade_known (hv : v.type ≠ .unknown) (h : cascade rt address sd size v = .ok v') : v'.type ≠ .unknown := by
  have hcheck : ∀ m : ServerMap, checkHasPrimary m ≠ .unknown := by
    intro m
    rcases isReplicaSet_checkHasPrimary m with hm | hm <;> rw [hm] <;> decide
  unfold cascade at h
  rw [unknownBranch_skip hv] at h
  obtain ⟨v₁, h₁, h₂⟩ := Run.bind_ok.1 h
  have hsharded : (shardedBranch address sd v).type = v.type := by
    unfold shardedBranch
    split <;> rfl
  have hv₁ : v₁.type ≠ .unknown := by
    unfold noPrimaryBranch at h₁
    split at h₁
    · simp only at h₁
      split at h₁
      · rw [(updateRsFromPrimary_cases h₁).2.1]
        exact hcheck _
      · split at h₁
        · rw [(updateRsNoPrimaryFromMember_cases h₁).1]
          decide
        · cases h₁
          split
          · rw [hsharded]; exact hv
          · rw [hsharded]; exact hv
    · cases h₁
      rw [hsharded]; exact hv
  unfold withPrimaryBranch at h₂
  split at h₂
  · split at h₂
    · cases h₂
      exact hcheck _
    · split at h₂
      · rw [(updateRsFromPrimary_cases h₂).2.1]
        exact hcheck _
      · split at h₂
        · rw [(updateRsWithPrimaryFromMember_spec h₂).1]
          exact hcheck _
        · cases h₂
          exact hcheck _
  · cases h₂
    exact hv₁

/-- From Unknown, the server gives the topology its type, or the topology stays as it is: without a standalone server
that is not alone, or with the server stored. -/
theorem cascade_unknown_cases (hv : v.type = .unknown) (h : cascade rt address sd size v = .ok v') :
    (v'.type = .unknown ∧ v'.setName = v.setName ∧
      (sd.type = .standalone ∧ size ≠ 1 ∧ v'.servers = v.servers.erase address ∨
        (sd.type.Mute ∨ sd.type.Unplaced) ∧ v'.servers = v.servers)) ∨
    v'.type ≠ .unknown ∧ ¬ sd.type.Mute ∧ ¬ sd.type.Unplaced ∧ Gives size sd.type v'.type := by
  cases cascade_fromUnknown hv h with
  | dropped hst hsize => exact .inl ⟨hv, rfl, .inl ⟨hst, hsize, rfl⟩⟩
  | primary hst hupdate =>
    have hrs := isReplicaSet_checkHasPrimary v'.servers
    rw [← (updateRsFromPrimary_cases hupdate).2.1] at hrs
    rw [hst]
    refine .inr ⟨?_, by simp [ServerType.Mute], by simp [ServerType.Unplaced], hrs⟩
    rcases hrs with hrs | hrs <;> rw [hrs] <;> decide
  | member hst hupdate =>
    have htype : v'.type = .replicaSetNoPrimary := (updateRsNoPrimaryFromMember_cases hupdate).1
    refine .inr ⟨by rw [htype]; decide, ?_⟩
    rcases hst with hst | hst
    · rw [hst]
      exact ⟨by simp [ServerType.Mute], by simp [ServerType.Unplaced], htype⟩
    · rw [hst]
      exact ⟨by simp [ServerType.Mute], by simp [ServerType.Unplaced], htype⟩
  | typed halone hp hs ho =>
    cases hst : sd.type with
    | standalone =>
      exact .inr ⟨by simp [topologyTypeForServerType], by simp [ServerType.Mute], by simp [ServerType.Unplaced],
        fun _ => rfl⟩
    | mongos =>
      exact .inr ⟨by simp [topologyTypeForServerType], by simp [ServerType.Mute], by simp [ServerType.Unplaced], rfl⟩
    | rsPrimary => exact absurd hst hp
    | rsSecondary => exact absurd hst hs
    | rsOther => exact absurd hst ho
    | possiblePrimary | rsArbiter | rsGhost | unknown | loadBalancer =>
      exact .inl ⟨rfl, rfl, .inr ⟨by simp [ServerType.Mute, ServerType.Unplaced], rfl⟩⟩

end Cascade

/-! ## One update -/

section Update

variable {rt : Runtime} {d d' : TopologyDescription} {sd : ServerDescription}

/-- While the type is Unknown no set name is known. -/
def Nameless (d : TopologyDescription) : Prop := d.type = .unknown → d.setName = none

theorem applied_of_nameless (h : d.setName = none) : appliedDescription rt d.setName sd = .ok sd := by
  unfold appliedDescription
  rw [h]
  cases truthyStr sd.setName with
  | none => rfl
  | some n => rfl

/-- An update of an Unknown topology runs the cascade with the reply as it came. -/
theorem update_unknown (hd : d.type = .unknown) (hn : d.setName = none) (h : d.update rt sd = .ok d') :
    ∃ v, cascade rt sd.address sd d.servers.size (d.startVars sd.address sd) = .ok v ∧ d'.type = v.type ∧
      d'.servers = v.servers ∧ d'.setName = truthyStr v.setName := by
  obtain ⟨applied, v, ha, hv, rfl⟩ := update_cases h
  rw [applied_of_nameless hn] at ha
  cases ha
  rcases hv with ⟨hs, -⟩ | ⟨-, hv⟩
  · rw [hd] at hs; cases hs
  · exact ⟨v, hv, rfl, rfl, rfl⟩

theorem update_known (hd : d.type ≠ .unknown) (h : d.update rt sd = .ok d') : d'.type ≠ .unknown := by
  obtain ⟨applied, v, -, ⟨-, rfl⟩ | ⟨-, hv⟩, rfl⟩ := update_cases h
  · exact hd
  · exact cascade_known (v := d.startVars sd.address applied) hd hv

theorem update_nameless (hn : Nameless d) (h : d.update rt sd = .ok d') : Nameless d' := by
  intro hd'
  by_cases hd : d.type = .unknown
  · obtain ⟨v, hv, htype, -, hname⟩ := update_unknown hd (hn hd) h
    rcases cascade_unknown_cases hd hv with ⟨-, hkept, -⟩ | ⟨hknown, -⟩
    · rw [hname, hkept]
      show truthyStr d.setName = none
      rw [hn hd]
      rfl
    · exact absurd (htype.symm.trans hd') hknown
  · exact absurd hd' (update_known hd h)

/-- From an identified topology, an update leads to an identified one unless it stores a server that has no place. -/
theorem update_identified_iff (hn : Nameless d) (hi : Identified d) (h : d.update rt sd = .ok d') :
    Identified d' ↔ (d.type = .unknown → ¬ sd.type.Unplaced) := by
  by_cases hd : d.type = .unknown
  swap
  · exact iff_of_true (fun hd' => absurd hd' (update_known hd h)) fun hd' => absurd hd' hd
  obtain ⟨v, hv, htype, hservers, -⟩ := update_unknown hd (hn hd) h
  unfold Identified
  rw [htype, hservers]
  rcases cascade_unknown_cases hd hv with ⟨hunknown, -, hcase⟩ | ⟨hknown, -, hplaced, -⟩
  · rcases hcase with ⟨hst, -, hm⟩ | ⟨hkind, hm⟩
    · -- the standalone server is removed, and the others were mute before
      refine iff_of_true (fun _ a s hs => ?_) fun _ => by rw [hst]; simp [ServerType.Unplaced]
      rw [hm] at hs
      obtain ⟨hne, hs⟩ := OrderedMap.get?_of_get?_erase hs
      change (d.servers.set sd.address sd).get? a = some s at hs
      rw [OrderedMap.get?_set_ne _ _ hne] at hs
      exact hi hd a s hs
    · rw [hm]
      constructor
      · intro hall _ hun
        have hmute := hall hunknown sd.address sd (OrderedMap.get?_set_self ..)
        rcases hmute with hmute | hmute <;> rw [hmute] at hun <;> simp [ServerType.Unplaced] at hun
      · intro hplaced _ a s hs
        change (d.servers.set sd.address sd).get? a = some s at hs
        rw [OrderedMap.get?_set] at hs
        split at hs
        · cases hs
          exact hkind.resolve_right (hplaced hd)
        · exact hi hd a s hs
  · exact iff_of_true (fun hu => absurd hu hknown) fun _ => hplaced

/-- What identifies an Unknown topology gives it its type. -/
theorem update_gives (hn : Nameless d) (hd : d.type = .unknown) (hplaced : ¬ sd.type.Unplaced)
    (h : d.update rt sd = .ok d') : Gives d.servers.size sd.type d'.type := by
  obtain ⟨v, hv, htype, -, -⟩ := update_unknown hd (hn hd) h
  rw [htype]
  rcases cascade_unknown_cases hd hv with ⟨hunknown, -, ⟨hst, hsize, -⟩ | ⟨hkind, -⟩⟩ | ⟨-, -, -, hgives⟩
  · rw [hst]
    exact fun hone => absurd hone hsize
  · rcases hkind.resolve_right hplaced with hmute | hmute <;> rw [hmute] <;> trivial
  · exact hgives

end Update

/-! ## Runs -/

/-- One update of a run. An update that throws is no step. -/
def updateStep (rt : Runtime) (d : TopologyDescription) (sd : ServerDescription) : Option TopologyDescription :=
  (d.update rt sd).toOption

theorem updateStep_some {rt : Runtime} {d d' : TopologyDescription} {sd : ServerDescription} :
    updateStep rt d sd = some d' ↔ d.update rt sd = .ok d' := by
  unfold updateStep
  cases d.update rt sd with
  | error e => simp [Except.toOption]
  | ok t => simp [Except.toOption]

theorem initialDescription_nameless (rt : Runtime) (options : TopologyOptions) (seeds : List HostAddress) :
    Nameless (initialDescription rt options seeds) := by
  intro ht
  change topologyTypeFromOptions options = _ at ht
  show truthyStr options.replicaSet = none
  unfold topologyTypeFromOptions at ht
  cases hr : truthyStr options.replicaSet with
  | none => rfl
  | some n =>
    rw [hr] at ht
    split at ht
    · cases ht
    · simp at ht

theorem initialDescription_identified (rt : Runtime) (options : TopologyOptions) (seeds : List HostAddress) :
    Identified (initialDescription rt options seeds) := by
  intro _ a s hs
  obtain ⟨rfl, seed, -, rfl⟩ := initialDescription_get? hs
  exact .inl rfl

/-- Along a run of updates from a description that the `Topology` constructor builds, a topology is Unknown only while
every server is Unknown or a ghost, and a server that tells what it is gives an Unknown topology its type, exactly
when no arbiter (nor a possible primary or a load balancer) is stored in a topology that is Unknown. -/
theorem first_identification_iff (rt : Runtime) (options : TopologyOptions) (seeds : List HostAddress)
    (sds : List ServerDescription) (d : TopologyDescription)
    (hrun : Run.exec (updateStep rt) (initialDescription rt options seeds) sds = some d) :
    ((∀ sds₁ sds₂ d₁, sds = sds₁ ++ sds₂ →
        Run.exec (updateStep rt) (initialDescription rt options seeds) sds₁ = some d₁ → Identified d₁) ∧
      ∀ sds₁ sd sds₂ d₁ d₂, sds = sds₁ ++ sd :: sds₂ →
        Run.exec (updateStep rt) (initialDescription rt options seeds) sds₁ = some d₁ → d₁.update rt sd = .ok d₂ →
        d₁.type = .unknown → Gives d₁.servers.size sd.type d₂.type) ↔
      Run.Meets (updateStep rt) (fun d sd => d.type = .unknown → ¬ sd.type.Unplaced)
        (initialDescription rt options seeds) sds := by
  have hnameless : ∀ {sds₁ d₁}, Run.exec (updateStep rt) (initialDescription rt options seeds) sds₁ = some d₁ →
      Nameless d₁ :=
    Run.exec_inv (updateStep rt) (fun d sd d' hn h => update_nameless hn (updateStep_some.1 h))
      (initialDescription_nameless rt options seeds)
  have hmeets := Run.meets_iff (updateStep rt) (P := fun d => Nameless d ∧ Identified d)
    (C := fun d sd => d.type = .unknown → ¬ sd.type.Unplaced)
    (fun d sd d' hd h => by
      rw [← update_identified_iff hd.1 hd.2 (updateStep_some.1 h)]
      exact ⟨And.right, fun hi => ⟨update_nameless hd.1 (updateStep_some.1 h), hi⟩⟩)
    ⟨initialDescription_nameless rt options seeds, initialDescription_identified rt options seeds⟩ hrun
  constructor
  · rintro ⟨hall, -⟩
    exact hmeets.2 fun sds₁ sds₂ d₁ hsds h₁ => ⟨hnameless h₁, hall sds₁ sds₂ d₁ hsds h₁⟩
  · intro hm
    refine ⟨fun sds₁ sds₂ d₁ hsds h₁ => (hmeets.1 hm sds₁ sds₂ d₁ hsds h₁).2, ?_⟩
    intro sds₁ sd sds₂ d₁ d₂ hsds h₁ h₂ hd
    rw [hsds] at hm
    exact update_gives (hnameless h₁) hd (hm.holds h₁ hd) h₂

/-- The reply of an arbiter of the two-host replica set. -/
def lanArbiter : ServerDescription :=
  .new lanRuntime (lanHost "a") (some { lanHello false with secondary := false, arbiterOnly := true })

/-- A topology whose first reply comes from an arbiter stays Unknown, with the arbiter in it. -/
theorem arbiter_unidentified :
    ∃ d, Run.exec (updateStep lanRuntime) (initialDescription lanRuntime {} [lanHost "a"]) [lanArbiter] = some d ∧
      d.type = .unknown ∧ ¬ Identified d := by
  have hrun : (Run.exec (updateStep lanRuntime) (initialDescription lanRuntime {} [lanHost "a"]) [lanArbiter]).map
      (fun d => (d.type, (d.servers.get? "a:27017").map (·.type))) = some (.unknown, some .rsArbiter) := by
    decide
  obtain ⟨d, hd, hview⟩ := Option.map_eq_some_iff.1 hrun
  obtain ⟨htype, hserver⟩ := Prod.mk.inj hview
  refine ⟨d, hd, htype, fun hi => ?_⟩
  obtain ⟨s, hs, hst⟩ := Option.map_eq_some_iff.1 hserver
  rcases hi htype _ s hs with hmute | hmute <;> rw [hmute] at hst <;> cases hst

/-- A topology whose first reply comes from a primary. -/
theorem first_identification_primary :
    ∃ d, Run.exec (updateStep lanRuntime) (initialDescription lanRuntime {} [lanHost "a"]) [lanReport "a" true] =
      some d ∧ Run.Meets (updateStep lanRuntime) (fun d sd => d.type = .unknown → ¬ sd.type.Unplaced)
        (initialDescription lanRuntime {} [lanHost "a"]) [lanReport "a" true] ∧ Identified d := by
  have hrun : (Run.exec (updateStep lanRuntime) (initialDescription lanRuntime {} [lanHost "a"])
      [lanReport "a" true]).isSome := by
    decide
  obtain ⟨d, hd⟩ := Option.isSome_iff_exists.1 hrun
  have hmeets : Run.Meets (updateStep lanRuntime) (fun d sd => d.type = .unknown → ¬ sd.type.Unplaced)
      (initialDescription lanRuntime {} [lanHost "a"]) [lanReport "a" true] := by
    refine ⟨fun _ hun => ?_, fun _ _ => trivial⟩
    have htype : (lanReport "a" true).type = .rsPrimary := rfl
    rw [htype] at hun
    simp [ServerType.Unplaced] at hun
  have hall := ((first_identification_iff lanRuntime {} [lanHost "a"] [lanReport "a" true] d hd).2 hmeets).1
  exact ⟨d, hd, hmeets, hall [lanReport "a" true] [] d rfl hd⟩

end MongoDriver.Sdam
