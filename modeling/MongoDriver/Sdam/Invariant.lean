/-
The shape of every topology description reached by updates: which server types a description of
each topology type can hold, and that a replica set has exactly one primary when its type says so.
One update keeps the shape whatever the addresses look like; when all addresses are canonical it
also never throws, so a run of updates of any length returns a well-shaped description.
-/
import MongoDriver.Sdam.Update

namespace MongoDriver.Sdam

/-! ## Server types that a map avoids -/

/-- No server of the map has one of the types. -/
def Avoids (bad : List ServerType) (m : ServerMap) : Prop := ∀ a s, m.get? a = some s → s.type ∉ bad

theorem Forgets.avoids {bad : List ServerType} {m m' : ServerMap} (h : Forgets m m') (hu : .unknown ∉ bad)
    (ha : Avoids bad m) : Avoids bad m' := by
  intro a s hs
  rcases h a s hs with h | h
  · exact ha a s h
  · rw [h.type]; exact hu

theorem Avoids.mono {bad bad' : List ServerType} {m : ServerMap} (h : Avoids bad m)
    (hs : ∀ t ∈ bad', t ∈ bad) : Avoids bad' m :=
  fun a s hm ht => h a s hm (hs _ ht)

theorem Avoids.set {bad : List ServerType} {m : ServerMap} {a : String} {sd : ServerDescription}
    (h : Avoids bad m) (ht : sd.type ∉ bad) : Avoids bad (m.set a sd) := by
  intro b s hs
  rw [OrderedMap.get?_set] at hs
  split at hs
  · cases hs; exact ht
  · exact h b s hs

/-- The entry just stored is the only one that can be of a bad type. -/
theorem Avoids.set_erase {bad : List ServerType} {m : ServerMap} {a : String} {sd : ServerDescription}
    (h : Avoids bad m) : Avoids bad ((m.set a sd).erase a) := by
  intro b s hs
  obtain ⟨hne, hs⟩ := OrderedMap.get?_of_get?_erase hs
  rw [OrderedMap.get?_set_ne _ _ hne] at hs
  exact h b s hs

/-! ## The shape of a description -/

/-- Types no replica set holds. -/
abbrev notReplicaSet : List ServerType := [.mongos, .standalone]

/-- The server types that fit the topology type, and the number of primaries. -/
def Shape : TopologyType → ServerMap → Prop
  | .unknown, m => Avoids [.standalone, .mongos, .rsPrimary, .rsSecondary, .rsOther] m
  | .sharded, m => Avoids [.standalone, .rsPrimary, .rsSecondary, .rsOther] m
  | .replicaSetNoPrimary, m => Avoids notReplicaSet m ∧ ∀ a s, ¬ PrimaryAt m a s
  | .replicaSetWithPrimary, m => Avoids notReplicaSet m ∧ OnePrimary m ∧ ∃ a s, PrimaryAt m a s
  | .single, _ => True
  | .loadBalanced, _ => True

theorem shape_checkHasPrimary {m : ServerMap} (ha : Avoids notReplicaSet m) (ho : OnePrimary m) :
    Shape (checkHasPrimary m) m := by
  rcases checkHasPrimary_cases m with ⟨ht, hp⟩ | ⟨ht, hp⟩
  · rw [ht]; exact ⟨ha, ho, hp⟩
  · rw [ht]; exact ⟨ha, hp⟩

/-- A description that avoids primaries has none. -/
theorem Avoids.no_primary {bad : List ServerType} {m : ServerMap} (h : Avoids bad m) (hb : .rsPrimary ∈ bad) :
    ∀ a s, ¬ PrimaryAt m a s :=
  fun a s hp => h a s hp.1 (by rw [hp.2]; exact hb)

theorem onePrimary_of_none {m : ServerMap} (h : ∀ a s, ¬ PrimaryAt m a s) : OnePrimary m :=
  fun a s _ _ ha => absurd ha (h a s)

/-- What the replica-set branches start from: at most one primary apart from the reporting
server, and nothing foreign to a replica set apart from it. -/
structure RsReady (address : String) (sd : ServerDescription) (m : ServerMap) : Prop where
  keyed : Keyed m
  others : ∀ a s b t, PrimaryAt m a s → PrimaryAt m b t → s.address ≠ sd.address → t.address ≠ sd.address → a = b
  members : mongosOrStandalone sd.type = false → Avoids notReplicaSet m
  rest : Avoids notReplicaSet (m.erase address)
  one : sd.type ≠ .rsPrimary → OnePrimary m

section Start

variable {m : ServerMap} {address : String} {sd : ServerDescription}

theorem keyed_set (hk : Keyed m) (hsd : sd.type ≠ .unknown → sd.address = address) :
    Keyed (m.set address sd) := by
  intro a s hs ht
  rw [OrderedMap.get?_set] at hs
  split at hs
  · rename_i ha; cases hs; rw [ha]; exact hsd ht
  · exact hk a s hs ht

theorem primaryAt_set_cases {a : String} {s : ServerDescription} (h : PrimaryAt (m.set address sd) a s) :
    (a = address ∧ s = sd) ∨ PrimaryAt m a s := by
  obtain ⟨hg, ht⟩ := h
  rw [OrderedMap.get?_set] at hg
  split at hg
  · rename_i ha; cases hg; exact .inl ⟨ha, rfl⟩
  · exact .inr ⟨hg, ht⟩

theorem primaryAt_set_other {a : String} {s : ServerDescription} (h : PrimaryAt (m.set address sd) a s)
    (ht : sd.type ≠ .rsPrimary) : PrimaryAt m a s := by
  rcases primaryAt_set_cases h with ⟨-, rfl⟩ | h'
  · exact absurd h.2 ht
  · exact h'

theorem rsReady_set (hk : Keyed m) (ho : OnePrimary m) (ha : Avoids notReplicaSet m)
    (hsd : sd.type ≠ .unknown → sd.address = address) : RsReady address sd (m.set address sd) where
  keyed := keyed_set hk hsd
  others := by
    intro a s b t hs ht hna hnb
    rcases primaryAt_set_cases hs with ⟨-, rfl⟩ | hs
    · exact absurd rfl hna
    rcases primaryAt_set_cases ht with ⟨-, rfl⟩ | ht
    · exact absurd rfl hnb
    exact ho a s b t hs ht
  members := by
    intro hm
    refine ha.set ?_
    unfold mongosOrStandalone at hm
    simpa using hm
  rest := ha.set_erase
  one := fun ht a s b t hs hb => ho a s b t (primaryAt_set_other hs ht) (primaryAt_set_other hb ht)

end Start

/-! ## The branches keep the shape -/

section Branches

variable {rt : Runtime} {address : String} {sd : ServerDescription} {v v' : Vars}

theorem not_primary_of_foreign (h : mongosOrStandalone sd.type = true) : sd.type ≠ .rsPrimary := by
  intro e; rw [e] at h; cases h

/-- A primary's report leaves at most one primary and a map ready for a second application. -/
theorem updateRsFromPrimary_ready (hr : RsReady address sd v.servers) (ht : sd.type = .rsPrimary)
    (h : updateRsFromPrimary rt sd v = .ok v') :
    RsReady address sd v'.servers ∧ Shape v'.type v'.servers := by
  have hf := updateRsFromPrimary_forgets h
  have ho := updateRsFromPrimary_onePrimary h hr.keyed hr.others
  have hm : mongosOrStandalone sd.type = false := by rw [ht]; rfl
  have ha := hf.avoids (by decide) (hr.members hm)
  refine ⟨⟨hf.keyed hr.keyed, fun a s b t hs ht _ _ => ho a s b t hs ht, fun _ => ha,
    (forgets_erase _ _).avoids (by decide) ha, fun hn => absurd ht hn⟩, ?_⟩
  rw [(updateRsFromPrimary_cases h).2.1]
  exact shape_checkHasPrimary ha ho

theorem withPrimaryBranch_shape (hr : RsReady address sd v.servers) (ht : v.type = .replicaSetWithPrimary)
    (h : withPrimaryBranch rt address sd v = .ok v') : Keyed v'.servers ∧ Shape v'.type v'.servers := by
  unfold withPrimaryBranch at h
  rw [if_pos ht] at h
  split at h
  · rename_i hm
    cases h
    have hf := forgets_erase v.servers address
    exact ⟨hf.keyed hr.keyed, shape_checkHasPrimary hr.rest (hf.onePrimary (hr.one (not_primary_of_foreign hm)))⟩
  · rename_i hm
    have ha := hr.members (by simpa using hm)
    split at h
    · rename_i hp
      obtain ⟨hr', hs⟩ := updateRsFromPrimary_ready hr hp h
      exact ⟨hr'.keyed, hs⟩
    · rename_i hp
      split at h
      · have h1 := (updateRsWithPrimaryFromMember_spec h).1
        have hf : Forgets v.servers v'.servers := Entries.updateRsWithPrimaryFromMember (Forgets.refl v.servers) h
        refine ⟨hf.keyed hr.keyed, ?_⟩
        rw [h1]
        exact shape_checkHasPrimary (hf.avoids (by decide) ha) (hf.onePrimary (hr.one hp))
      · cases h
        exact ⟨hr.keyed, shape_checkHasPrimary ha (hr.one hp)⟩

/-- A member adds hosts as unknown servers, or removes itself: no primary appears. -/
theorem updateRsNoPrimaryFromMember_shape (hr : RsReady address sd v.servers) (hm : mongosOrStandalone sd.type = false)
    (hno : ∀ a s, ¬ PrimaryAt v.servers a s) (h : updateRsNoPrimaryFromMember rt sd v = .ok v') :
    Keyed v'.servers ∧ Shape v'.type v'.servers ∧ v'.type = .replicaSetNoPrimary := by
  have htype := (updateRsNoPrimaryFromMember_cases h).1
  have hf : Forgets v.servers v'.servers :=
    Entries.updateRsNoPrimaryFromMember (Forgets.refl v.servers) (forgets_resets rt v.servers sd) h
  refine ⟨hf.keyed hr.keyed, ?_, htype⟩
  rw [htype]
  exact ⟨hf.avoids (by decide) (hr.members hm), fun a s hp => hno a s (hf.primaryAt hp)⟩

/-- Without a primary, only a primary's own report can lead to a topology with one. -/
theorem noPrimaryBranch_shape (hr : RsReady address sd v.servers) (ht : v.type = .replicaSetNoPrimary)
    (hno : sd.type ≠ .rsPrimary → ∀ a s, ¬ PrimaryAt v.servers a s)
    (h : noPrimaryBranch rt address sd v = .ok v') :
    Keyed v'.servers ∧ Shape v'.type v'.servers ∧
      (v'.type = .replicaSetWithPrimary → RsReady address sd v'.servers) := by
  unfold noPrimaryBranch at h
  rw [if_pos ht] at h
  have hfe := forgets_erase v.servers address
  by_cases hm : mongosOrStandalone sd.type = true
  · -- foreign servers are dropped; neither helper applies to them
    have hnp := not_primary_of_foreign hm
    have hnm : nonPrimaryRsMember sd.type = false := by
      revert hm; unfold mongosOrStandalone nonPrimaryRsMember
      cases sd.type <;> decide
    simp only [hm, if_true, hnp, if_false, hnm, Bool.false_eq_true] at h
    cases h
    have hs : Shape v.type (v.servers.erase address) := by
      rw [ht]; exact ⟨hr.rest, fun a s hp => hno hnp a s (hfe.primaryAt hp)⟩
    refine ⟨hfe.keyed hr.keyed, hs, fun hw => ?_⟩
    rw [ht] at hw; cases hw
  · simp only [hm, Bool.false_eq_true, if_false] at h
    have ha := hr.members (by simpa using hm)
    split at h
    · rename_i hp
      obtain ⟨hr', hs⟩ := updateRsFromPrimary_ready hr hp h
      exact ⟨hr'.keyed, hs, fun _ => hr'⟩
    · rename_i hp
      split at h
      · obtain ⟨hk, hs, htype⟩ := updateRsNoPrimaryFromMember_shape hr (by simpa using hm) (hno hp) h
        refine ⟨hk, hs, fun hw => ?_⟩
        rw [htype] at hw; cases hw
      · cases h
        refine ⟨hr.keyed, ?_, fun hw => ?_⟩
        · rw [ht]; exact ⟨ha, hno hp⟩
        · rw [ht] at hw; cases hw

theorem withPrimaryBranch_skip (ht : v.type ≠ .replicaSetWithPrimary) :
    withPrimaryBranch rt address sd v = .ok v := by
  unfold withPrimaryBranch; rw [if_neg ht]

theorem noPrimaryBranch_skip (ht : v.type ≠ .replicaSetNoPrimary) : noPrimaryBranch rt address sd v = .ok v := by
  unfold noPrimaryBranch; rw [if_neg ht]

theorem shardedBranch_skip (ht : v.type ≠ .sharded) : shardedBranch address sd v = v := by
  unfold shardedBranch; rw [if_neg (by simp [ht])]

theorem unknownBranch_skip {size : Nat} (ht : v.type ≠ .unknown) : unknownBranch address sd size v = v := by
  unfold unknownBranch; rw [if_neg ht]

/-- The replica-set half of the cascade, from a topology without a primary. -/
theorem noPrimary_cascade_shape (hr : RsReady address sd v.servers) (ht : v.type = .replicaSetNoPrimary)
    (hno : sd.type ≠ .rsPrimary → ∀ a s, ¬ PrimaryAt v.servers a s)
    (h : (noPrimaryBranch rt address sd v >>= withPrimaryBranch rt address sd) = .ok v') :
    Keyed v'.servers ∧ Shape v'.type v'.servers := by
  cases h1 : noPrimaryBranch rt address sd v with
  | error e => rw [h1] at h; cases h
  | ok v₁ =>
    rw [h1] at h
    change withPrimaryBranch rt address sd v₁ = .ok v' at h
    obtain ⟨hk, hs, hw⟩ := noPrimaryBranch_shape hr ht hno h1
    by_cases hv : v₁.type = .replicaSetWithPrimary
    · exact withPrimaryBranch_shape (hw hv) hv h
    · rw [withPrimaryBranch_skip hv] at h; cases h; exact ⟨hk, hs⟩

/-- The replica-set half of the cascade, from a topology with a primary. -/
theorem withPrimary_cascade_shape (hr : RsReady address sd v.servers) (ht : v.type = .replicaSetWithPrimary)
    (h : (noPrimaryBranch rt address sd v >>= withPrimaryBranch rt address sd) = .ok v') :
    Keyed v'.servers ∧ Shape v'.type v'.servers := by
  rw [noPrimaryBranch_skip (by rw [ht]; decide)] at h
  exact withPrimaryBranch_shape hr ht h

/-- The cascade passes every other topology type through. -/
theorem other_cascade (h1 : v.type ≠ .replicaSetNoPrimary) (h2 : v.type ≠ .replicaSetWithPrimary)
    (h : (noPrimaryBranch rt address sd v >>= withPrimaryBranch rt address sd) = .ok v') : v' = v := by
  rw [noPrimaryBranch_skip h1] at h
  change withPrimaryBranch rt address sd v = .ok v' at h
  rw [withPrimaryBranch_skip h2] at h
  cases h; rfl

/-- What the cascade does from Unknown. -/
inductive FromUnknown (rt : Runtime) (address : String) (sd : ServerDescription) (size : Nat) (v : Vars) : Vars → Prop
  /-- One standalone of several seeds. -/
  | dropped (hst : sd.type = .standalone) (hsize : size ≠ 1) :
    FromUnknown rt address sd size v { v with servers := v.servers.erase address }
  | primary {v' : Vars} (hst : sd.type = .rsPrimary)
    (h : updateRsFromPrimary rt sd { v with type := .replicaSetWithPrimary } = .ok v') :
    FromUnknown rt address sd size v v'
  | member {v' : Vars} (hst : sd.type = .rsSecondary ∨ sd.type = .rsOther)
    (h : updateRsNoPrimaryFromMember rt sd { v with type := .replicaSetNoPrimary } = .ok v') :
    FromUnknown rt address sd size v v'
  /-- The server is stored, and the type of the topology is that for its type. -/
  | typed (halone : ¬ (sd.type = .standalone ∧ size ≠ 1)) (hp : sd.type ≠ .rsPrimary) (hs : sd.type ≠ .rsSecondary)
    (ho : sd.type ≠ .rsOther) : FromUnknown rt address sd size v { v with type := topologyTypeForServerType sd.type }

theorem cascade_fromUnknown {size : Nat} (hv : v.type = .unknown) (h : cascade rt address sd size v = .ok v') :
    FromUnknown rt address sd size v v' := by
  unfold cascade unknownBranch at h
  rw [if_pos hv] at h
  split at h
  · rename_i halone
    rw [shardedBranch_skip (by simp [hv])] at h
    cases other_cascade (by simp [hv]) (by simp [hv]) h
    exact .dropped halone.1 halone.2
  · rename_i halone
    -- a mongos stays in the sharded topology that it makes
    have hstays : shardedBranch address sd { v with type := topologyTypeForServerType sd.type } =
        { v with type := topologyTypeForServerType sd.type } := by
      unfold shardedBranch
      rw [if_neg]
      rintro ⟨hsharded, hforeign⟩
      have hmongos : topologyTypeForServerType sd.type = .sharded → mongosOrUnknown sd.type = true := by
        cases sd.type <;> decide
      rw [hmongos hsharded] at hforeign
      cases hforeign
    rw [hstays] at h
    have htyped : topologyTypeForServerType sd.type ≠ .replicaSetNoPrimary →
        topologyTypeForServerType sd.type ≠ .replicaSetWithPrimary → sd.type ≠ .rsPrimary → sd.type ≠ .rsSecondary →
        sd.type ≠ .rsOther → FromUnknown rt address sd size v v' := by
      intro hno hwith hp hs ho
      cases other_cascade hno hwith h
      exact .typed halone hp hs ho
    cases hst : sd.type with
    | rsPrimary =>
      rw [hst, noPrimaryBranch_skip (by simp [topologyTypeForServerType])] at h
      obtain ⟨v₁, h₁, h₂⟩ := Run.bind_ok.1 h
      cases h₁
      unfold withPrimaryBranch at h₂
      simp only [topologyTypeForServerType, hst, mongosOrStandalone, if_true] at h₂
      exact .primary hst h₂
    | rsSecondary | rsOther =>
      rw [hst] at h
      obtain ⟨v₁, h₁, h₂⟩ := Run.bind_ok.1 h
      unfold noPrimaryBranch at h₁
      simp only [topologyTypeForServerType, hst, mongosOrStandalone, nonPrimaryRsMember] at h₁
      have htype : v₁.type = .replicaSetNoPrimary := (updateRsNoPrimaryFromMember_cases h₁).1
      rw [withPrimaryBranch_skip (by rw [htype]; decide)] at h₂
      cases h₂
      exact .member (by simp [hst]) h₁
    | standalone | mongos | possiblePrimary | rsArbiter | rsGhost | unknown | loadBalancer =>
      rw [hst] at htyped
      exact htyped (by decide) (by decide) (by decide) (by decide) (by decide)

end Branches

/-! ## One update keeps the shape -/

section Cascade

variable {rt : Runtime} {address : String} {sd : ServerDescription} {m : ServerMap} {v' : Vars}

/-- The first identification of an unknown topology. -/
theorem cascade_unknown {size : Nat} {v : Vars} (ht : v.type = .unknown) (hv : v.servers = m.set address sd)
    (hk : Keyed m) (hs : Shape .unknown m) (hsd : sd.type ≠ .unknown → sd.address = address)
    (h : cascade rt address sd size v = .ok v') : Keyed v'.servers ∧ Shape v'.type v'.servers := by
  have ha : Avoids notReplicaSet m := hs.mono (by decide)
  have hnone := hs.no_primary (by decide)
  -- the topology may turn into a replica set in this very call
  have hready : RsReady address sd v.servers := hv ▸ rsReady_set hk (onePrimary_of_none hnone) ha hsd
  have hkv : Keyed v.servers := hready.keyed
  cases cascade_fromUnknown ht h with
  | dropped =>
    refine ⟨(forgets_erase _ _).keyed hkv, ?_⟩
    show Shape v.type (v.servers.erase address)
    rw [ht, hv]
    exact Avoids.set_erase hs
  | primary hst hupdate =>
    obtain ⟨hr, hshape⟩ := updateRsFromPrimary_ready (v := { v with type := .replicaSetWithPrimary }) hready hst hupdate
    exact ⟨hr.keyed, hshape⟩
  | member hst hupdate =>
    have hforeign : mongosOrStandalone sd.type = false := by
      rcases hst with hst | hst <;> rw [hst] <;> rfl
    have hother : sd.type ≠ .rsPrimary := by
      rcases hst with hst | hst <;> rw [hst] <;> decide
    obtain ⟨hk', hshape, -⟩ := updateRsNoPrimaryFromMember_shape (v := { v with type := .replicaSetNoPrimary }) hready
      hforeign (fun a s hp => hnone a s (primaryAt_set_other (hv ▸ hp) hother)) hupdate
    exact ⟨hk', hshape⟩
  | typed halone hp hs' ho =>
    refine ⟨hkv, ?_⟩
    show Shape (topologyTypeForServerType sd.type) v.servers
    rw [hv]
    cases hst : sd.type with
    | standalone => trivial
    | mongos => exact (hs.mono (by decide)).set (by rw [hst]; decide)
    | rsPrimary => exact absurd hst hp
    | rsSecondary => exact absurd hst hs'
    | rsOther => exact absurd hst ho
    | possiblePrimary | rsArbiter | rsGhost | unknown | loadBalancer => exact Avoids.set hs (by rw [hst]; decide)

/-- The cascade keeps the shape of every topology type. -/
theorem cascade_shape {size : Nat} {v : Vars} (hv : v.servers = m.set address sd) (hk : Keyed m)
    (hs : Shape v.type m) (hsd : sd.type ≠ .unknown → sd.address = address)
    (h : cascade rt address sd size v = .ok v') : Keyed v'.servers ∧ Shape v'.type v'.servers := by
  have hkv : Keyed v.servers := hv ▸ keyed_set hk hsd
  by_cases hu : v.type = .unknown
  · exact cascade_unknown hu hv hk (hu ▸ hs) hsd h
  unfold cascade at h
  rw [unknownBranch_skip hu] at h
  cases ht : v.type with
  | unknown => exact absurd ht hu
  | single =>
    rw [shardedBranch_skip (by rw [ht]; decide)] at h
    cases other_cascade (by rw [ht]; decide) (by rw [ht]; decide) h
    exact ⟨hkv, by rw [ht]; trivial⟩
  | loadBalanced =>
    rw [shardedBranch_skip (by rw [ht]; decide)] at h
    cases other_cascade (by rw [ht]; decide) (by rw [ht]; decide) h
    exact ⟨hkv, by rw [ht]; trivial⟩
  | sharded =>
    rw [ht] at hs
    unfold shardedBranch at h
    split at h
    · cases other_cascade (by simp [ht]) (by simp [ht]) h
      refine ⟨(forgets_erase _ _).keyed hkv, ?_⟩
      show Shape v.type (v.servers.erase address)
      rw [ht, hv]
      exact Avoids.set_erase hs
    · -- a server that stays is a mongos or unknown
      rename_i hmu
      cases other_cascade (by simp [ht]) (by simp [ht]) h
      refine ⟨hkv, ?_⟩
      rw [ht, hv]
      refine Avoids.set hs ?_
      have : mongosOrUnknown sd.type = true := by simpa [ht] using hmu
      revert this; unfold mongosOrUnknown; cases sd.type <;> decide
  | replicaSetNoPrimary =>
    rw [ht] at hs
    rw [shardedBranch_skip (by rw [ht]; decide)] at h
    have hready : RsReady address sd v.servers := hv ▸ rsReady_set hk (onePrimary_of_none hs.2) hs.1 hsd
    refine noPrimary_cascade_shape hready ht ?_ h
    intro hn a s hp
    exact hs.2 a s (primaryAt_set_other (hv ▸ hp) hn)
  | replicaSetWithPrimary =>
    rw [ht] at hs
    rw [shardedBranch_skip (by rw [ht]; decide)] at h
    exact withPrimary_cascade_shape (hv ▸ rsReady_set hk hs.2.1 hs.1 hsd) ht h

end Cascade

/-- The invariant of reachable descriptions. -/
structure WellShaped (d : TopologyDescription) : Prop where
  keyed : Keyed d.servers
  shape : Shape d.type d.servers

theorem update_wellShaped {rt : Runtime} {d d' : TopologyDescription} {sd₀ : ServerDescription}
    (hd : WellShaped d) (h : d.update rt sd₀ = .ok d') : WellShaped d' := by
  obtain ⟨sd, v, ha, hv, rfl⟩ := update_cases h
  have hsd : sd.type ≠ .unknown → sd.address = sd₀.address := by
    intro ht
    rcases appliedDescription_cases ha with rfl | hf
    · rfl
    · exact absurd hf.type ht
  rcases hv with ⟨hs, rfl⟩ | ⟨-, hc⟩
  · refine ⟨keyed_set hd.keyed hsd, ?_⟩
    show Shape d.type _
    rw [hs]; trivial
  · obtain ⟨hk, hs⟩ := cascade_shape (v := d.startVars sd₀.address sd) rfl hd.keyed hd.shape hsd hc
    exact ⟨hk, hs⟩

/-! ## Canonical addresses: no update throws -/

section Total

variable {rt : Runtime}

/-- Every server of the map has a canonical address. -/
def CanonicalMap (rt : Runtime) (m : ServerMap) : Prop := ∀ a s, m.get? a = some s → Canonical rt s.address

theorem CanonicalMap.erase {m : ServerMap} (h : CanonicalMap rt m) (a : String) : CanonicalMap rt (m.erase a) :=
  Entries.erase h a

theorem CanonicalMap.set {m : ServerMap} (h : CanonicalMap rt m) {a : String} (sd : ServerDescription)
    (hsd : Canonical rt sd.address) : CanonicalMap rt (m.set a sd) :=
  Entries.set h hsd

theorem demoteOtherPrimary_total {m : ServerMap} (h : CanonicalMap rt m) (address : String) :
    ∃ m', demoteOtherPrimary rt address m = .ok m' ∧ CanonicalMap rt m' := by
  unfold demoteOtherPrimary
  cases hf : m.entries.find? fun p => p.2.type = .rsPrimary ∧ p.2.address ≠ address with
  | none => exact ⟨m, rfl, h⟩
  | some p =>
    obtain ⟨key, server⟩ := p
    have hc := h key server (OrderedMap.get?_eq_some.2 (List.mem_of_find?_eq_some hf))
    simp only [ServerDescription.ofString_canonical hc]
    exact ⟨_, rfl, h.set (.fresh server.address) hc⟩

theorem discoverHosts_total {hosts : List String} {m : ServerMap} (hh : ∀ a ∈ hosts, Canonical rt a)
    (h : CanonicalMap rt m) : ∃ m', discoverHosts rt hosts m = .ok m' ∧ CanonicalMap rt m' := by
  refine Run.foldlM_total ?_ h
  intro a ha m hm
  unfold discoverHost
  split
  · exact ⟨m, rfl, hm⟩
  · rw [ServerDescription.ofString_canonical (hh a ha)]
    exact ⟨_, rfl, hm.set (.fresh a) (hh a ha)⟩

theorem CanonicalMap.removeUnlisted {m : ServerMap} (h : CanonicalMap rt m) (hosts : List String) :
    CanonicalMap rt (removeUnlisted hosts m) :=
  Entries.removeUnlisted h hosts

variable {sd : ServerDescription}

/-- The address and the listed hosts of the description are canonical. -/
structure CanonicalReport (rt : Runtime) (sd : ServerDescription) : Prop where
  address : Canonical rt sd.address
  hosts : ∀ a ∈ sd.allHosts, Canonical rt a

theorem updateRsFromPrimary_total {v : Vars} (hc : CanonicalReport rt sd) (h : CanonicalMap rt v.servers) :
    ∃ v', updateRsFromPrimary rt sd v = .ok v' ∧ CanonicalMap rt v'.servers := by
  unfold updateRsFromPrimary
  simp only
  split
  · exact ⟨_, rfl, h.erase _⟩
  · split
    · rw [ServerDescription.ofString_canonical hc.address]
      exact ⟨_, rfl, h.set (.fresh sd.address) hc.address⟩
    · obtain ⟨m₁, h1, hm₁⟩ := demoteOtherPrimary_total h sd.address
      obtain ⟨m₂, h2, hm₂⟩ := discoverHosts_total hc.hosts hm₁
      rw [h1]
      simp only [bind, Except.bind, h2]
      exact ⟨_, rfl, hm₂.removeUnlisted _⟩

theorem updateRsNoPrimaryFromMember_total {v : Vars} (hc : CanonicalReport rt sd)
    (h : CanonicalMap rt v.servers) :
    ∃ v', updateRsNoPrimaryFromMember rt sd v = .ok v' ∧ CanonicalMap rt v'.servers := by
  unfold updateRsNoPrimaryFromMember
  simp only
  split
  · exact ⟨_, rfl, h.erase _⟩
  · obtain ⟨m, h1, hm⟩ := discoverHosts_total hc.hosts h
    rw [h1]
    refine ⟨_, rfl, ?_⟩
    show CanonicalMap rt (if addressMismatch sd then m.erase sd.address else m)
    split
    · exact hm.erase _
    · exact hm

theorem updateRsWithPrimaryFromMember_total {v : Vars} {name : String} (hn : v.setName = some name)
    (h : CanonicalMap rt v.servers) :
    ∃ v', updateRsWithPrimaryFromMember sd v = .ok v' ∧ CanonicalMap rt v'.servers ∧ v'.setName = some name := by
  unfold updateRsWithPrimaryFromMember
  rw [hn]
  refine ⟨_, rfl, ?_, rfl⟩
  show CanonicalMap rt (if _ then v.servers.erase sd.address else v.servers)
  split
  · exact h.erase _
  · exact h

/-- A topology with a primary knows its set name. -/
def NameKnown (v : Vars) : Prop := v.type = .replicaSetWithPrimary → ∃ name, v.setName = some name ∧ name ≠ ""

/-- After a primary's report the set name is known. -/
theorem updateRsFromPrimary_name {v v' : Vars} (hb : ∃ name, sd.setName = some name ∧ name ≠ "")
    (h : updateRsFromPrimary rt sd v = .ok v') : ∃ name, v'.setName = some name ∧ name ≠ "" := by
  rw [(updateRsFromPrimary_cases h).1]
  cases ht : truthyStr v.setName with
  | none => simpa using hb
  | some name =>
    refine ⟨name, rfl, ?_⟩
    unfold truthyStr at ht
    simpa using (Option.filter_eq_some_iff.1 ht).2

theorem noPrimaryBranch_total (address : String) {v : Vars} (hc : CanonicalReport rt sd)
    (hn : sd.type ≠ .rsPrimary → NameKnown v) (h : CanonicalMap rt v.servers) :
    ∃ v', noPrimaryBranch rt address sd v = .ok v' ∧ CanonicalMap rt v'.servers ∧
      (sd.type ≠ .rsPrimary → NameKnown v') := by
  by_cases ht : v.type = .replicaSetNoPrimary
  swap
  · exact ⟨v, noPrimaryBranch_skip ht, h, hn⟩
  have key : ∀ w : Vars, w.type = .replicaSetNoPrimary → CanonicalMap rt w.servers →
      ∃ v', (if sd.type = .rsPrimary then updateRsFromPrimary rt sd w
        else if nonPrimaryRsMember sd.type then updateRsNoPrimaryFromMember rt sd w
        else .ok w) = .ok v' ∧ CanonicalMap rt v'.servers ∧ (sd.type ≠ .rsPrimary → NameKnown v') := by
    intro w hw hm
    split
    · rename_i hp
      obtain ⟨v', h', hm'⟩ := updateRsFromPrimary_total hc hm
      exact ⟨v', h', hm', fun hn => absurd hp hn⟩
    · split
      · obtain ⟨v', h', hm'⟩ := updateRsNoPrimaryFromMember_total hc hm
        refine ⟨v', h', hm', fun _ hv => ?_⟩
        rw [(updateRsNoPrimaryFromMember_cases h').1] at hv; cases hv
      · refine ⟨w, rfl, hm, fun _ hv => ?_⟩
        rw [hw] at hv; cases hv
  unfold noPrimaryBranch
  rw [if_pos ht]
  refine key _ ?_ ?_
  · split <;> exact ht
  · split
    · exact h.erase _
    · exact h

theorem withPrimaryBranch_total (address : String) {v : Vars} (hc : CanonicalReport rt sd)
    (hb : sd.type = .rsPrimary → ∃ name, sd.setName = some name ∧ name ≠ "")
    (hn : sd.type ≠ .rsPrimary → NameKnown v) (h : CanonicalMap rt v.servers) :
    ∃ v', withPrimaryBranch rt address sd v = .ok v' ∧ CanonicalMap rt v'.servers ∧ NameKnown v' := by
  by_cases ht : v.type = .replicaSetWithPrimary
  swap
  · exact ⟨v, withPrimaryBranch_skip ht, h, fun hw => absurd hw ht⟩
  unfold withPrimaryBranch
  rw [if_pos ht]
  split
  · rename_i hm
    exact ⟨_, rfl, h.erase _, fun _ => hn (not_primary_of_foreign hm) ht⟩
  · split
    · rename_i hp
      obtain ⟨v', h', hm'⟩ := updateRsFromPrimary_total hc h
      exact ⟨v', h', hm', fun _ => updateRsFromPrimary_name (hb hp) h'⟩
    · rename_i hp
      obtain ⟨name, hname, hne⟩ := hn hp ht
      split
      · obtain ⟨v', h', hm', hs⟩ := updateRsWithPrimaryFromMember_total hname h
        exact ⟨v', h', hm', fun _ => ⟨name, hs, hne⟩⟩
      · exact ⟨_, rfl, h, fun _ => ⟨name, hname, hne⟩⟩

/-- The first two branches keep addresses and, without a primary's report, the set name. -/
theorem firstBranches_total (sd : ServerDescription) (address : String) (size : Nat) {v : Vars} (hn : NameKnown v)
    (h : CanonicalMap rt v.servers) :
    CanonicalMap rt (shardedBranch address sd (unknownBranch address sd size v)).servers ∧
      (sd.type ≠ .rsPrimary → NameKnown (shardedBranch address sd (unknownBranch address sd size v))) := by
  have hu : CanonicalMap rt (unknownBranch address sd size v).servers ∧
      (sd.type ≠ .rsPrimary → NameKnown (unknownBranch address sd size v)) := by
    unfold unknownBranch
    split
    · split
      · exact ⟨h.erase _, fun _ => hn⟩
      · refine ⟨h, fun hp hw => ?_⟩
        have hw : topologyTypeForServerType sd.type = .replicaSetWithPrimary := hw
        revert hp hw
        cases sd.type <;> simp [topologyTypeForServerType]
    · exact ⟨h, fun _ => hn⟩
  unfold shardedBranch
  split
  · exact ⟨hu.1.erase _, hu.2⟩
  · exact hu

theorem appliedDescription_total (setName : Option String) (hc : CanonicalReport rt sd) :
    ∃ sd', appliedDescription rt setName sd = .ok sd' ∧ CanonicalReport rt sd' := by
  unfold appliedDescription
  split
  · split
    · rw [ServerDescription.ofString_canonical hc.address]
      exact ⟨_, rfl, ⟨hc.address, fun a ha => by cases ha⟩⟩
    · exact ⟨sd, rfl, hc⟩
  · exact ⟨sd, rfl, hc⟩

end Total

/-- What makes an update of a description safe: canonical addresses, and a set name once there is
a primary. -/
structure Updatable (rt : Runtime) (d : TopologyDescription) : Prop where
  addresses : CanonicalMap rt d.servers
  name : d.type = .replicaSetWithPrimary → ∃ name, d.setName = some name ∧ name ≠ ""

theorem truthyStr_some {s : Option String} {name : String} (h : s = some name) (hne : name ≠ "") :
    truthyStr s = some name := by
  subst h; simp [truthyStr, hne]

/-- An update with a canonical report never throws and leaves an updatable description. -/
theorem update_total {rt : Runtime} {d : TopologyDescription} {sd₀ : ServerDescription} (hd : Updatable rt d)
    (hc : CanonicalReport rt sd₀) (hb : sd₀.Built rt) : ∃ d', d.update rt sd₀ = .ok d' ∧ Updatable rt d' := by
  obtain ⟨sd, ha, hcs⟩ := appliedDescription_total d.setName hc
  -- a primary has a set name, and a description replaced for its name is no primary
  have hname : sd.type = .rsPrimary → ∃ name, sd.setName = some name ∧ name ≠ "" := by
    intro ht
    rcases appliedDescription_cases ha with rfl | hf
    · exact hb.setName (.inl ht)
    · rw [hf.type] at ht; cases ht
  have hstart : CanonicalMap rt (d.startVars sd₀.address sd).servers := hd.addresses.set sd hcs.address
  unfold TopologyDescription.update
  rw [ha]
  simp only [bind, Except.bind]
  by_cases hs : d.type = .single
  · rw [if_pos hs]
    refine ⟨_, rfl, ⟨hstart, fun hw => ?_⟩⟩
    change d.type = _ at hw
    rw [hs] at hw; cases hw
  · rw [if_neg hs]
    obtain ⟨h1, h2⟩ := firstBranches_total sd sd₀.address d.servers.size
      (v := d.startVars sd₀.address sd) hd.name hstart
    obtain ⟨v₁, h3, h4, h5⟩ := noPrimaryBranch_total sd₀.address hcs h2 h1
    obtain ⟨v₂, h6, h7, h8⟩ := withPrimaryBranch_total sd₀.address hcs hname h5 h4
    have hcas : cascade rt sd₀.address sd d.servers.size (d.startVars sd₀.address sd) = .ok v₂ := by
      unfold cascade
      rw [h3]
      exact h6
    rw [hcas]
    refine ⟨_, rfl, ⟨h7, fun hw => ?_⟩⟩
    obtain ⟨name, hn, hne⟩ := h8 hw
    exact ⟨name, truthyStr_some hn hne, hne⟩

/-! ## Runs of updates -/

/-- Apply a list of descriptions as `serverUpdateHandler` does: an address that is not in the map
is ignored. -/
def applyUpdates (rt : Runtime) (d : TopologyDescription) (sds : List ServerDescription) :
    Except AnyError TopologyDescription :=
  sds.foldlM (fun d sd => if d.hasServer sd.address then d.update rt sd else .ok d) d

theorem initialDescription_get? {rt : Runtime} {options : TopologyOptions} {seeds : List HostAddress} {a : String}
    {s : ServerDescription} (h : (initialDescription rt options seeds).servers.get? a = some s) :
    s = .fresh a ∧ ∃ seed ∈ seeds, seed.toString = a := by
  have gen : ∀ (l : List HostAddress) (m : ServerMap),
      (∀ b t, m.get? b = some t → t = .fresh b ∧ ∃ seed ∈ seeds, seed.toString = b) → (∀ x ∈ l, x ∈ seeds) →
      ∀ b t, (l.foldl (fun m h => m.set h.toString (ServerDescription.new rt h)) m).get? b = some t →
        t = .fresh b ∧ ∃ seed ∈ seeds, seed.toString = b := by
    intro l
    induction l with
    | nil => intro m hm _ b t hb; exact hm b t hb
    | cons x l ih =>
      intro m hm hl
      refine ih _ ?_ fun y hy => hl y (List.mem_cons_of_mem _ hy)
      intro b t hb
      rw [OrderedMap.get?_set] at hb
      split at hb
      · rename_i hx
        cases hb
        exact ⟨by rw [ServerDescription.new_fresh, hx], x, hl x (List.mem_cons_self ..), hx.symm⟩
      · exact hm b t hb
  exact gen seeds OrderedMap.empty (by simp) (fun _ hx => hx) a s h

theorem initialDescription_wellShaped (rt : Runtime) (options : TopologyOptions) (seeds : List HostAddress) :
    WellShaped (initialDescription rt options seeds) := by
  have hu : ∀ a s, (initialDescription rt options seeds).servers.get? a = some s → s.type = .unknown := by
    intro a s hs; rw [(initialDescription_get? hs).1]; rfl
  have hav : ∀ bad : List ServerType, .unknown ∉ bad → Avoids bad (initialDescription rt options seeds).servers := by
    intro bad hb a s hs; rw [hu a s hs]; exact hb
  refine ⟨fun a s hs ht => absurd (hu a s hs) ht, ?_⟩
  show Shape (topologyTypeFromOptions options) _
  unfold topologyTypeFromOptions
  split
  · trivial
  · split
    · exact ⟨hav _ (by decide), (hav [.rsPrimary] (by decide)).no_primary (by decide)⟩
    · split
      · trivial
      · exact hav _ (by decide)

theorem initialDescription_updatable {rt : Runtime} {options : TopologyOptions} {seeds : List HostAddress}
    (h : ∀ seed ∈ seeds, Canonical rt seed.toString) : Updatable rt (initialDescription rt options seeds) where
  addresses := by
    intro a s hs
    obtain ⟨rfl, seed, hm, rfl⟩ := initialDescription_get? hs
    exact h seed hm
  name := by
    intro hw
    change topologyTypeFromOptions options = _ at hw
    unfold topologyTypeFromOptions at hw
    split at hw
    · cases hw
    · split at hw
      · cases hw
      · split at hw <;> cases hw

/-- The primaries of a description. -/
def IsPrimary (d : TopologyDescription) (a : String) : Prop :=
  ∃ s, d.servers.get? a = some s ∧ s.type = .rsPrimary

/-- What the topology type promises about the servers. -/
structure TypeSound (d : TopologyDescription) : Prop where
  withPrimary : d.type = .replicaSetWithPrimary → ∃! a, IsPrimary d a
  noPrimary : d.type = .replicaSetNoPrimary → ∀ a, ¬ IsPrimary d a
  replicaSet : d.type = .replicaSetWithPrimary ∨ d.type = .replicaSetNoPrimary →
    ∀ a s, d.servers.get? a = some s → s.type ≠ .mongos ∧ s.type ≠ .standalone
  sharded : d.type = .sharded → ∀ a s, d.servers.get? a = some s →
    s.type ≠ .standalone ∧ s.type ≠ .rsPrimary ∧ s.type ≠ .rsSecondary ∧ s.type ≠ .rsOther

theorem WellShaped.typeSound {d : TopologyDescription} (h : WellShaped d) : TypeSound d := by
  obtain ⟨-, hs⟩ := h
  refine ⟨fun ht => ?_, fun ht a hp => ?_, fun ht a s hm => ?_, fun ht a s hm => ?_⟩
  · rw [ht] at hs
    obtain ⟨-, ho, a, s, hp⟩ := hs
    exact ⟨a, ⟨s, hp⟩, fun b ⟨t, hb⟩ => ho b t a s hb hp⟩
  · rw [ht] at hs
    obtain ⟨s, hp⟩ := hp
    exact hs.2 a s hp
  · have hav : Avoids notReplicaSet d.servers := by
      rcases ht with ht | ht <;> rw [ht] at hs <;> exact hs.1
    simpa using hav a s hm
  · rw [ht] at hs
    simpa using hs a s hm

/-- Every run of updates from a description the `Topology` constructor builds, with canonical
addresses throughout, returns: no update throws. The description reached has exactly one primary
when its type is ReplicaSetWithPrimary and none when it is ReplicaSetNoPrimary, a replica set holds
no mongos and no standalone, and a sharded topology no standalone, primary, secondary or other
member. -/
theorem applyUpdates_sound (rt : Runtime) (options : TopologyOptions) (seeds : List HostAddress)
    (sds : List ServerDescription) (hseeds : ∀ seed ∈ seeds, Canonical rt seed.toString)
    (hbuilt : ∀ sd ∈ sds, sd.Built rt)
    (hcanonical : ∀ sd ∈ sds, Canonical rt sd.address ∧ ∀ a ∈ sd.allHosts, Canonical rt a) :
    ∃ d, applyUpdates rt (initialDescription rt options seeds) sds = .ok d ∧ TypeSound d := by
  have hrun : ∃ d, applyUpdates rt (initialDescription rt options seeds) sds = .ok d ∧
      (WellShaped d ∧ Updatable rt d) := by
    refine Run.foldlM_total ?_ ⟨initialDescription_wellShaped rt options seeds, initialDescription_updatable hseeds⟩
    intro sd hsd d hd
    split
    · obtain ⟨d', h', hu⟩ := update_total hd.2 ⟨(hcanonical sd hsd).1, (hcanonical sd hsd).2⟩ (hbuilt sd hsd)
      exact ⟨d', h', update_wellShaped hd.1 h', hu⟩
    · exact ⟨d, rfl, hd⟩
  obtain ⟨d, hd, hw, -⟩ := hrun
  exact ⟨d, hd, hw.typeSound⟩

/-- The runtime on a network of two hosts: `new URL` on their addresses. -/
def lanRuntime : Runtime where
  url text :=
    if text = "mongodb://a:27017" then some ("a", some 27017)
    else if text = "mongodb://b:27017" then some ("b", some 27017)
    else none
  decodeURIComponent := some
  toLowerCase := id

def lanHost (name : String) : HostAddress := .tcp name 27017 false

/-- The hello reply of a member of the two-host replica set. -/
def lanHello (primary : Bool) : Hello :=
  { setName := some "rs", isWritablePrimary := primary, secondary := !primary,
    hosts := some ["a:27017", "b:27017"], setVersion := some 1, electionId := some (ObjectId.replicate 1),
    minWireVersion := some 6, maxWireVersion := some 13 }

def lanReport (name : String) (primary : Bool) : ServerDescription :=
  .new lanRuntime (lanHost name) (some (lanHello primary))

theorem lan_canonical : Canonical lanRuntime "a:27017" ∧ Canonical lanRuntime "b:27017" :=
  ⟨⟨lanHost "a", by decide +kernel, by decide +kernel⟩, ⟨lanHost "b", by decide +kernel, by decide +kernel⟩⟩

theorem lanReport_built (name : String) (primary : Bool) : (lanReport name primary).Built lanRuntime :=
  ⟨_, _, _, rfl⟩

theorem lanReport_hosts (name : String) (primary : Bool) :
    ∀ a ∈ (lanReport name primary).allHosts, Canonical lanRuntime a := by
  have hl : (lanReport name primary).allHosts = ["a:27017", "b:27017"] := rfl
  rw [hl]
  simp only [List.mem_cons, List.not_mem_nil, or_false]
  rintro a (rfl | rfl)
  · exact lan_canonical.1
  · exact lan_canonical.2

/-- A primary found from one seed, a secondary it names, and an election won by that secondary. -/
theorem applyUpdates_sound_election :
    ∃ d, applyUpdates lanRuntime (initialDescription lanRuntime {} [lanHost "a"])
      [lanReport "a" true, lanReport "b" false, lanReport "b" true] = .ok d ∧ TypeSound d := by
  refine applyUpdates_sound lanRuntime {} [lanHost "a"] [lanReport "a" true, lanReport "b" false, lanReport "b" true]
    ?_ ?_ ?_
  · simp only [List.mem_singleton, forall_eq]
    exact lan_canonical.1
  · simp only [List.mem_cons, List.not_mem_nil, or_false]
    rintro sd (rfl | rfl | rfl) <;> exact lanReport_built _ _
  · simp only [List.mem_cons, List.not_mem_nil, or_false]
    rintro sd (rfl | rfl | rfl)
    · exact ⟨lan_canonical.1, lanReport_hosts _ _⟩
    · exact ⟨lan_canonical.2, lanReport_hosts _ _⟩
    · exact ⟨lan_canonical.2, lanReport_hosts _ _⟩

end MongoDriver.Sdam
