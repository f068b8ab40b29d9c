/-
Members of another replica set. The helpers of `update` remove a server whose set name differs, but a reply with a set
name of its own never reaches them: `update` has replaced it by an Unknown description before, which stays in the map.
-/
import MongoDriver.Sdam.Election
import MongoDriver.Sdam.Ruling

namespace MongoDriver.Sdam

/-- The replies that name the replica set they belong to. -/
def rsMember (t : ServerType) : Bool := t = .rsPrimary || nonPrimaryRsMember t

/-- The server is gone, nothing it names has come, and the topology remembers what it did. -/
structure Removed (d d' : TopologyDescription) (sd : ServerDescription) : Prop where
  gone : d'.servers.contains sd.address = false
  hosts : ∀ a ∈ sd.allHosts, d'.servers.contains a = true → d.servers.contains a = true
  setName : d'.setName = d.setName
  maxSetVersion : d'.maxSetVersion = d.maxSetVersion
  maxElectionId : d'.maxElectionId = d.maxElectionId

/-! ## The two ways through the cascade -/

section Cascade

variable {rt : Runtime} {address : String} {sd : ServerDescription} {size : Nat} {v v' : Vars}

/-- The set's own name, which the server does not have. -/
structure Foreign (sd : ServerDescription) (v : Vars) : Prop where
  named : ∃ ours, v.setName = some ours ∧ ours ≠ ""
  other : sd.setName ≠ v.setName

theorem Foreign.orElse (h : Foreign sd v) : (truthyStr v.setName <|> sd.setName) = v.setName := by
  obtain ⟨⟨ours, hours, hne⟩, -⟩ := h
  rw [truthyStr_eq_some.2 ⟨hours, hne⟩, hours]
  rfl

theorem Foreign.orElse_ne (h : Foreign sd v) : (truthyStr v.setName <|> sd.setName) ≠ sd.setName := by
  rw [h.orElse]
  exact fun he => h.other he.symm

theorem Foreign.fromPrimary (h : Foreign sd v) : updateRsFromPrimary rt sd v = .ok { v with
    type := checkHasPrimary (v.servers.erase sd.address), servers := v.servers.erase sd.address } := by
  rw [updateRsFromPrimary_foreign h.orElse_ne, h.orElse]

theorem Foreign.noPrimaryFromMember (h : Foreign sd v) : updateRsNoPrimaryFromMember rt sd v = .ok { v with
    type := .replicaSetNoPrimary, servers := v.servers.erase sd.address } := by
  have hne : v.setName ≠ sd.setName := fun he => h.other he.symm
  unfold updateRsNoPrimaryFromMember
  simp only [h.orElse, if_pos hne]
  rfl

theorem Foreign.withPrimaryFromMember (h : Foreign sd v) : updateRsWithPrimaryFromMember sd v = .ok { v with
    type := checkHasPrimary (v.servers.erase sd.address), servers := v.servers.erase sd.address } := by
  obtain ⟨⟨ours, hours, -⟩, hother⟩ := h
  rw [hours] at hother
  unfold updateRsWithPrimaryFromMember
  simp only [hours]
  rw [if_pos (.inl (Ne.symm hother))]

/-- A member without the set's name is removed, and only the type may change besides. -/
theorem cascade_of_foreign (hv : IsReplicaSet v.type) (ht : rsMember sd.type = true) (hf : Foreign sd v) :
    ∃ type, cascade rt address sd size v = .ok { v with type, servers := v.servers.erase sd.address } := by
  by_cases hp : sd.type = .rsPrimary
  · rcases hv.symm with hv | hv
    · -- both branches remove the server
      rw [cascade_noPrimary hv hp, hf.fromPrimary]
      simp only [bind, Except.bind]
      split
      · have herase : (v.servers.erase sd.address).erase sd.address = v.servers.erase sd.address :=
          OrderedMap.erase_of_get?_none (OrderedMap.get?_erase_self ..)
        have hf' : Foreign sd { v with
            type := checkHasPrimary (v.servers.erase sd.address), servers := v.servers.erase sd.address } :=
          ⟨hf.named, hf.other⟩
        rw [hf'.fromPrimary]
        exact ⟨checkHasPrimary (v.servers.erase sd.address), by simp only [herase]⟩
      · exact ⟨_, rfl⟩
    · rw [cascade_withPrimary hv hp, hf.fromPrimary]
      exact ⟨_, rfl⟩
  · have hmember : nonPrimaryRsMember sd.type = true := by
      unfold rsMember at ht
      simpa [hp] using ht
    have hkept : mongosOrStandalone sd.type = false := by
      revert hmember
      cases sd.type <;> decide
    unfold cascade
    rcases hv.symm with hv | hv
    · rw [unknownBranch_skip (by rw [hv]; decide), shardedBranch_skip (by rw [hv]; decide)]
      have hno : noPrimaryBranch rt address sd v = updateRsNoPrimaryFromMember rt sd v := by
        unfold noPrimaryBranch
        simp [hv, hp, hmember, hkept]
      rw [hno, hf.noPrimaryFromMember]
      refine ⟨.replicaSetNoPrimary, ?_⟩
      simp only [bind, Except.bind]
      exact withPrimaryBranch_skip (by simp)
    · rw [unknownBranch_skip (by rw [hv]; decide), shardedBranch_skip (by rw [hv]; decide),
        noPrimaryBranch_skip (by rw [hv]; decide)]
      refine ⟨checkHasPrimary (v.servers.erase sd.address), ?_⟩
      show withPrimaryBranch rt address sd v = _
      rw [← hf.withPrimaryFromMember]
      unfold withPrimaryBranch
      simp [hv, hp, hmember, hkept]

end Cascade

/-! ## Replies of another set -/

section Reply

variable {rt : Runtime} {d d' : TopologyDescription} {sd : ServerDescription}

/-- The constructor has dropped what is not truthy. -/
def Constructed (d : TopologyDescription) : Prop :=
  ∃ type servers setName maxSetVersion maxElectionId commonWireVersion options,
    d = .new type servers setName maxSetVersion maxElectionId commonWireVersion options

theorem Constructed.setName (h : Constructed d) : truthyStr d.setName = d.setName := by
  obtain ⟨type, servers, setName, maxSetVersion, maxElectionId, commonWireVersion, options, rfl⟩ := h
  exact truthyStr_twice setName

theorem Constructed.maxSetVersion (h : Constructed d) : truthyNum d.maxSetVersion = d.maxSetVersion := by
  obtain ⟨type, servers, setName, maxSetVersion, maxElectionId, commonWireVersion, options, rfl⟩ := h
  exact truthyNum_twice maxSetVersion

/-- A reply with another set's name is stored as an Unknown description, and nothing else changes but the type. -/
theorem update_of_named (hc : Constructed d) (hd : IsReplicaSet d.type) {mine ours : String}
    (hours : d.setName = some ours) (hmine : truthyStr sd.setName = some mine) (hne : mine ≠ ours)
    (h : d.update rt sd = .ok d') :
    ∃ reset, d'.servers = d.servers.set sd.address reset ∧ d'.setName = d.setName ∧
      d'.maxSetVersion = d.maxSetVersion ∧ d'.maxElectionId = d.maxElectionId := by
  obtain ⟨applied, v, ha, hv, rfl⟩ := update_cases h
  unfold appliedDescription at ha
  rw [hmine, hc.setName, hours] at ha
  simp only [if_pos hne] at ha
  have htype : applied.type = .unknown := ServerDescription.IsFresh.type (ServerDescription.ofString_ok ha)
  rcases hv with ⟨hs, -⟩ | ⟨-, hv⟩
  · rw [hs] at hd
    rcases hd with hd | hd <;> cases hd
  · obtain ⟨type, hcascade⟩ : ∃ type, cascade rt sd.address applied d.servers.size (d.startVars sd.address applied) =
        .ok { d.startVars sd.address applied with type } := cascade_of_unknown htype
    rw [hcascade] at hv
    cases hv
    exact ⟨applied, rfl, hc.setName, hc.maxSetVersion, rfl⟩

/-- A reply without a set name is removed, and nothing else changes but the type. -/
theorem update_of_nameless (rt : Runtime) (hc : Constructed d) (hd : IsReplicaSet d.type) {ours : String}
    (hours : d.setName = some ours) (ht : rsMember sd.type = true) (hmine : truthyStr sd.setName = none) :
    ∃ d', d.update rt sd = .ok d' ∧ d'.servers = (d.servers.set sd.address sd).erase sd.address ∧
      d'.setName = d.setName ∧ d'.maxSetVersion = d.maxSetVersion ∧ d'.maxElectionId = d.maxElectionId := by
  have hsingle : d.type ≠ .single := by
    rintro he
    rw [he] at hd
    rcases hd with hd | hd <;> cases hd
  have happlied : appliedDescription rt d.setName sd = .ok sd := by
    unfold appliedDescription
    rw [hmine]
  have hours' : truthyStr d.setName = some ours := hc.setName.trans hours
  have hforeign : Foreign sd (d.startVars sd.address sd) := by
    refine ⟨⟨ours, hours, (truthyStr_eq_some.1 hours').2⟩, fun he => ?_⟩
    change sd.setName = d.setName at he
    rw [he, hours'] at hmine
    cases hmine
  obtain ⟨type, hcascade⟩ : ∃ type, cascade rt sd.address sd d.servers.size (d.startVars sd.address sd) =
      .ok { d.startVars sd.address sd with type, servers := (d.servers.set sd.address sd).erase sd.address } :=
    cascade_of_foreign hd ht hforeign
  rw [update_eq hsingle happlied, hcascade]
  exact ⟨_, rfl, rfl, hc.setName, hc.maxSetVersion, rfl⟩

end Reply

/-- For a replica set with a name, a member of which the set name differs is removed exactly when it reports no set name
at all, which no reply of a member does. Whatever it reports, the update leaves all other servers, the set name and
the maxima as they are. -/
theorem foreign_members_removed_iff (rt : Runtime) (d : TopologyDescription) (sd : ServerDescription)
    (hc : Constructed d) (hd : IsReplicaSet d.type) (hnamed : d.setName ≠ none) (ht : rsMember sd.type = true)
    (hname : sd.setName ≠ d.setName) :
    ((∃ d', d.update rt sd = .ok d' ∧ Removed d d' sd) ↔ truthyStr sd.setName = none) ∧
      ∀ d', d.update rt sd = .ok d' → (∀ a, a ≠ sd.address → d'.servers.get? a = d.servers.get? a) ∧
        d'.setName = d.setName ∧ d'.maxSetVersion = d.maxSetVersion ∧ d'.maxElectionId = d.maxElectionId := by
  obtain ⟨ours, hours⟩ := Option.ne_none_iff_exists'.1 hnamed
  cases hmine : truthyStr sd.setName with
  | none =>
    obtain ⟨d', hu, hservers, hrest⟩ := update_of_nameless rt hc hd hours ht hmine
    have hgone : d'.servers.contains sd.address = false := by
      unfold OrderedMap.contains
      rw [hservers, OrderedMap.get?_erase_self]
      rfl
    have hothers : ∀ a, a ≠ sd.address → d'.servers.get? a = d.servers.get? a := by
      intro a ha
      rw [hservers, OrderedMap.get?_erase, if_neg ha, OrderedMap.get?_set_ne _ _ ha]
    refine ⟨iff_of_true ⟨d', hu, hgone, fun a _ hin => ?_, hrest.1, hrest.2.1, hrest.2.2⟩ rfl, fun d'' hu' => ?_⟩
    · have ha : a ≠ sd.address := by
        rintro rfl
        rw [hgone] at hin; cases hin
      unfold OrderedMap.contains at hin ⊢
      rwa [hothers a ha] at hin
    · rw [hu] at hu'
      cases hu'
      exact ⟨hothers, hrest⟩
  | some mine =>
    have hne : mine ≠ ours := by
      rintro rfl
      exact hname ((truthyStr_eq_some.1 hmine).1.trans hours.symm)
    refine ⟨iff_of_false ?_ nofun, fun d' hu => ?_⟩
    · rintro ⟨d', hu, hremoved⟩
      obtain ⟨reset, hservers, -⟩ := update_of_named hc hd hours hmine hne hu
      have hgone := hremoved.gone
      unfold OrderedMap.contains at hgone
      rw [hservers, OrderedMap.get?_set_self] at hgone
      cases hgone
    · obtain ⟨reset, hservers, hrest⟩ := update_of_named hc hd hours hmine hne hu
      exact ⟨fun a ha => by rw [hservers, OrderedMap.get?_set_ne _ _ ha], hrest⟩

/-- The replica set `rs` with one seed. -/
def lanSet : TopologyDescription := initialDescription lanRuntime { replicaSet := some "rs" } [lanHost "a"]

/-- The reply of a secondary of another set. -/
def lanStranger : ServerDescription :=
  .new lanRuntime (lanHost "a") (some { lanHello false with setName := some "other" })

/-- A member of another set stays in the map. -/
theorem stranger_stays : ¬ ∃ d', lanSet.update lanRuntime lanStranger = .ok d' ∧ Removed lanSet d' lanStranger := by
  have hin : ((lanSet.update lanRuntime lanStranger).map fun d => d.servers.contains lanStranger.address).toOption =
      some true := by
    decide
  rintro ⟨d', hu, hremoved⟩
  rw [hu] at hin
  have hstays : d'.servers.contains lanStranger.address = true := Option.some.inj hin
  rw [hremoved.gone] at hstays
  cases hstays

/-- What the update leaves there otherwise. -/
theorem foreign_members_removed_stranger :
    ((∃ d', lanSet.update lanRuntime lanStranger = .ok d' ∧ Removed lanSet d' lanStranger) ↔
        truthyStr lanStranger.setName = none) ∧
      ∀ d', lanSet.update lanRuntime lanStranger = .ok d' →
        (∀ a, a ≠ lanStranger.address → d'.servers.get? a = lanSet.servers.get? a) ∧ d'.setName = lanSet.setName ∧
          d'.maxSetVersion = lanSet.maxSetVersion ∧ d'.maxElectionId = lanSet.maxElectionId :=
  foreign_members_removed_iff lanRuntime lanSet lanStranger ⟨_, _, _, _, _, _, _, rfl⟩ (.inr rfl) (by decide) rfl
    (by decide)

end MongoDriver.Sdam
