/-
Which changes of a topology are announced. `serverUpdateHandler` emits an event when the reply differs from the one
before it in the fields that `equals` compares; what an update does depends on other fields as well, and on the other
servers. A reply that compares as equal goes unannounced, so it must not change the type, the set name or the members.
-/
import MongoDriver.Sdam.ForeignMembers
import MongoDriver.Sdam.Identification
import MongoDriver.Sdam.WireVersions

namespace MongoDriver.Sdam

/-! ## The type and the set name after an update -/

section Family

variable {rt : Runtime} {address : String} {sd : ServerDescription} {size : Nat} {v v' : Vars} {name : String}

/-- Outside replica sets the type and the set name stay. -/
theorem cascade_elsewhere (hu : v.type ≠ .unknown) (hr : ¬ IsReplicaSet v.type)
    (h : cascade rt address sd size v = .ok v') : v'.type = v.type ∧ v'.setName = v.setName := by
  have hs : (shardedBranch address sd v).type = v.type ∧ (shardedBranch address sd v).setName = v.setName := by
    unfold shardedBranch
    split
    · exact ⟨rfl, rfl⟩
    · exact ⟨rfl, rfl⟩
  unfold cascade at h
  rw [unknownBranch_skip hu] at h
  have hno : (shardedBranch address sd v).type ≠ .replicaSetNoPrimary := by
    rw [hs.1]
    exact fun he => hr (.inr he)
  have hwith : (shardedBranch address sd v).type ≠ .replicaSetWithPrimary := by
    rw [hs.1]
    exact fun he => hr (.inl he)
  rw [other_cascade hno hwith h]
  exact hs

/-- A replica set with a name. -/
structure Titled (name : String) (v : Vars) : Prop where
  replicaSet : IsReplicaSet v.type
  setName : v.setName = some name

theorem truthyStr_orElse_some (hn : name ≠ "") (hv : v.setName = some name) (other : Option String) :
    (truthyStr v.setName <|> other) = some name := by
  rw [truthyStr_eq_some.2 ⟨hv, hn⟩]
  rfl

theorem orElse_named (ours : Option String) {mine : Option String} (h : ∃ name, mine = some name ∧ name ≠ "") :
    ∃ name, (truthyStr ours <|> mine) = some name ∧ name ≠ "" := by
  cases ht : truthyStr ours with
  | none => exact h
  | some name => exact ⟨name, rfl, (truthyStr_eq_some.1 ht).2⟩

theorem updateRsFromPrimary_titled (hn : name ≠ "") (hv : v.setName = some name)
    (h : updateRsFromPrimary rt sd v = .ok v') : Titled name v' where
  replicaSet := by
    rw [(updateRsFromPrimary_cases h).2.1]
    exact isReplicaSet_checkHasPrimary _
  setName := by rw [(updateRsFromPrimary_cases h).1, truthyStr_orElse_some hn hv]

theorem updateRsNoPrimaryFromMember_setName (h : updateRsNoPrimaryFromMember rt sd v = .ok v') :
    v'.setName = (truthyStr v.setName <|> sd.setName) := by
  unfold updateRsNoPrimaryFromMember at h
  simp only at h
  split at h
  · cases h
    rfl
  · obtain ⟨m, -, h⟩ := Run.bind_ok.1 h
    cases h
    rfl

theorem noPrimaryBranch_titled (hn : name ≠ "") (hv : Titled name v) (h : noPrimaryBranch rt address sd v = .ok v') :
    Titled name v' := by
  unfold noPrimaryBranch at h
  split at h
  swap
  · cases h
    exact hv
  have hfirst : ∀ w : Vars, w = (if mongosOrStandalone sd.type = true then
      { v with servers := v.servers.erase address } else v) → Titled name w := by
    rintro w rfl
    split
    · exact ⟨hv.replicaSet, hv.setName⟩
    · exact hv
  have hw := hfirst _ rfl
  simp only at h
  split at h
  · exact updateRsFromPrimary_titled hn hw.setName h
  · split at h
    · refine ⟨.inr (updateRsNoPrimaryFromMember_cases h).1, ?_⟩
      rw [updateRsNoPrimaryFromMember_setName h, truthyStr_orElse_some hn hw.setName]
    · cases h
      exact hw

theorem withPrimaryBranch_titled (hn : name ≠ "") (hv : Titled name v)
    (h : withPrimaryBranch rt address sd v = .ok v') : Titled name v' := by
  unfold withPrimaryBranch at h
  split at h
  swap
  · cases h
    exact hv
  split at h
  · cases h
    exact ⟨isReplicaSet_checkHasPrimary _, hv.setName⟩
  · split at h
    · exact updateRsFromPrimary_titled hn hv.setName h
    · split at h
      · obtain ⟨htype, -, hname, -, -⟩ := updateRsWithPrimaryFromMember_spec h
        refine ⟨?_, hname.trans hv.setName⟩
        rw [htype]
        exact isReplicaSet_checkHasPrimary _
      · cases h
        exact ⟨isReplicaSet_checkHasPrimary _, hv.setName⟩

/-- A replica set with a name stays a replica set of that name. -/
theorem cascade_titled (hn : name ≠ "") (hv : Titled name v) (h : cascade rt address sd size v = .ok v') :
    Titled name v' := by
  have hu : v.type ≠ .unknown := by
    intro he
    rcases hv.replicaSet with ht | ht <;> rw [he] at ht <;> cases ht
  have hs : v.type ≠ .sharded := by
    intro he
    rcases hv.replicaSet with ht | ht <;> rw [he] at ht <;> cases ht
  unfold cascade at h
  rw [unknownBranch_skip hu, shardedBranch_skip hs] at h
  obtain ⟨v₁, h₁, h₂⟩ := Run.bind_ok.1 h
  exact withPrimaryBranch_titled hn (noPrimaryBranch_titled hn hv h₁) h₂

/-- A topology of which nothing was known takes the name of the member that makes it a replica set. -/
theorem cascade_entitles (hv : v.type = .unknown)
    (hb : rsMember sd.type = true → ∃ name, sd.setName = some name ∧ name ≠ "")
    (h : cascade rt address sd size v = .ok v') (hr : IsReplicaSet v'.type) :
    ∃ name, v'.setName = some name ∧ name ≠ "" := by
  cases cascade_fromUnknown hv h with
  | dropped =>
    rw [hv] at hr
    rcases hr with hr | hr <;> cases hr
  | primary hst hupdate => exact updateRsFromPrimary_name (hb (by rw [hst]; rfl)) hupdate
  | member hst hupdate =>
    have hmember : rsMember sd.type = true := by
      rcases hst with hst | hst <;> rw [hst] <;> rfl
    rw [updateRsNoPrimaryFromMember_setName hupdate]
    exact orElse_named _ (hb hmember)
  | typed _ hp hs ho =>
    exfalso
    cases hst : sd.type with
    | rsPrimary => exact hp hst
    | rsSecondary => exact hs hst
    | rsOther => exact ho hst
    | _ =>
      rw [hst] at hr
      rcases hr with hr | hr <;> cases hr

end Family

/-! ## Descriptions that are reached -/

/-- The descriptions of a topology: what the constructor builds, what replies make of it, and what SRV polls make of it
once it is sharded. -/
inductive Reached (rt : Runtime) : TopologyDescription → Prop
  | initial (options : TopologyOptions) (seeds : List HostAddress) : Reached rt (initialDescription rt options seeds)
  | report {d d' : TopologyDescription} {sd : ServerDescription} :
    Reached rt d → sd.Built rt → d.update rt sd = .ok d' → Reached rt d'
  | poll {d d' : TopologyDescription} {random : Nat → Nat} {records : List SrvRecord} {srvMaxHosts : Nat} :
    Reached rt d → d.type = .sharded →
      d.updateFromSrvPollingEvent rt random records srvMaxHosts = .ok (some d') → Reached rt d'

section Reached

variable {rt : Runtime} {d d' : TopologyDescription} {sd : ServerDescription}

theorem Reached.wellShaped (h : Reached rt d) : WellShaped d := by
  induction h with
  | initial options seeds => exact initialDescription_wellShaped rt options seeds
  | report _ _ hu ih => exact update_wellShaped ih hu
  | poll _ hs hu ih =>
    obtain ⟨polled, -, hservers⟩ := poll_polled hu
    have htype := (poll_fields hu).1
    refine ⟨hservers.forgets.keyed ih.keyed, ?_⟩
    have hshape := ih.shape
    rw [hs] at hshape
    simp only [Option.getD_some] at htype hservers
    rw [htype, hs]
    exact hservers.forgets.avoids (by decide) hshape

theorem Reached.constructed (h : Reached rt d) : Constructed d := by
  cases h with
  | initial options seeds => exact ⟨_, _, _, _, _, _, _, rfl⟩
  | report _ _ hu =>
    obtain ⟨applied, v, -, -, rfl⟩ := update_cases hu
    exact ⟨_, _, _, _, _, _, _, rfl⟩
  | poll _ _ hu =>
    unfold TopologyDescription.updateFromSrvPollingEvent at hu
    obtain ⟨incoming, -, hu⟩ := Run.bind_ok.1 hu
    simp only at hu
    split at hu
    · cases hu
    · obtain ⟨selected, -, hu⟩ := Run.bind_ok.1 hu
      obtain ⟨servers, -, hu⟩ := Run.bind_ok.1 hu
      cases hu
      exact ⟨_, _, _, _, _, _, _, rfl⟩

/-- A replica set has a name. -/
def HasTitle (d : TopologyDescription) : Prop := IsReplicaSet d.type → ∃ name, d.setName = some name ∧ name ≠ ""

theorem update_hasTitle (hd : HasTitle d) (hb : sd.Built rt) (h : d.update rt sd = .ok d') : HasTitle d' := by
  obtain ⟨applied, v, ha, hv, rfl⟩ := update_cases h
  have hname : rsMember applied.type = true → ∃ name, applied.setName = some name ∧ name ≠ "" := by
    intro ht
    rcases appliedDescription_cases ha with rfl | hf
    · refine hb.setName ?_
      revert ht
      unfold rsMember nonPrimaryRsMember
      cases applied.type <;> simp
    · rw [hf.type] at ht
      cases ht
  have htitle : IsReplicaSet v.type → ∃ name, v.setName = some name ∧ name ≠ "" := by
    rcases hv with ⟨-, rfl⟩ | ⟨-, hv⟩
    · exact hd
    · intro hr
      by_cases hu : d.type = .unknown
      · exact cascade_entitles (v := d.startVars sd.address applied) hu hname hv hr
      · by_cases hrs : IsReplicaSet d.type
        · obtain ⟨name, hname, hne⟩ := hd hrs
          exact ⟨name, (cascade_titled (v := d.startVars sd.address applied) hne ⟨hrs, hname⟩ hv).setName, hne⟩
        · rw [(cascade_elsewhere (v := d.startVars sd.address applied) hu hrs hv).1] at hr
          exact absurd hr hrs
  intro hr
  obtain ⟨name, hname, hne⟩ := htitle hr
  exact ⟨name, truthyStr_eq_some.2 ⟨hname, hne⟩, hne⟩

theorem Reached.hasTitle (h : Reached rt d) : HasTitle d := by
  induction h with
  | initial options seeds =>
    intro hr
    change IsReplicaSet (topologyTypeFromOptions options) at hr
    unfold topologyTypeFromOptions at hr
    cases hname : truthyStr options.replicaSet with
    | some name => exact ⟨name, hname, (truthyStr_eq_some.1 hname).2⟩
    | none =>
      exfalso
      rw [hname] at hr
      revert hr
      cases options.directConnection <;> cases options.loadBalanced <;> simp [IsReplicaSet]
  | report _ hb hu ih => exact update_hasTitle ih hb hu
  | poll _ hs hu _ =>
    intro hr
    have htype := (poll_fields hu).1
    simp only [Option.getD_some] at htype
    rw [htype, hs] at hr
    rcases hr with hr | hr <;> cases hr

end Reached

/-! ## What a reply of an unchanged type changes -/

/-- The two descriptions have one type, one set name and the same members. -/
structure SameMembers (d d' : TopologyDescription) : Prop where
  type : d'.type = d.type
  setName : d'.setName = d.setName
  members : ∀ a, d'.hasServer a = d.hasServer a

/-- The ruling on the reply changes nothing that is announced. -/
def Unremarkable (d : TopologyDescription) (sd : ServerDescription) : Prop :=
  match ruling d sd with
  | .store => True
  | .reset => d.type = .replicaSetWithPrimary → sd.type ≠ .rsPrimary
  | .lead => ∀ a, a ∈ sd.allHosts ↔ d.hasServer a = true
  | .join => ∀ a ∈ sd.allHosts, d.hasServer a = true
  | .drop | .move | .depose => False

section Rulings

variable {d : TopologyDescription} {sd : ServerDescription}

theorem primaryRuling_deposes (h : primaryRuling d sd = .depose) : d.type = .replicaSetNoPrimary := by
  unfold primaryRuling at h
  split at h
  · cases h
  · split at h
    · cases h
    · split at h
      · rename_i hdepose
        exact hdepose.1
      · cases h

theorem memberRuling_cases (d : TopologyDescription) (sd : ServerDescription) :
    memberRuling d sd = .drop ∨ memberRuling d sd = .move ∨ memberRuling d sd = .join := by
  unfold memberRuling
  split
  · exact .inl rfl
  · split
    · exact .inr (.inl rfl)
    · exact .inr (.inr rfl)

/-- Only a primary's reply is followed. -/
theorem ruling_follows (h : ruling d sd = .lead ∨ ruling d sd = .depose) :
    sd.type = .rsPrimary ∧ (ruling d sd = .depose → d.type = .replicaSetNoPrimary) := by
  have hmember : memberRuling d sd ≠ .lead ∧ memberRuling d sd ≠ .depose := by
    rcases memberRuling_cases d sd with hm | hm | hm <;> rw [hm] <;> decide
  have hkey : ruling d sd = .lead ∨ ruling d sd = .depose →
      sd.type = .rsPrimary ∧ ruling d sd = primaryRuling d sd := by
    unfold ruling
    split
    · rintro (hr | hr) <;> cases hr
    · split
      · rintro (hr | hr) <;> cases hr
      · rintro (hr | hr) <;> cases hr
      · unfold unknownRuling
        split
        · split <;> rintro (hr | hr) <;> cases hr
        · rename_i hp
          exact fun _ => ⟨hp, rfl⟩
        · rintro (hr | hr)
          · exact absurd hr hmember.1
          · exact absurd hr hmember.2
        · rintro (hr | hr)
          · exact absurd hr hmember.1
          · exact absurd hr hmember.2
        · rintro (hr | hr) <;> cases hr
      · unfold shardedRuling
        split <;> rintro (hr | hr) <;> cases hr
      · unfold noPrimaryRuling
        split
        · rintro (hr | hr) <;> cases hr
        · split
          · rename_i hp
            exact fun _ => ⟨hp, rfl⟩
          · split
            · rintro (hr | hr)
              · exact absurd hr hmember.1
              · exact absurd hr hmember.2
            · rintro (hr | hr) <;> cases hr
      · unfold withPrimaryRuling
        split
        · rintro (hr | hr) <;> cases hr
        · split
          · rename_i hp
            exact fun _ => ⟨hp, rfl⟩
          · split <;> rintro (hr | hr) <;> cases hr
  obtain ⟨hp, hruling⟩ := hkey h
  exact ⟨hp, fun hdepose => primaryRuling_deposes (by rw [← hruling]; exact hdepose)⟩

end Rulings

section Silent

variable {rt : Runtime} {d d' : TopologyDescription} {sd previous : ServerDescription}

/-- In a replica set the type says whether there is a primary. -/
theorem WellShaped.withPrimary_iff (h : WellShaped d) (hr : IsReplicaSet d.type) :
    d.type = .replicaSetWithPrimary ↔ ∃ a s, PrimaryAt d.servers a s := by
  have hs := h.shape
  rcases hr with ht | ht
  · rw [ht] at hs
    exact iff_of_true ht hs.2.2
  · rw [ht] at hs
    refine iff_of_false (by rw [ht]; decide) ?_
    rintro ⟨a, s, hp⟩
    exact hs.2 a s hp

/-- The set name stays, and so does the type outside replica sets. -/
theorem update_family (hd : Reached rt d) (hprev : d.servers.get? sd.address = some previous)
    (ht : previous.type = sd.type) (h : d.update rt sd = .ok d') :
    d'.setName = d.setName ∧ (¬ IsReplicaSet d.type → d'.type = d.type) ∧
      (IsReplicaSet d.type → IsReplicaSet d'.type) := by
  have htruthy := hd.constructed.setName
  obtain ⟨applied, v, ha, hv, rfl⟩ := update_cases h
  show truthyStr v.setName = d.setName ∧ (_ → v.type = d.type) ∧ (_ → IsReplicaSet v.type)
  rcases hv with ⟨-, rfl⟩ | ⟨-, hv⟩
  · exact ⟨htruthy, fun _ => rfl, fun hr => hr⟩
  by_cases hr : IsReplicaSet d.type
  · obtain ⟨name, hname, hne⟩ := hd.hasTitle hr
    have htitled := cascade_titled (v := d.startVars sd.address applied) hne ⟨hr, hname⟩ hv
    refine ⟨?_, fun hnot => absurd hr hnot, fun _ => htitled.replicaSet⟩
    rw [htitled.setName, hname]
    exact truthyStr_eq_some.2 ⟨rfl, hne⟩
  by_cases hu : d.type = .unknown
  · -- the server was already of its type, and the topology still Unknown
    have hshape := hd.wellShaped.shape
    rw [hu] at hshape
    have hkind : applied.type.Mute ∨ applied.type.Unplaced := by
      rcases appliedDescription_cases ha with rfl | hf
      · have hnot := hshape _ _ hprev
        rw [ht] at hnot
        revert hnot
        unfold ServerType.Mute ServerType.Unplaced
        cases applied.type <;> simp
      · exact .inl (.inl hf.type)
    have hcases := cascade_unknown_cases (v := d.startVars sd.address applied) hu hv
    rcases hcases with ⟨htype, hname, -⟩ | ⟨-, hmute, hplaced, -⟩
    · refine ⟨?_, fun _ => by rw [htype, hu], fun hrs => absurd hrs hr⟩
      rw [hname]
      exact htruthy
    · rcases hkind with hkind | hkind
      · exact absurd hkind hmute
      · exact absurd hkind hplaced
  · obtain ⟨htype, hname⟩ := cascade_elsewhere (v := d.startVars sd.address applied) hu hr hv
    refine ⟨?_, fun _ => htype, fun hrs => absurd hrs hr⟩
    rw [hname]
    exact htruthy

/-- The type stays unless the primary's reply is not stored. -/
theorem update_type_iff (hd : Reached rt d) (hprev : d.servers.get? sd.address = some previous)
    (ht : previous.type = sd.type) (h : d.update rt sd = .ok d') :
    d'.type = d.type ↔ (d.type = .replicaSetWithPrimary → sd.type = .rsPrimary → (ruling d sd).Admits sd) := by
  obtain ⟨-, helse, hfamily⟩ := update_family hd hprev ht h
  by_cases hr : IsReplicaSet d.type
  swap
  · exact iff_of_true (helse hr) fun hw => absurd (.inl hw) hr
  have hw := hd.wellShaped
  have hruled := update_ruled hw.calm h
  have hafter := (update_wellShaped hw h).withPrimary_iff (hfamily hr)
  have hprimary : ∀ a s, PrimaryAt d'.servers a s → (a = sd.address ∧ s = sd ∧ (ruling d sd).Admits sd) ∨
      a ≠ sd.address ∧ PrimaryAt d.servers a s := by
    rintro a s ⟨hs, hp⟩
    rcases hruled.only a s hs with hfresh | hown | ⟨hne, hold, -⟩
    · rw [hfresh.type] at hp
      cases hp
    · exact .inl hown
    · exact .inr ⟨hne, hold, hp⟩
  rcases hr with hwith | hno
  · -- there is one primary: the server itself, or another one, which stays
    have hshape := hw.shape
    rw [hwith] at hshape
    obtain ⟨-, hone, b, p, hp⟩ := hshape
    rw [hwith, hafter]
    by_cases hst : sd.type = .rsPrimary
    · have hown : PrimaryAt d.servers sd.address previous := ⟨hprev, ht.trans hst⟩
      constructor
      · rintro ⟨a, s, has⟩ - -
        rcases hprimary a s has with ⟨-, -, hadmits⟩ | ⟨hne, hold⟩
        · exact hadmits
        · exact absurd (hone a s _ _ hold hown) hne
      · intro hadmits
        exact ⟨sd.address, sd, hruled.own (hadmits rfl hst), hst⟩
    · refine iff_of_true ⟨b, p, hruled.kept b p ?_ hp.1 ?_, hp.2⟩ fun _ hst' => absurd hst' hst
      · rintro rfl
        have hsame := hprev.symm.trans hp.1
        cases hsame
        exact hst (ht.symm.trans hp.2)
      · exact fun hfollows => absurd (ruling_follows hfollows).1 hst
  · have hnone := (hw.withPrimary_iff (.inr hno)).not.1 (by rw [hno]; decide)
    refine iff_of_true ?_ fun hwith => ?_
    · rcases hfamily (.inr hno) with htype | htype
      · obtain ⟨a, s, has⟩ := hafter.1 htype
        rcases hprimary a s has with ⟨rfl, rfl, -⟩ | ⟨-, hold⟩
        · exact absurd ⟨_, previous, hprev, ht.trans has.2⟩ hnone
        · exact absurd ⟨a, s, hold⟩ hnone
      · rw [htype, hno]
    · rw [hno] at hwith
      cases hwith

/-- A reply of the type that its server had changes neither the type, nor the set name, nor the members, exactly when
the ruling on it is unremarkable. -/
theorem update_sameMembers_iff (hd : Reached rt d) (hprev : d.servers.get? sd.address = some previous)
    (ht : previous.type = sd.type) (h : d.update rt sd = .ok d') : SameMembers d d' ↔ Unremarkable d sd := by
  have hname := (update_family hd hprev ht h).1
  have htype := update_type_iff hd hprev ht h
  have hmembers := (update_ruled hd.wellShaped.calm h).members
  have hown : d.hasServer sd.address = true := contains_eq_true.2 ⟨previous, hprev⟩
  have hsame : SameMembers d d' ↔
      (d.type = .replicaSetWithPrimary → sd.type = .rsPrimary → (ruling d sd).Admits sd) ∧
        ∀ a, (ruling d sd).Member d.servers sd a ↔ d.hasServer a = true := by
    rw [← htype]
    constructor
    · rintro ⟨hsame, -, hall⟩
      refine ⟨hsame, fun a => ?_⟩
      rw [← hmembers a, ← hall a]
      rfl
    · rintro ⟨hsame, hall⟩
      refine ⟨hsame, hname, fun a => Bool.eq_iff_iff.2 ?_⟩
      exact (hmembers a).trans (hall a)
  rw [hsame]
  have hdepose : ruling d sd ≠ .depose := by
    intro hr
    obtain ⟨hp, hno⟩ := ruling_follows (.inr hr)
    exact hd.wellShaped.calm (.inr (hno hr)) _ _ ⟨hprev, ht.trans hp⟩
  have hkept : ∀ a, a = sd.address ∨ d.servers.contains a = true ↔ d.hasServer a = true := by
    intro a
    constructor
    · rintro (rfl | hin)
      · exact hown
      · exact hin
    · exact .inr
  unfold Unremarkable
  cases hr : ruling d sd with
  | store => exact iff_of_true ⟨fun _ _ => trivial, hkept⟩ trivial
  | reset =>
    constructor
    · exact fun hboth hw hp => hboth.1 hw hp
    · exact fun hnot => ⟨fun hw hp => absurd hp (hnot hw), hkept⟩
  | drop =>
    refine iff_of_false ?_ fun hf => hf
    exact fun hboth => ((hboth.2 sd.address).2 hown).1 rfl
  | move =>
    refine iff_of_false ?_ fun hf => hf
    exact fun hboth => ((hboth.2 sd.address).2 hown).1 rfl
  | depose => exact absurd hr hdepose
  | lead => exact ⟨fun hboth => hboth.2, fun hall => ⟨fun _ _ => (hall sd.address).2 hown, hall⟩⟩
  | join =>
    constructor
    · exact fun hboth a ha => (hboth.2 a).1 (.inr (.inr ha))
    · refine fun hall => ⟨fun _ _ => trivial, fun a => ⟨?_, fun hin => .inr (.inl hin)⟩⟩
      rintro (rfl | hin | hlisted)
      · exact hown
      · exact hin
      · exact hall a hlisted

end Silent

/-! ## The events -/

def TopologyEvent.isDescriptionChange : TopologyEvent → Bool
  | .topologyDescriptionChanged _ _ => true
  | _ => false

namespace Topology

/-- The number of `topologyDescriptionChanged` events so far. -/
def changes (t : Topology) : Nat := t.emitted.countP TopologyEvent.isDescriptionChange

theorem emit_changes (t : Topology) (event : TopologyEvent) :
    (t.emit event).changes = t.changes + if event.isDescriptionChange then 1 else 0 := by
  unfold changes emit
  rw [List.countP_append, List.countP_singleton]

theorem openServer_changes (t : Topology) (sd : ServerDescription) : (t.openServer sd).changes = t.changes := by
  unfold openServer
  split
  · rfl
  · exact emit_changes t (.serverOpening sd.address)

theorem dropServer_changes (t : Topology) (address : String) : (t.dropServer address).changes = t.changes := by
  unfold dropServer
  split
  · rfl
  · exact emit_changes t (.destroyServer address)

theorem updateServers_changes (t : Topology) (sd : ServerDescription) : (t.updateServers sd).changes = t.changes := by
  unfold updateServers
  simp only [foldl_keeps changes dropServer_changes, foldl_keeps changes openServer_changes]
  split <;> rfl

/-- A compatible description is announced when the replies differ. -/
theorem installDescription_changes {t : Topology} {previous sd : ServerDescription} {d : TopologyDescription}
    (hc : d.compatibilityError = none) :
    (t.installDescription previous sd d).changes = t.changes + if previous.equals sd then 0 else 1 := by
  unfold installDescription
  simp only [hc]
  cases previous.equals sd with
  | true => exact updateServers_changes _ sd
  | false =>
    simp only [Bool.false_eq_true, if_false]
    rw [emit_changes, updateServers_changes]
    congr 1
    split
    · rfl
    · exact emit_changes _ _

end Topology

theorem equals_type {sd other : ServerDescription} (h : sd.equals other = true) : sd.type = other.type := by
  unfold ServerDescription.equals at h
  simp only [Bool.and_eq_true, decide_eq_true_eq] at h
  exact h.1.1.1.1.1.1.1.1.1.2

/-- Whatever the handler does without an event leaves the type, the set name and the members of a reached topology as
they are: always when the reply cannot be applied, and otherwise exactly when a reply that compares as equal to the one
before it is unremarkable. -/
theorem change_events_complete_iff (rt : Runtime) (t : Topology) (sd : ServerDescription)
    (hreached : Reached rt t.description) (hstale : isStaleServerDescription t.description sd = false)
    (hcompatible : (t.serverUpdateHandler rt sd).1.description.compatibilityError = none) :
    ((t.serverUpdateHandler rt sd).2 ≠ none →
        SameMembers t.description (t.serverUpdateHandler rt sd).1.description) ∧
      ((t.serverUpdateHandler rt sd).2 = none →
        (((t.serverUpdateHandler rt sd).1.changes = t.changes →
            SameMembers t.description (t.serverUpdateHandler rt sd).1.description) ↔
          ∀ previous, t.description.servers.get? sd.address = some previous → previous.equals sd = true →
            Unremarkable t.description sd)) := by
  have hrefl : SameMembers t.description t.description := ⟨rfl, rfl, fun _ => rfl⟩
  cases hprev : t.description.servers.get? sd.address with
  | none =>
    have hkept : t.serverUpdateHandler rt sd = (t, none) := by
      unfold Topology.serverUpdateHandler
      rw [hprev]
    rw [hkept]
    exact ⟨fun hthrows => absurd rfl hthrows, fun _ => iff_of_true (fun _ => hrefl) fun p hp => (by cases hp)⟩
  | some previous =>
    cases hu : t.description.update rt sd with
    | error e =>
      obtain ⟨clusterTime, hthrows⟩ := Topology.serverUpdateHandler_throws hprev hstale hu
      rw [hthrows]
      exact ⟨fun _ => hrefl, fun hnone => by cases hnone⟩
    | ok d =>
      obtain ⟨clusterTime, hinstalls⟩ := Topology.serverUpdateHandler_installs hprev hstale hu
      rw [hinstalls] at hcompatible ⊢
      simp only [Topology.installDescription_description] at hcompatible ⊢
      refine ⟨fun hthrows => absurd rfl hthrows, fun _ => ?_⟩
      rw [Topology.installDescription_changes hcompatible]
      cases hequal : previous.equals sd with
      | false =>
        refine iff_of_true (fun hsilent => ?_) fun p hp he => ?_
        · change t.changes + 1 = t.changes at hsilent
          omega
        · cases hp
          rw [hequal] at he
          cases he
      | true =>
        rw [update_sameMembers_iff hreached hprev (equals_type hequal) hu]
        constructor
        · rintro hquiet p hp -
          exact hquiet rfl
        · exact fun hquiet _ => hquiet previous rfl hequal

/-- The reply of a primary that is the only data-bearing member, with the passive members it lists. -/
def lanPrimary (passives : List String) : ServerDescription :=
  .new lanRuntime (lanHost "a") (some { lanHello true with hosts := some ["a:27017"], passives := some passives })

/-- The topology after the primary's first reply, if that can be applied. -/
def lanLedTopology : Option Topology :=
  ((lanSet.update lanRuntime (lanPrimary [])).toOption).map fun d => { description := d, servers := d.servers }

theorem lanLedTopology_reached {t : Topology} (h : lanLedTopology = some t) : Reached lanRuntime t.description := by
  obtain ⟨d, hd, rfl⟩ := Option.map_eq_some_iff.1 h
  exact .report (.initial { replicaSet := some "rs" } [lanHost "a"]) ⟨_, _, _, rfl⟩ (toOption_eq_some.1 hd)

/-- The primary adds a passive member: the topology has a member more, and no event says so. -/
theorem passive_unannounced :
    ∃ t, lanLedTopology = some t ∧ Reached lanRuntime t.description ∧
      isStaleServerDescription t.description (lanPrimary ["b:27017"]) = false ∧
      (t.serverUpdateHandler lanRuntime (lanPrimary ["b:27017"])).1.description.compatibilityError = none ∧
      (t.serverUpdateHandler lanRuntime (lanPrimary ["b:27017"])).1.changes = t.changes ∧
      ¬ SameMembers t.description (t.serverUpdateHandler lanRuntime (lanPrimary ["b:27017"])).1.description := by
  have hview : lanLedTopology.map (fun t => (isStaleServerDescription t.description (lanPrimary ["b:27017"]),
      (t.serverUpdateHandler lanRuntime (lanPrimary ["b:27017"])).1.description.compatibilityError,
      decide ((t.serverUpdateHandler lanRuntime (lanPrimary ["b:27017"])).1.changes = t.changes),
      t.description.hasServer "b:27017",
      (t.serverUpdateHandler lanRuntime (lanPrimary ["b:27017"])).1.description.hasServer "b:27017")) =
        some (false, none, true, false, true) := by
    decide +kernel
  obtain ⟨t, ht, hview⟩ := Option.map_eq_some_iff.1 hview
  simp only [Prod.mk.injEq, decide_eq_true_eq] at hview
  obtain ⟨hstale, hcompatible, hsilent, hbefore, hafter⟩ := hview
  refine ⟨t, ht, lanLedTopology_reached ht, hstale, hcompatible, hsilent, fun hsame => ?_⟩
  rw [hsame.members, hbefore] at hafter
  cases hafter

/-- The primary repeats its reply. -/
theorem change_events_complete_repeated :
    ∃ t, lanLedTopology = some t ∧ isStaleServerDescription t.description (lanPrimary []) = false ∧
      ((t.serverUpdateHandler lanRuntime (lanPrimary [])).2 ≠ none →
        SameMembers t.description (t.serverUpdateHandler lanRuntime (lanPrimary [])).1.description) ∧
      ((t.serverUpdateHandler lanRuntime (lanPrimary [])).2 = none →
        (((t.serverUpdateHandler lanRuntime (lanPrimary [])).1.changes = t.changes →
            SameMembers t.description (t.serverUpdateHandler lanRuntime (lanPrimary [])).1.description) ↔
          ∀ previous, t.description.servers.get? (lanPrimary []).address = some previous →
            previous.equals (lanPrimary []) = true → Unremarkable t.description (lanPrimary []))) := by
  have hview : lanLedTopology.map (fun t => (isStaleServerDescription t.description (lanPrimary []),
      (t.serverUpdateHandler lanRuntime (lanPrimary [])).1.description.compatibilityError)) = some (false, none) := by
    decide
  obtain ⟨t, ht, hview⟩ := Option.map_eq_some_iff.1 hview
  simp only [Prod.mk.injEq] at hview
  have hreached := lanLedTopology_reached ht
  exact ⟨t, ht, hview.1, change_events_complete_iff lanRuntime t (lanPrimary []) hreached hview.1 hview.2⟩

end MongoDriver.Sdam
