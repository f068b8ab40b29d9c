/-
Elections: the largest set version and election id seen never go back, and a primary of an older
election than one accepted before is never accepted again. The invariant relates the two maxima to
every primary the description holds; an update either keeps a primary it held or accepts one that
is not below the maxima.
-/
import MongoDriver.Sdam.Invariant

namespace MongoDriver.Sdam

/-! ## Orders on the maxima -/

/-- `a` is absent, or at most `b`. -/
def VersionLe (a b : Option Int) : Prop := ∀ x, a = some x → ∃ y, b = some y ∧ x ≤ y

/-- `a` is absent, or at most `b` byte by byte. -/
def ElectionLe (a b : Option ObjectId) : Prop :=
  ∀ x, a = some x → ∃ y, b = some y ∧ compareObjectId (some x) (some y) ≤ 0

theorem VersionLe.refl (a : Option Int) : VersionLe a a := fun x h => ⟨x, h, le_refl x⟩

theorem VersionLe.trans {a b c : Option Int} (h₁ : VersionLe a b) (h₂ : VersionLe b c) : VersionLe a c := by
  intro x hx
  obtain ⟨y, hy, hxy⟩ := h₁ x hx
  obtain ⟨z, hz, hyz⟩ := h₂ y hy
  exact ⟨z, hz, hxy.trans hyz⟩

theorem ElectionLe.refl (a : Option ObjectId) : ElectionLe a a := fun x h => ⟨x, h, x.compare_self⟩

theorem ElectionLe.trans {a b c : Option ObjectId} (h₁ : ElectionLe a b) (h₂ : ElectionLe b c) :
    ElectionLe a c := by
  intro x hx
  obtain ⟨y, hy, hxy⟩ := h₁ x hx
  obtain ⟨z, hz, hyz⟩ := h₂ y hy
  exact ⟨z, hz, ObjectId.compare_trans hxy hyz⟩

/-- The description reports both a set version and an election id. -/
def Reports (sd : ServerDescription) (v : Int) (e : ObjectId) : Prop :=
  sd.setVersion = some v ∧ sd.electionId = some e

/-- What the description reports is at most the maxima, which are both set. -/
def Within (sd : ServerDescription) (maxVersion : Option Int) (maxElection : Option ObjectId) : Prop :=
  ∀ v e, Reports sd v e → VersionLe (some v) maxVersion ∧ ElectionLe (some e) maxElection

/-- What the description reports is at least the maxima, when both are set. -/
def NotBelow (sd : ServerDescription) (maxVersion : Option Int) (maxElection : Option ObjectId) : Prop :=
  ∀ v e, Reports sd v e → ∀ mv me, maxVersion = some mv → maxElection = some me →
    mv ≤ v ∧ compareObjectId (some me) (some e) ≤ 0

/-- A maximal election id comes with a maximal set version, which is never zero. -/
structure MaximaOk (maxVersion : Option Int) (maxElection : Option ObjectId) : Prop where
  paired : maxElection.isSome → maxVersion.isSome
  nonzero : maxVersion ≠ some 0

theorem Within.mono {sd : ServerDescription} {a b : Option Int} {c d : Option ObjectId} (h : Within sd a c)
    (hv : VersionLe a b) (he : ElectionLe c d) : Within sd b d :=
  fun v e hr => ⟨(h v e hr).1.trans hv, (h v e hr).2.trans he⟩

theorem truthyNum_of_ne {n : Option Int} (h : n ≠ some 0) : truthyNum n = n := by
  cases n with
  | none => rfl
  | some x =>
    have hx : x ≠ 0 := fun e => h (by rw [e])
    simp [truthyNum, hx]

/-! ## One primary's report -/

section Report

variable {sd : ServerDescription} {maxVersion : Option Int} {maxElection : Option ObjectId}

theorem versionLe_advance (a b : Option Int) : VersionLe a (advanceSetVersion a b) := by
  intro x hx
  subst hx
  cases b with
  | none => exact ⟨x, rfl, le_refl x⟩
  | some v =>
    by_cases h : v > x
    · exact ⟨v, by simp [advanceSetVersion, h], h.le⟩
    · exact ⟨x, by simp [advanceSetVersion, h], le_refl x⟩

theorem advance_ge {v : Int} (a : Option Int) : VersionLe (some v) (advanceSetVersion a (some v)) := by
  intro x hx
  cases hx
  cases a with
  | none => exact ⟨v, rfl, le_refl v⟩
  | some m =>
    by_cases h : v > m
    · exact ⟨v, by simp [advanceSetVersion, h], le_refl v⟩
    · exact ⟨m, by simp [advanceSetVersion, h], not_lt.1 h⟩

theorem advance_nonzero {a b : Option Int} (ha : a ≠ some 0) (hb : b ≠ some 0) : advanceSetVersion a b ≠ some 0 := by
  unfold advanceSetVersion
  cases b with
  | none => exact ha
  | some v =>
    cases a with
    | none => exact hb
    | some m =>
      simp only
      split
      · exact hb
      · exact ha

/-- A primary that is not stale is not below the maxima. -/
theorem notBelow_of_not_stale (hsv : sd.setVersion ≠ some 0) (hm : maxVersion ≠ some 0)
    (h : isStalePrimary sd maxVersion maxElection = false) : NotBelow sd maxVersion maxElection := by
  rintro v e ⟨hv, he⟩ mv me rfl rfl
  unfold isStalePrimary at h
  rw [truthyNum_of_ne hsv, truthyNum_of_ne hm, hv, he] at h
  simp only [Bool.or_eq_false_iff, decide_eq_false_iff_not, not_lt, gt_iff_lt] at h
  exact h

theorem advanceElectionId_eq (maxElection : Option ObjectId) (hsv : sd.setVersion ≠ some 0) :
    (∃ v e, Reports sd v e ∧ advanceElectionId maxElection sd = some e) ∨
      ((∀ v e, ¬ Reports sd v e) ∧ advanceElectionId maxElection sd = maxElection) := by
  unfold advanceElectionId
  rw [truthyNum_of_ne hsv]
  cases hv : sd.setVersion with
  | none =>
    refine .inr ⟨fun v e h => ?_, by simp⟩
    have := h.1
    rw [hv] at this; cases this
  | some v =>
    cases he : sd.electionId with
    | none =>
      refine .inr ⟨fun v e h => ?_, by simp⟩
      have := h.2
      rw [he] at this; cases this
    | some e => exact .inl ⟨v, e, ⟨hv, he⟩, by simp⟩

/-- An accepted report moves the maxima up, to at least what it reports. -/
theorem accept_maxima (hsv : sd.setVersion ≠ some 0) (hm : MaximaOk maxVersion maxElection)
    (hn : NotBelow sd maxVersion maxElection) :
    MaximaOk (advanceSetVersion maxVersion sd.setVersion) (advanceElectionId maxElection sd) ∧
      ElectionLe maxElection (advanceElectionId maxElection sd) ∧
      Within sd (advanceSetVersion maxVersion sd.setVersion) (advanceElectionId maxElection sd) := by
  have hver : maxVersion.isSome → (advanceSetVersion maxVersion sd.setVersion).isSome := by
    intro h
    obtain ⟨x, hx⟩ := Option.isSome_iff_exists.1 h
    obtain ⟨y, hy, -⟩ := versionLe_advance maxVersion sd.setVersion x hx
    rw [hy]; rfl
  have hnz := advance_nonzero hm.nonzero hsv
  -- the election id moves only for a primary that reports both fields
  rcases advanceElectionId_eq maxElection hsv with ⟨v, e, hr, hadv⟩ | ⟨hno, hadv⟩
  · have hge : VersionLe (some v) (advanceSetVersion maxVersion sd.setVersion) := by
      rw [hr.1]; exact advance_ge maxVersion
    refine ⟨⟨fun _ => ?_, hnz⟩, ?_, ?_⟩
    · obtain ⟨y, hy, -⟩ := hge v rfl
      rw [hy]; rfl
    · rw [hadv]
      intro me hme
      obtain ⟨mv, hmv⟩ := Option.isSome_iff_exists.1 (hm.paired (by rw [hme]; rfl))
      exact ⟨e, rfl, (hn v e hr mv me hmv hme).2⟩
    · intro v' e' hr'
      obtain ⟨hv', he'⟩ := hr'
      rw [hr.1] at hv'; cases hv'
      rw [hr.2] at he'; cases he'
      rw [hadv]
      exact ⟨hge, ElectionLe.refl _⟩
  · rw [hadv]
    exact ⟨⟨fun h => hver (hm.paired h), hnz⟩, ElectionLe.refl _, fun v e hr => absurd hr (hno v e)⟩

end Report

/-! ## What the branches do to the maxima -/

/-- The topology is a replica set. -/
def IsReplicaSet (t : TopologyType) : Prop := t = .replicaSetWithPrimary ∨ t = .replicaSetNoPrimary

/-- The maxima go up. -/
structure Advances (v v' : Vars) : Prop where
  maxima : MaximaOk v'.maxSetVersion v'.maxElectionId
  version : VersionLe v.maxSetVersion v'.maxSetVersion
  election : ElectionLe v.maxElectionId v'.maxElectionId

/-- The description, when it is still a primary at its address, was accepted. -/
def Accepted (sd : ServerDescription) (v v' : Vars) : Prop :=
  PrimaryAt v'.servers sd.address sd →
    NotBelow sd v.maxSetVersion v.maxElectionId ∧ Within sd v'.maxSetVersion v'.maxElectionId

section Branches

variable {rt : Runtime} {address : String} {sd : ServerDescription} {v v₁ v' : Vars}

theorem Advances.trans (h₁ : Advances v v₁) (h₂ : Advances v₁ v') : Advances v v' where
  maxima := h₂.maxima
  version := h₁.version.trans h₂.version
  election := h₁.election.trans h₂.election

/-- A branch that leaves the maxima alone. -/
theorem Advances.of_eq (hm : MaximaOk v.maxSetVersion v.maxElectionId)
    (h₁ : v'.maxSetVersion = v.maxSetVersion) (h₂ : v'.maxElectionId = v.maxElectionId) : Advances v v' where
  maxima := by rw [h₁, h₂]; exact hm
  version := by rw [h₁]; exact VersionLe.refl _
  election := by rw [h₂]; exact ElectionLe.refl _

theorem Accepted.advances (ha : Accepted sd v v₁) (h : Advances v₁ v') (hf : Forgets v₁.servers v'.servers) :
    Accepted sd v v' := by
  intro hp
  obtain ⟨hn, hw⟩ := ha (hf.primaryAt hp)
  exact ⟨hn, hw.mono h.version h.election⟩

theorem updateRsFromPrimary_advances (hsv : sd.setVersion ≠ some 0)
    (hm : MaximaOk v.maxSetVersion v.maxElectionId) (h : updateRsFromPrimary rt sd v = .ok v') :
    Advances v v' ∧ Accepted sd v v' := by
  refine ⟨?_, fun hp => ?_⟩
  · obtain ⟨-, -, ⟨-, h1, h2⟩ | ⟨-, -, -, h1, h2⟩ | ⟨hstale, -, h1, h2⟩⟩ := updateRsFromPrimary_cases h
    · exact .of_eq hm h1 h2
    · exact .of_eq hm h1 h2
    · have hn := notBelow_of_not_stale hsv hm.nonzero hstale
      obtain ⟨hm', he, -⟩ := accept_maxima hsv hm hn
      refine ⟨?_, ?_, ?_⟩
      · rw [h1, h2]; exact hm'
      · rw [h1]; exact versionLe_advance _ _
      · rw [h2]; exact he
  · obtain ⟨hstale, h1, h2⟩ := updateRsFromPrimary_accepted h hp
    have hn := notBelow_of_not_stale hsv hm.nonzero hstale
    refine ⟨hn, ?_⟩
    rw [h1, h2]
    exact (accept_maxima hsv hm hn).2.2

theorem isReplicaSet_checkHasPrimary (m : ServerMap) : IsReplicaSet (checkHasPrimary m) := by
  rcases checkHasPrimary_cases m with ⟨h, -⟩ | ⟨h, -⟩
  · exact .inl h
  · exact .inr h

theorem noPrimaryBranch_advances (hsv : sd.setVersion ≠ some 0)
    (hm : MaximaOk v.maxSetVersion v.maxElectionId) (h : noPrimaryBranch rt address sd v = .ok v') :
    Advances v v' ∧ (IsReplicaSet v'.type ↔ IsReplicaSet v.type) ∧
      (v.type = .replicaSetNoPrimary → sd.type = .rsPrimary → Accepted sd v v') := by
  unfold noPrimaryBranch at h
  by_cases ht : v.type = .replicaSetNoPrimary
  swap
  · rw [if_neg ht] at h; cases h
    exact ⟨.of_eq hm rfl rfl, Iff.rfl, fun ht' => absurd ht' ht⟩
  rw [if_pos ht] at h
  have hrs : IsReplicaSet v.type := .inr ht
  by_cases hp : sd.type = .rsPrimary
  · simp only [hp, if_true] at h
    obtain ⟨hadv, hacc⟩ := updateRsFromPrimary_advances hsv hm h
    refine ⟨hadv, iff_of_true ?_ hrs, fun _ _ => hacc⟩
    rw [(updateRsFromPrimary_cases h).2.1]
    exact isReplicaSet_checkHasPrimary _
  simp only [hp, if_false] at h
  -- dropping a foreign server changes neither the type nor the maxima
  have hfirst : ∀ w : Vars, w = (if mongosOrStandalone sd.type = true then
      { v with servers := v.servers.erase address } else v) →
      w.type = v.type ∧ w.maxSetVersion = v.maxSetVersion ∧ w.maxElectionId = v.maxElectionId := by
    rintro w rfl
    split <;> exact ⟨rfl, rfl, rfl⟩
  obtain ⟨ht', h1, h2⟩ := hfirst _ rfl
  split at h
  · obtain ⟨ht₂, h3, h4, -⟩ := updateRsNoPrimaryFromMember_cases h
    refine ⟨.of_eq hm (h3.trans h1) (h4.trans h2), iff_of_true (.inr ht₂) hrs, ?_⟩
    exact fun _ hp' => absurd hp' hp
  · cases h
    refine ⟨.of_eq hm h1 h2, ?_, fun _ hp' => absurd hp' hp⟩
    rw [ht']

theorem withPrimaryBranch_advances (hsv : sd.setVersion ≠ some 0)
    (hm : MaximaOk v.maxSetVersion v.maxElectionId) (h : withPrimaryBranch rt address sd v = .ok v') :
    Advances v v' ∧ (IsReplicaSet v'.type ↔ IsReplicaSet v.type) ∧
      (v.type = .replicaSetWithPrimary → sd.type = .rsPrimary → Accepted sd v v') := by
  unfold withPrimaryBranch at h
  by_cases ht : v.type = .replicaSetWithPrimary
  swap
  · rw [if_neg ht] at h; cases h
    exact ⟨.of_eq hm rfl rfl, Iff.rfl, fun ht' => absurd ht' ht⟩
  rw [if_pos ht] at h
  have hrs : IsReplicaSet v.type := .inl ht
  split at h
  · rename_i hmos
    cases h
    refine ⟨.of_eq hm rfl rfl, iff_of_true (isReplicaSet_checkHasPrimary _) hrs, ?_⟩
    exact fun _ hp => absurd hp (not_primary_of_foreign hmos)
  split at h
  · obtain ⟨hadv, hacc⟩ := updateRsFromPrimary_advances hsv hm h
    refine ⟨hadv, iff_of_true ?_ hrs, fun _ _ => hacc⟩
    rw [(updateRsFromPrimary_cases h).2.1]
    exact isReplicaSet_checkHasPrimary _
  rename_i hp
  split at h
  · obtain ⟨ht₂, -, -, h1, h2⟩ := updateRsWithPrimaryFromMember_spec h
    refine ⟨.of_eq hm h1 h2, iff_of_true ?_ hrs, fun _ hp' => absurd hp' hp⟩
    rw [ht₂]
    exact isReplicaSet_checkHasPrimary _
  · cases h
    exact ⟨.of_eq hm rfl rfl, iff_of_true (isReplicaSet_checkHasPrimary _) hrs, fun _ hp' => absurd hp' hp⟩

/-- The first two branches leave the maxima alone; only an unknown topology becomes a replica set. -/
theorem firstBranches_vars (address : String) (sd : ServerDescription) (size : Nat) (v : Vars) :
    (shardedBranch address sd (unknownBranch address sd size v)).maxSetVersion = v.maxSetVersion ∧
      (shardedBranch address sd (unknownBranch address sd size v)).maxElectionId = v.maxElectionId ∧
      (v.type ≠ .unknown → (shardedBranch address sd (unknownBranch address sd size v)).type = v.type) := by
  have hu : (unknownBranch address sd size v).maxSetVersion = v.maxSetVersion ∧
      (unknownBranch address sd size v).maxElectionId = v.maxElectionId ∧
      (v.type ≠ .unknown → (unknownBranch address sd size v).type = v.type) := by
    unfold unknownBranch
    split
    · rename_i ht
      split
      · exact ⟨rfl, rfl, fun _ => rfl⟩
      · exact ⟨rfl, rfl, fun hn => absurd ht hn⟩
    · exact ⟨rfl, rfl, fun _ => rfl⟩
  unfold shardedBranch
  split <;> exact hu

/-- A primary may be applied twice in one cascade; the first application decides. -/
theorem cascade_advances {size : Nat} (hsv : sd.setVersion ≠ some 0)
    (hm : MaximaOk v.maxSetVersion v.maxElectionId) (h : cascade rt address sd size v = .ok v') :
    Advances v v' ∧ (IsReplicaSet v.type → IsReplicaSet v'.type) ∧
      (IsReplicaSet v'.type → IsReplicaSet v.type ∨ v.type = .unknown) ∧
      (IsReplicaSet v'.type → sd.type = .rsPrimary → Accepted sd v v') := by
  unfold cascade at h
  obtain ⟨hv₀, he₀, ht₀⟩ := firstBranches_vars address sd size v
  generalize shardedBranch address sd (unknownBranch address sd size v) = v₀ at h hv₀ he₀ ht₀
  have ha₀ : Advances v v₀ := .of_eq hm hv₀ he₀
  cases h1 : noPrimaryBranch rt address sd v₀ with
  | error e => rw [h1] at h; cases h
  | ok v₁ =>
    rw [h1] at h
    change withPrimaryBranch rt address sd v₁ = .ok v' at h
    obtain ⟨ha₁, ht₁, hacc₁⟩ := noPrimaryBranch_advances hsv ha₀.maxima h1
    obtain ⟨ha₂, ht₂, hacc₂⟩ := withPrimaryBranch_advances hsv ha₁.maxima h
    have hrs : IsReplicaSet v'.type ↔ IsReplicaSet v₀.type := ht₂.trans ht₁
    refine ⟨ha₀.trans (ha₁.trans ha₂), fun hr => ?_, fun hr => ?_, fun hr hp => ?_⟩
    · rw [hrs, ht₀ (by rintro e; rw [e] at hr; rcases hr with hr | hr <;> cases hr)]
      exact hr
    · by_cases hu : v.type = .unknown
      · exact .inr hu
      · rw [hrs, ht₀ hu] at hr
        exact .inl hr
    · -- the branch of the type before decides; one that found the primary runs the second branch too
      have hacc : Accepted sd v₀ v' := by
        rcases hrs.1 hr with hw | hn
        · rw [noPrimaryBranch_skip (by rw [hw]; decide)] at h1; cases h1
          exact hacc₂ hw hp
        · exact (hacc₁ hn hp).advances ha₂ (withPrimaryBranch_forgets h)
      unfold Accepted at hacc ⊢
      rw [← hv₀, ← he₀]
      exact hacc

end Branches

/-! ## One update -/

section Update

variable {rt : Runtime} {d d' : TopologyDescription} {sd₀ : ServerDescription}

/-- The maxima cover every primary of a replica set. -/
structure Elections (d : TopologyDescription) : Prop where
  shape : WellShaped d
  maxima : MaximaOk d.maxSetVersion d.maxElectionId
  within : IsReplicaSet d.type → ∀ a s, PrimaryAt d.servers a s → Within s d.maxSetVersion d.maxElectionId

/-- What an update does to the maxima and the primaries. -/
structure ElectionStep (d d' : TopologyDescription) : Prop where
  maxima : MaximaOk d'.maxSetVersion d'.maxElectionId
  version : VersionLe d.maxSetVersion d'.maxSetVersion
  election : ElectionLe d.maxElectionId d'.maxElectionId
  stays : IsReplicaSet d.type → IsReplicaSet d'.type
  becomes : IsReplicaSet d'.type → IsReplicaSet d.type ∨ d.type = .unknown
  primaries : IsReplicaSet d'.type → ∀ a s, PrimaryAt d'.servers a s →
    PrimaryAt d.servers a s ∨
      (NotBelow s d.maxSetVersion d.maxElectionId ∧ Within s d'.maxSetVersion d'.maxElectionId)

theorem appliedDescription_setVersion {setName : Option String} {sd : ServerDescription}
    (hsv : sd₀.setVersion ≠ some 0) (h : appliedDescription rt setName sd₀ = .ok sd) : sd.setVersion ≠ some 0 := by
  rcases appliedDescription_cases h with rfl | hf
  · exact hsv
  · rw [hf]; exact nofun

theorem update_electionStep (hsv : sd₀.setVersion ≠ some 0) (hm : MaximaOk d.maxSetVersion d.maxElectionId)
    (h : d.update rt sd₀ = .ok d') : ElectionStep d d' := by
  obtain ⟨sd, v, ha, hv, rfl⟩ := update_cases h
  have hsv' := appliedDescription_setVersion hsv ha
  rcases hv with ⟨hs, rfl⟩ | ⟨-, hc⟩
  · have hrs : ¬ IsReplicaSet d.type := by
      rintro (h | h) <;> rw [hs] at h <;> cases h
    have hmax : truthyNum d.maxSetVersion = d.maxSetVersion := truthyNum_of_ne hm.nonzero
    refine ⟨?_, ?_, ElectionLe.refl _, fun h => h, fun h => absurd h hrs, fun h => absurd h hrs⟩
    · show MaximaOk (truthyNum d.maxSetVersion) _
      rw [hmax]; exact hm
    · show VersionLe _ (truthyNum d.maxSetVersion)
      rw [hmax]; exact VersionLe.refl _
  · obtain ⟨hadv, hstays, hbecomes, hacc⟩ := cascade_advances (v := d.startVars sd₀.address sd) hsv' hm hc
    have hmax : truthyNum v.maxSetVersion = v.maxSetVersion := truthyNum_of_ne hadv.maxima.nonzero
    refine ⟨?_, ?_, hadv.election, hstays, hbecomes, fun hr a s hp => ?_⟩
    · show MaximaOk (truthyNum v.maxSetVersion) _
      rw [hmax]; exact hadv.maxima
    · show VersionLe _ (truthyNum v.maxSetVersion)
      rw [hmax]; exact hadv.version
    · rcases primaryAt_set_cases ((cascade_forgets hc).primaryAt hp) with ⟨rfl, rfl⟩ | hold
      · -- the reporting server itself: it is stored under its own address
        refine .inr ?_
        have haddr : s.address = sd₀.address := by
          rcases appliedDescription_cases ha with rfl | hf
          · rfl
          · exact absurd hf hp.not_fresh
        show _ ∧ Within s (truthyNum v.maxSetVersion) _
        rw [hmax]
        exact hacc hr hp.2 (by rw [haddr]; exact hp)
      · exact .inl hold

theorem update_elections (hsv : sd₀.setVersion ≠ some 0) (hd : Elections d) (h : d.update rt sd₀ = .ok d') :
    Elections d' := by
  have hstep := update_electionStep hsv hd.maxima h
  refine ⟨update_wellShaped hd.shape h, hstep.maxima, fun hr a s hp => ?_⟩
  rcases hstep.primaries hr a s hp with hold | hnew
  · rcases hstep.becomes hr with hrs | hu
    · exact (hd.within hrs a s hold).mono hstep.version hstep.election
    · have hshape := hd.shape.shape
      rw [hu] at hshape
      exact absurd hold (hshape.no_primary (by decide) a s)
  · exact hnew.2

end Update

/-! ## Runs of updates -/

theorem initialDescription_elections (rt : Runtime) (options : TopologyOptions) (seeds : List HostAddress) :
    Elections (initialDescription rt options seeds) := by
  refine ⟨initialDescription_wellShaped rt options seeds, ⟨nofun, nofun⟩, fun _ a s hp => ?_⟩
  have hs := (initialDescription_get? hp.1).1
  exact absurd (by rw [hs]; rfl) hp.not_fresh

/-- `d'` is reached after `d`: the maxima went up, and its primaries are none of an older election
than the primary `d` held. -/
structure NoOlder (d d' : TopologyDescription) : Prop where
  elections : Elections d'
  version : VersionLe d.maxSetVersion d'.maxSetVersion
  election : ElectionLe d.maxElectionId d'.maxElectionId
  stays : IsReplicaSet d.type → IsReplicaSet d'.type
  newer : IsReplicaSet d.type → ∀ a p v e, PrimaryAt d.servers a p → Reports p v e →
    ∀ b q v' e', PrimaryAt d'.servers b q → Reports q v' e' → v ≤ v' ∧ compareObjectId (some e) (some e') ≤ 0

theorem NoOlder.refl {d : TopologyDescription} (hd : Elections d) : NoOlder d d where
  elections := hd
  version := VersionLe.refl _
  election := ElectionLe.refl _
  stays := fun h => h
  newer := by
    intro hr a p v e hp hrep b q v' e' hq hrep'
    have hone : OnePrimary d.servers := by
      have hshape := hd.shape.shape
      rcases hr with hr | hr <;> rw [hr] at hshape
      · exact hshape.2.1
      · exact onePrimary_of_none hshape.2
    obtain rfl := hone a p b q hp hq
    have hpq := hp.1
    rw [hq.1] at hpq; cases hpq
    have hv := hrep.1
    rw [hrep'.1] at hv; cases hv
    have he := hrep.2
    rw [hrep'.2] at he; cases he
    exact ⟨le_refl _, ObjectId.compare_self _⟩

theorem NoOlder.update {rt : Runtime} {d d₁ d' : TopologyDescription} {sd : ServerDescription}
    (hd : Elections d) (h : NoOlder d d₁) (hsv : sd.setVersion ≠ some 0) (hu : d₁.update rt sd = .ok d') :
    NoOlder d d' := by
  have hstep := update_electionStep hsv h.elections.maxima hu
  refine ⟨update_elections hsv h.elections hu, h.version.trans hstep.version, h.election.trans hstep.election,
    fun hr => hstep.stays (h.stays hr), ?_⟩
  intro hr a p v e hp hrep b q v' e' hq hrep'
  rcases hstep.primaries (hstep.stays (h.stays hr)) b q hq with hold | ⟨hnew, -⟩
  · exact h.newer hr a p v e hp hrep b q v' e' hold hrep'
  · -- the older primary is within the maxima, the new one is not below them
    obtain ⟨hv, he⟩ := (hd.within hr a p hp).mono h.version h.election v e hrep
    obtain ⟨mv, hmv, hle⟩ := hv v rfl
    obtain ⟨me, hme, hce⟩ := he e rfl
    obtain ⟨hv', he'⟩ := hnew v' e' hrep' mv me hmv hme
    exact ⟨hle.trans hv', ObjectId.compare_trans hce he'⟩

/-- Along every run of updates from a description the `Topology` constructor builds, the largest
set version and election id never decrease, an election id is only kept along with a set version,
and a primary of an older election than one a replica set held before is never accepted again. -/
theorem elections_monotone (rt : Runtime) (options : TopologyOptions) (seeds : List HostAddress)
    (sds₁ sds₂ : List ServerDescription) (d₁ d₂ : TopologyDescription) (hbuilt : ∀ sd ∈ sds₁ ++ sds₂, sd.Built rt)
    (h₁ : sds₁.foldlM (TopologyDescription.update rt) (initialDescription rt options seeds) = .ok d₁)
    (h₂ : sds₂.foldlM (TopologyDescription.update rt) d₁ = .ok d₂) :
    VersionLe d₁.maxSetVersion d₂.maxSetVersion ∧ ElectionLe d₁.maxElectionId d₂.maxElectionId ∧
      (d₁.maxElectionId.isSome → d₁.maxSetVersion.isSome) ∧
      (IsReplicaSet d₁.type → ∀ a p v e, PrimaryAt d₁.servers a p → Reports p v e →
        ∀ b q v' e', PrimaryAt d₂.servers b q → Reports q v' e' →
          v ≤ v' ∧ compareObjectId (some e) (some e') ≤ 0) := by
  have hd₁ : Elections d₁ := by
    refine Run.foldlM_inv_mem ?_ (initialDescription_elections rt options seeds) h₁
    intro d sd d' hmem hd hu
    exact update_elections (hbuilt sd (List.mem_append_left _ hmem)).setVersion hd hu
  have hd₂ : NoOlder d₁ d₂ := by
    refine Run.foldlM_inv_mem ?_ (NoOlder.refl hd₁) h₂
    intro d sd d' hmem hd hu
    exact hd.update hd₁ (hbuilt sd (List.mem_append_right _ hmem)).setVersion hu
  exact ⟨hd₂.version, hd₂.election, hd₁.maxima.paired, hd₂.newer⟩

/-- The report of a primary elected under the given election id. -/
def lanElected (name : String) (n : Nat) : ServerDescription :=
  .new lanRuntime (lanHost name) (some { lanHello true with electionId := some (ObjectId.replicate n) })

/-- An election, the next one, and a late report of the first winner. -/
def lanElections : Except AnyError (TopologyDescription × TopologyDescription) := do
  let d₁ ← [lanElected "a" 1].foldlM (TopologyDescription.update lanRuntime)
    (initialDescription lanRuntime {} [lanHost "a"])
  let d₂ ← [lanElected "b" 2, lanElected "a" 1].foldlM (TopologyDescription.update lanRuntime) d₁
  return (d₁, d₂)

/-- The late report is not accepted. -/
theorem elections_monotone_late_report : ∃ d₁ d₂ : TopologyDescription, lanElections = .ok (d₁, d₂) ∧
    PrimaryAt d₁.servers "a:27017" (lanElected "a" 1) ∧ PrimaryAt d₂.servers "b:27017" (lanElected "b" 2) ∧
      VersionLe d₁.maxSetVersion d₂.maxSetVersion ∧ ElectionLe d₁.maxElectionId d₂.maxElectionId ∧
      (d₁.maxElectionId.isSome → d₁.maxSetVersion.isSome) ∧
      (1 : Int) ≤ 1 ∧ compareObjectId (some (ObjectId.replicate 1)) (some (ObjectId.replicate 2)) ≤ 0 := by
  have hrun : (lanElections.toOption.any fun d =>
      d.1.type = .replicaSetWithPrimary ∧ d.1.servers.get? "a:27017" = some (lanElected "a" 1) ∧
        d.2.servers.get? "b:27017" = some (lanElected "b" 2)) = true := by decide
  cases h₁ : [lanElected "a" 1].foldlM (TopologyDescription.update lanRuntime)
      (initialDescription lanRuntime {} [lanHost "a"]) with
  | error e => simp only [lanElections, h₁] at hrun; cases hrun
  | ok d₁ =>
    cases h₂ : [lanElected "b" 2, lanElected "a" 1].foldlM (TopologyDescription.update lanRuntime) d₁ with
    | error e =>
      simp only [lanElections, h₁, bind, Except.bind, h₂] at hrun; cases hrun
    | ok d₂ =>
      simp only [lanElections, h₁, bind, Except.bind, h₂] at hrun
      obtain ⟨ht, hp, hq⟩ := of_decide_eq_true hrun
      have hbuilt : ∀ sd ∈ [lanElected "a" 1] ++ [lanElected "b" 2, lanElected "a" 1], sd.Built lanRuntime := by
        simp only [List.cons_append, List.nil_append, List.mem_cons, List.not_mem_nil, or_false]
        rintro sd (rfl | rfl | rfl) <;> exact ⟨_, _, _, rfl⟩
      obtain ⟨hv, he, hpair, hnewer⟩ := elections_monotone lanRuntime {} [lanHost "a"] _ _ d₁ d₂ hbuilt h₁ h₂
      have hok : lanElections = .ok (d₁, d₂) := by
        simp only [lanElections, h₁, bind, Except.bind, h₂]; rfl
      exact ⟨d₁, d₂, hok, ⟨hp, rfl⟩, ⟨hq, rfl⟩, hv, he, hpair,
        hnewer (.inl ht) _ _ _ _ ⟨hp, rfl⟩ ⟨rfl, rfl⟩ _ _ _ _ ⟨hq, rfl⟩ ⟨rfl, rfl⟩⟩

end MongoDriver.Sdam
