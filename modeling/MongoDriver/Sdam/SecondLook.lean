/-
A primary's reply to a topology without a primary falls through two branches of `update`, so that
`updateRsFromPrimary` sees it twice, the second time with the maxima that the first time has stored.
The second look changes what the first one left in two cases: the reply brings the first election id
together with a set version below the stored one, or a second other primary is left to be demoted.
-/
import MongoDriver.Sdam.Invariant

namespace MongoDriver.Sdam

/-! ## One processing -/

/-- `update` as if a primary's reply were processed by one `updateRsFromPrimary`. -/
def TopologyDescription.updateOnce (rt : Runtime) (d : TopologyDescription) (serverDescription : ServerDescription) :
    Except AnyError TopologyDescription := do
  let sd ← appliedDescription rt d.setName serverDescription
  let v := d.startVars serverDescription.address sd
  let v ← if sd.type = .rsPrimary then updateRsFromPrimary rt sd v
    else cascade rt serverDescription.address sd d.servers.size v
  return new v.type v.servers v.setName v.maxSetVersion v.maxElectionId
    (advanceWireVersion d.commonWireVersion sd) d.options

/-! ## The maxima the second time -/

section Maxima

variable {sd : ServerDescription} {maxSetVersion : Option Int} {maxElectionId : Option ObjectId}

theorem advanceSetVersion_twice (a b : Option Int) :
    advanceSetVersion (advanceSetVersion a b) b = advanceSetVersion a b := by
  cases b with
  | none => rfl
  | some v =>
    cases a with
    | none => simp [advanceSetVersion]
    | some m => by_cases h : v > m <;> simp [advanceSetVersion, h]

theorem advanceElectionId_twice (a : Option ObjectId) (sd : ServerDescription) :
    advanceElectionId (advanceElectionId a sd) sd = advanceElectionId a sd := by
  unfold advanceElectionId
  split <;> rfl

/-- The reply brings the first election id, with a set version below the stored one. -/
def LateStale (sd : ServerDescription) (maxSetVersion : Option Int) (maxElectionId : Option ObjectId) : Prop :=
  ∃ mv v, truthyNum maxSetVersion = some mv ∧ maxElectionId = none ∧ truthyNum sd.setVersion = some v ∧
    sd.electionId.isSome ∧ v < mv

/-- A reply that was accepted is stale the second time exactly when it brings the first election id late. -/
theorem isStalePrimary_again (h : isStalePrimary sd maxSetVersion maxElectionId = false) :
    isStalePrimary sd (advanceSetVersion maxSetVersion sd.setVersion) (advanceElectionId maxElectionId sd) = true ↔
      LateStale sd maxSetVersion maxElectionId := by
  cases hv : truthyNum sd.setVersion with
  | none =>
    refine iff_of_false (by simp [isStalePrimary, hv]) ?_
    rintro ⟨mv, v, -, -, hv', -⟩
    rw [hv] at hv'; cases hv'
  | some v =>
    cases he : sd.electionId with
    | none =>
      refine iff_of_false (by simp [isStalePrimary, hv, he]) ?_
      rintro ⟨mv, v, -, -, -, he', -⟩
      rw [he] at he'; cases he'
    | some e =>
      obtain ⟨hsv, hv0⟩ := truthyNum_eq_some.1 hv
      have hself : ¬ compareObjectId (some e) (some e) > 0 := not_lt.2 e.compare_self
      -- the reply's own election id is the maximum now, so that only the set version can be too small
      have hnow : isStalePrimary sd (advanceSetVersion maxSetVersion sd.setVersion) (advanceElectionId maxElectionId sd)
          = true ↔ ∃ mv, truthyNum (advanceSetVersion maxSetVersion sd.setVersion) = some mv ∧ mv > v := by
        unfold isStalePrimary advanceElectionId
        cases hm : truthyNum (advanceSetVersion maxSetVersion sd.setVersion) with
        | none => simp [hv, he]
        | some mv => simpa [hv, he] using fun h => absurd h hself
      rw [hnow]
      constructor
      · rintro ⟨mv, hmv, hlt⟩
        obtain ⟨hmv, h0⟩ := truthyNum_eq_some.1 hmv
        -- a set version above the reply's is the stored one
        have hold : maxSetVersion = some mv := by
          rw [hsv] at hmv
          cases hm : maxSetVersion with
          | none =>
            rw [hm] at hmv
            obtain rfl : v = mv := by simpa [advanceSetVersion] using hmv
            exact absurd hlt (lt_irrefl _)
          | some m =>
            rw [hm] at hmv
            by_cases hgt : v > m
            · obtain rfl : v = mv := by simpa [advanceSetVersion, hgt] using hmv
              exact absurd hlt (lt_irrefl _)
            · simpa [advanceSetVersion, hgt] using hmv
        have hmax : truthyNum maxSetVersion = some mv := truthyNum_eq_some.2 ⟨hold, h0⟩
        refine ⟨mv, v, hmax, ?_, hv, by rw [he]; rfl, hlt⟩
        cases hme : maxElectionId with
        | none => rfl
        | some me => simp [isStalePrimary, hv, he, hmax, hme, hlt] at h
      · rintro ⟨mv, v', hmv, -, hv', -, hlt⟩
        obtain rfl := Option.some.inj (hv.symm.trans hv')
        obtain ⟨hold, h0⟩ := truthyNum_eq_some.1 hmv
        refine ⟨mv, ?_, hlt⟩
        rw [hold, hsv, advanceSetVersion, if_neg (not_lt.2 hlt.le)]
        exact truthyNum_eq_some.2 ⟨rfl, h0⟩

end Maxima

/-! ## Other primaries -/

/-- The loop that looks for the old primary stops at this entry. -/
def otherPrimary (address : String) (m : ServerMap) : Option (String × ServerDescription) :=
  m.entries.find? fun p => p.2.type = .rsPrimary ∧ p.2.address ≠ address

/-- Besides the one the loop stops at there is another primary, and the reply lists it. -/
def OtherLeft (sd : ServerDescription) (m : ServerMap) : Prop :=
  ∃ a s, PrimaryAt m a s ∧ s.address ≠ sd.address ∧ a ∈ sd.allHosts ∧
    ∀ p, otherPrimary sd.address m = some p → p.1 ≠ a

section Others

variable {rt : Runtime} {address : String} {sd : ServerDescription} {m m' : ServerMap}

theorem otherPrimary_some {p : String × ServerDescription} (h : otherPrimary address m = some p) :
    PrimaryAt m p.1 p.2 ∧ p.2.address ≠ address := by
  have hmem := OrderedMap.get?_eq_some.2 (List.mem_of_find?_eq_some h)
  have hp := List.find?_some h
  simp only [decide_eq_true_eq] at hp
  exact ⟨⟨hmem, hp.1⟩, hp.2⟩

theorem otherPrimary_none : otherPrimary address m = none ↔ ∀ a s, PrimaryAt m a s → s.address = address := by
  unfold otherPrimary
  rw [List.find?_eq_none]
  constructor
  · intro h a s hs
    by_contra hne
    exact h _ (OrderedMap.get?_eq_some.1 hs.1) (by simp [hs.2, hne])
  · rintro h ⟨a, s⟩ hp hcond
    simp only [decide_eq_true_eq] at hcond
    exact hcond.2 (h a s ⟨OrderedMap.get?_eq_some.2 hp, hcond.1⟩)

theorem demoteOtherPrimary_of_none (h : otherPrimary address m = none) : demoteOtherPrimary rt address m = .ok m := by
  unfold otherPrimary at h
  unfold demoteOtherPrimary
  rw [h]

theorem demoteOtherPrimary_of_some {p : String × ServerDescription} (h : otherPrimary address m = some p) :
    demoteOtherPrimary rt address m =
      (ServerDescription.ofString rt p.2.address).map fun reset => m.set p.1 reset := by
  obtain ⟨key, server⟩ := p
  unfold otherPrimary at h
  unfold demoteOtherPrimary
  rw [h]
  cases hr : ServerDescription.ofString rt server.address with
  | error e => simp [hr, bind, Except.bind, Except.map]
  | ok r => simp [hr, bind, Except.bind, Except.map, pure, Except.pure]

/-- The demoted primary is reset, all other entries stay. -/
theorem demoteOtherPrimary_get? (h : demoteOtherPrimary rt address m = .ok m') (a : String) :
    (m'.get? a = m.get? a ∧ ∀ p, otherPrimary address m = some p → p.1 ≠ a) ∨
      ∃ p reset, otherPrimary address m = some p ∧ p.1 = a ∧ m'.get? a = some reset ∧ reset.IsFresh := by
  cases hp : otherPrimary address m with
  | none =>
    rw [demoteOtherPrimary_of_none hp] at h
    cases h
    exact .inl ⟨rfl, fun p hp => absurd hp nofun⟩
  | some p =>
    rw [demoteOtherPrimary_of_some hp] at h
    cases hr : ServerDescription.ofString rt p.2.address with
    | error e => rw [hr] at h; cases h
    | ok r =>
      rw [hr] at h
      cases h
      by_cases ha : a = p.1
      · exact .inr ⟨p, r, rfl, ha.symm, by rw [ha, OrderedMap.get?_set_self], ServerDescription.ofString_ok hr⟩
      · refine .inl ⟨OrderedMap.get?_set_ne _ _ ha, fun q hq => ?_⟩
        obtain rfl := Option.some.inj hq
        exact fun h => ha h.symm

theorem demoteOtherPrimary_contains (h : demoteOtherPrimary rt address m = .ok m') (a : String) :
    m'.contains a = m.contains a := by
  unfold OrderedMap.contains
  rcases demoteOtherPrimary_get? h a with ⟨heq, -⟩ | ⟨p, r, hp, rfl, hr, -⟩
  · rw [heq]
  · rw [hr, (otherPrimary_some hp).1.1]
    rfl

theorem demoteOtherPrimary_ok_iff : (∃ m', demoteOtherPrimary rt address m = .ok m') ↔
    ∀ p, otherPrimary address m = some p → ∃ r, ServerDescription.ofString rt p.2.address = .ok r := by
  cases hp : otherPrimary address m with
  | none => exact iff_of_true ⟨m, demoteOtherPrimary_of_none hp⟩ fun p hp => absurd hp nofun
  | some p =>
    rw [demoteOtherPrimary_of_some hp]
    constructor
    · rintro ⟨m', h⟩ q hq
      obtain rfl := Option.some.inj hq
      cases hr : ServerDescription.ofString rt p.2.address with
      | error e => rw [hr] at h; cases h
      | ok r => exact ⟨r, rfl⟩
    · intro h
      obtain ⟨r, hr⟩ := h p rfl
      exact ⟨m.set p.1 r, by rw [hr]; rfl⟩

end Others

/-! ## The first time -/

section First

variable {rt : Runtime} {sd : ServerDescription} {v v' : Vars}

/-- A reply that is accepted: it is of the same set and not stale, and everything it adds can be read. -/
structure Accepts (rt : Runtime) (sd : ServerDescription) (v : Vars) : Prop where
  sameSet : (truthyStr v.setName <|> sd.setName) = sd.setName
  fresh : isStalePrimary sd v.maxSetVersion v.maxElectionId = false
  demotes : ∀ p, otherPrimary sd.address v.servers = some p → ∃ r, ServerDescription.ofString rt p.2.address = .ok r
  discovers : Readable rt sd.allHosts v.servers

/-- What follows an accepted reply. -/
structure Follows (rt : Runtime) (sd : ServerDescription) (v v' : Vars) : Prop where
  type : v'.type = checkHasPrimary v'.servers
  setName : v'.setName = sd.setName
  maxSetVersion : v'.maxSetVersion = advanceSetVersion v.maxSetVersion sd.setVersion
  maxElectionId : v'.maxElectionId = advanceElectionId v.maxElectionId sd
  members : ∀ a, v'.servers.contains a = true ↔ a ∈ sd.allHosts
  kept : ∀ a s, v.servers.get? a = some s → a ∈ sd.allHosts →
    (∀ p, otherPrimary sd.address v.servers = some p → p.1 ≠ a) → v'.servers.get? a = some s
  only : ∀ a s, v'.servers.get? a = some s → s.IsFresh ∨ v.servers.get? a = some s ∧ a ∈ sd.allHosts ∧
    ∀ p, otherPrimary sd.address v.servers = some p → p.1 ≠ a

theorem Follows.primaries (h : Follows rt sd v v') (a : String) (s : ServerDescription) :
    PrimaryAt v'.servers a s ↔ PrimaryAt v.servers a s ∧ a ∈ sd.allHosts ∧
      ∀ p, otherPrimary sd.address v.servers = some p → p.1 ≠ a := by
  constructor
  · rintro ⟨hs, ht⟩
    rcases h.only a s hs with hf | ⟨hold, hlisted, hfirst⟩
    · rw [hf.type] at ht; cases ht
    · exact ⟨⟨hold, ht⟩, hlisted, hfirst⟩
  · rintro ⟨⟨hold, ht⟩, hlisted, hfirst⟩
    exact ⟨h.kept a s hold hlisted hfirst, ht⟩

theorem updateRsFromPrimary_eq {m₁ m₂ : ServerMap} (hname : (truthyStr v.setName <|> sd.setName) = sd.setName)
    (hfresh : isStalePrimary sd v.maxSetVersion v.maxElectionId = false)
    (h₁ : demoteOtherPrimary rt sd.address v.servers = .ok m₁) (h₂ : discoverHosts rt sd.allHosts m₁ = .ok m₂) :
    updateRsFromPrimary rt sd v = .ok {
      type := checkHasPrimary (removeUnlisted sd.allHosts m₂)
      servers := removeUnlisted sd.allHosts m₂
      setName := sd.setName
      maxSetVersion := advanceSetVersion v.maxSetVersion sd.setVersion
      maxElectionId := advanceElectionId v.maxElectionId sd } := by
  unfold updateRsFromPrimary
  simp only [hname, hfresh, h₁, h₂, ne_eq, not_true_eq_false, if_false, Bool.false_eq_true, bind, Except.bind, pure,
    Except.pure]

/-- A reply of another set is removed. -/
theorem updateRsFromPrimary_foreign (hname : (truthyStr v.setName <|> sd.setName) ≠ sd.setName) :
    updateRsFromPrimary rt sd v = .ok { v with
      type := checkHasPrimary (v.servers.erase sd.address)
      servers := v.servers.erase sd.address
      setName := truthyStr v.setName <|> sd.setName } := by
  unfold updateRsFromPrimary
  simp only [hname, ne_eq, not_false_eq_true, if_true]
  rfl

theorem updateRsFromPrimary_accepts (h : Accepts rt sd v) :
    ∃ v', updateRsFromPrimary rt sd v = .ok v' ∧ Follows rt sd v v' := by
  obtain ⟨m₁, h₁⟩ := demoteOtherPrimary_ok_iff.2 h.demotes
  have hread : Readable rt sd.allHosts m₁ := fun a ha hnew =>
    h.discovers a ha (by rw [← demoteOtherPrimary_contains h₁]; exact hnew)
  obtain ⟨m₂, h₂⟩ := discoverHosts_ok_iff.2 hread
  obtain ⟨hall, hkept, -⟩ := discoverHosts_spec h₂
  refine ⟨_, updateRsFromPrimary_eq h.sameSet h.fresh h₁ h₂, rfl, rfl, rfl, rfl, fun a => ?_, fun a s hs ha hne => ?_,
    fun a s hs => ?_⟩
  · simp only [contains_eq_true, get?_removeUnlisted]
    constructor
    · rintro ⟨s, hs⟩
      by_contra hnot
      rw [if_neg hnot] at hs; cases hs
    · intro ha
      rw [if_pos ha]
      exact contains_eq_true.1 (hall a ha)
  · rw [get?_removeUnlisted, if_pos ha]
    rcases demoteOtherPrimary_get? h₁ a with ⟨heq, -⟩ | ⟨p, r, hp, hpa, -, -⟩
    · exact hkept a s (heq.trans hs)
    · exact absurd hpa (hne p hp)
  · rw [get?_removeUnlisted] at hs
    by_cases ha : a ∈ sd.allHosts
    · rw [if_pos ha] at hs
      -- what is not fresh was neither discovered nor reset
      rcases Entries.discoverHosts (Forgets.refl m₁) (forgets_resets rt m₁ sd).host h₂ a s hs with hs | hf
      · rcases demoteOtherPrimary_get? h₁ a with ⟨heq, hne⟩ | ⟨p, r, -, -, hr, hf⟩
        · exact .inr ⟨heq ▸ hs, ha, hne⟩
        · rw [hs] at hr
          cases hr
          exact .inl hf
      · exact .inl hf
    · rw [if_neg ha] at hs; cases hs

/-- A reply of the same set that is not stale was accepted when its processing ends well. -/
theorem updateRsFromPrimary_ok_accepts (hname : (truthyStr v.setName <|> sd.setName) = sd.setName)
    (hfresh : isStalePrimary sd v.maxSetVersion v.maxElectionId = false) (h : updateRsFromPrimary rt sd v = .ok v') :
    Accepts rt sd v := by
  unfold updateRsFromPrimary at h
  simp only [hname, hfresh, ne_eq, not_true_eq_false, if_false, Bool.false_eq_true] at h
  obtain ⟨m₁, h₁, h⟩ := Run.bind_ok.1 h
  obtain ⟨m₂, h₂, -⟩ := Run.bind_ok.1 h
  refine ⟨hname, hfresh, demoteOtherPrimary_ok_iff.1 ⟨m₁, h₁⟩, fun a ha hnew => ?_⟩
  exact discoverHosts_ok_iff.1 ⟨m₂, h₂⟩ a ha (by rw [demoteOtherPrimary_contains h₁]; exact hnew)

/-- When the first processing ends well, the reply was accepted, or it was refused for good. -/
theorem updateRsFromPrimary_again (h : updateRsFromPrimary rt sd v = .ok v') :
    Accepts rt sd v ∨ updateRsFromPrimary rt sd v' = .ok v' := by
  by_cases hname : (truthyStr v.setName <|> sd.setName) = sd.setName
  · cases hstale : isStalePrimary sd v.maxSetVersion v.maxElectionId with
    | false => exact .inl (updateRsFromPrimary_ok_accepts hname hstale h)
    | true =>
      -- a stale reply is stale again, and its address holds an Unknown description already
      refine .inr ?_
      unfold updateRsFromPrimary at h
      simp only [hname, hstale, ne_eq, not_true_eq_false, if_false, if_true] at h
      obtain ⟨reset, hr, h⟩ := Run.bind_ok.1 h
      cases h
      have hset : (v.servers.set sd.address reset).set sd.address reset = v.servers.set sd.address reset :=
        OrderedMap.set_of_get? (OrderedMap.get?_set_self ..)
      unfold updateRsFromPrimary
      simp only [truthyStr_orElse_self, hstale, hr, hset, ne_eq, not_true_eq_false, if_false, if_true, bind,
        Except.bind, pure, Except.pure]
  · -- a name that differs is the topology's own, and differs again
    refine .inr ?_
    rw [updateRsFromPrimary_foreign hname] at h
    cases h
    obtain ⟨t, ht⟩ : ∃ t, truthyStr v.setName = some t := by
      cases ht : truthyStr v.setName with
      | none => rw [ht] at hname; exact absurd rfl hname
      | some t => exact ⟨t, rfl⟩
    have htt : truthyStr (some t) = some t := truthyStr_eq_some.2 ⟨rfl, (truthyStr_eq_some.1 ht).2⟩
    have hkeep : (truthyStr (truthyStr v.setName <|> sd.setName) <|> sd.setName) =
        (truthyStr v.setName <|> sd.setName) := by
      rw [ht]
      show (truthyStr (some t) <|> sd.setName) = some t
      rw [htt]
      rfl
    have herase : (v.servers.erase sd.address).erase sd.address = v.servers.erase sd.address :=
      OrderedMap.erase_of_get?_none (OrderedMap.get?_erase_self ..)
    rw [updateRsFromPrimary_foreign (by simp only [hkeep]; exact hname)]
    simp only [hkeep, herase]

end First

/-! ## The second time -/

/-- The reply lists a primary of its own address: itself, where it is listed. -/
def Leads (sd : ServerDescription) (m : ServerMap) : Prop :=
  ∃ a s, PrimaryAt m a s ∧ s.address = sd.address ∧ a ∈ sd.allHosts

/-- What the second processing would change of what an accepted reply has left. -/
def Changes (sd : ServerDescription) (v : Vars) : Prop :=
  Leads sd v.servers ∧ LateStale sd v.maxSetVersion v.maxElectionId ∨ OtherLeft sd v.servers

section Second

variable {rt : Runtime} {sd : ServerDescription} {v v' v'' : Vars}

theorem Follows.otherPrimary_ne_none (h : Follows rt sd v v') :
    otherPrimary sd.address v'.servers ≠ none ↔ OtherLeft sd v.servers := by
  constructor
  · intro hne
    obtain ⟨p, hp⟩ := Option.ne_none_iff_exists'.1 hne
    obtain ⟨hprim, haddr⟩ := otherPrimary_some hp
    obtain ⟨hprim, hlisted, hfirst⟩ := (h.primaries p.1 p.2).1 hprim
    exact ⟨p.1, p.2, hprim, haddr, hlisted, hfirst⟩
  · rintro ⟨a, s, hprim, haddr, hlisted, hfirst⟩ hnone
    exact haddr (otherPrimary_none.1 hnone a s ((h.primaries a s).2 ⟨hprim, hlisted, hfirst⟩))

/-- The topology has a primary then: of the reply's address, or another that is left. -/
theorem Follows.hasPrimary (h : Follows rt sd v v') :
    v'.type = .replicaSetWithPrimary ↔ Leads sd v.servers ∨ OtherLeft sd v.servers := by
  have hiff : v'.type = .replicaSetWithPrimary ↔ ∃ a s, PrimaryAt v'.servers a s := by
    rw [h.type]
    rcases checkHasPrimary_cases v'.servers with ⟨ht, hp⟩ | ⟨ht, hp⟩
    · exact iff_of_true ht hp
    · refine iff_of_false (by rw [ht]; decide) ?_
      rintro ⟨a, s, hs⟩
      exact hp a s hs
  rw [hiff]
  constructor
  · rintro ⟨a, s, hprim⟩
    by_cases haddr : s.address = sd.address
    · obtain ⟨hold, hlisted, -⟩ := (h.primaries a s).1 hprim
      exact .inl ⟨a, s, hold, haddr, hlisted⟩
    · exact .inr (h.otherPrimary_ne_none.1 fun hnone => haddr (otherPrimary_none.1 hnone a s hprim))
  · rintro (⟨a, s, hprim, haddr, hlisted⟩ | ⟨a, s, hprim, -, hlisted, hfirst⟩)
    · -- the loop does not stop at a primary of this address
      refine ⟨a, s, (h.primaries a s).2 ⟨hprim, hlisted, ?_⟩⟩
      rintro p hp rfl
      obtain ⟨hp, hne⟩ := otherPrimary_some hp
      obtain rfl := Option.some.inj (hprim.1.symm.trans hp.1)
      exact hne haddr
    · exact ⟨a, s, (h.primaries a s).2 ⟨hprim, hlisted, hfirst⟩⟩

/-- Where nothing is to be changed, the second processing returns what it was given. -/
theorem Follows.again (ha : Accepts rt sd v) (h : Follows rt sd v v')
    (hlate : ¬ LateStale sd v.maxSetVersion v.maxElectionId) (hother : ¬ OtherLeft sd v.servers) :
    updateRsFromPrimary rt sd v' = .ok v' := by
  have hname : (truthyStr v'.setName <|> sd.setName) = sd.setName := by rw [h.setName, truthyStr_orElse_self]
  have hfresh : isStalePrimary sd v'.maxSetVersion v'.maxElectionId = false := by
    rw [h.maxSetVersion, h.maxElectionId]
    exact Bool.eq_false_iff.2 fun hs => hlate ((isStalePrimary_again ha.fresh).1 hs)
  have hdemote : demoteOtherPrimary rt sd.address v'.servers = .ok v'.servers :=
    demoteOtherPrimary_of_none (not_not.1 fun hne => hother (h.otherPrimary_ne_none.1 hne))
  have hdiscover : discoverHosts rt sd.allHosts v'.servers = .ok v'.servers :=
    discoverHosts_of_contains fun a hlisted => (h.members a).2 hlisted
  rw [updateRsFromPrimary_eq hname hfresh hdemote hdiscover,
    removeUnlisted_of_listed fun a hin => (h.members a).1 hin]
  obtain ⟨htype, hset, hversion, helection, -, -⟩ := h
  obtain ⟨type, servers, setName, maxSetVersion, maxElectionId⟩ := v'
  simp only at htype hset hversion helection
  rw [htype, hset, hversion, helection, advanceSetVersion_twice, advanceElectionId_twice]

/-- Where something is to be changed, the second processing leaves another map. -/
theorem Follows.changed (ha : Accepts rt sd v) (h : Follows rt sd v v')
    (hstored : v.servers.get? sd.address = some sd) (ht : sd.type = .rsPrimary)
    (hc : LateStale sd v.maxSetVersion v.maxElectionId ∨ OtherLeft sd v.servers)
    (hu : updateRsFromPrimary rt sd v' = .ok v'') : v''.servers ≠ v'.servers := by
  intro heq
  have hown : ∀ s, v'.servers.get? sd.address = some s → s = sd := by
    intro s hs
    have hlisted := (h.members sd.address).1 (contains_eq_true.2 ⟨s, hs⟩)
    have hprim : PrimaryAt v'.servers sd.address sd := by
      refine (h.primaries _ _).2 ⟨⟨hstored, ht⟩, hlisted, ?_⟩
      rintro p hp hpa
      obtain ⟨hp, hne⟩ := otherPrimary_some hp
      rw [hpa] at hp
      obtain rfl := Option.some.inj (hstored.symm.trans hp.1)
      exact hne rfl
    exact Option.some.inj (hs.symm.trans hprim.1)
  by_cases hlate : LateStale sd v.maxSetVersion v.maxElectionId
  · -- the reply counts as stale now: its address holds an Unknown description
    have hstale : isStalePrimary sd v'.maxSetVersion v'.maxElectionId = true := by
      rw [h.maxSetVersion, h.maxElectionId]
      exact (isStalePrimary_again ha.fresh).2 hlate
    unfold updateRsFromPrimary at hu
    simp only [h.setName, truthyStr_orElse_self, hstale, ne_eq, not_true_eq_false, if_false, if_true] at hu
    obtain ⟨reset, hr, hu⟩ := Run.bind_ok.1 hu
    cases hu
    have hget : v'.servers.get? sd.address = some reset := by
      rw [← heq]
      exact OrderedMap.get?_set_self ..
    have hf : reset.IsFresh := ServerDescription.ofString_ok hr
    rw [hown reset hget] at hf
    rw [hf.type] at ht
    cases ht
  · -- one more primary is demoted
    have hfresh : isStalePrimary sd v'.maxSetVersion v'.maxElectionId = false := by
      rw [h.maxSetVersion, h.maxElectionId]
      exact Bool.eq_false_iff.2 fun hs => hlate ((isStalePrimary_again ha.fresh).1 hs)
    obtain ⟨p, hp⟩ := Option.ne_none_iff_exists'.1 (h.otherPrimary_ne_none.2 (hc.resolve_left hlate))
    unfold updateRsFromPrimary at hu
    simp only [h.setName, truthyStr_orElse_self, hfresh, ne_eq, not_true_eq_false, if_false, Bool.false_eq_true] at hu
    obtain ⟨m₁, h₁, hu⟩ := Run.bind_ok.1 hu
    obtain ⟨m₂, h₂, hu⟩ := Run.bind_ok.1 hu
    cases hu
    have hprim := (otherPrimary_some hp).1
    have hlisted := ((h.primaries p.1 p.2).1 hprim).2.1
    have hget : m₂.get? p.1 = some p.2 := by
      have hp2 := hprim.1
      rw [← heq] at hp2
      simpa [get?_removeUnlisted, hlisted] using hp2
    rcases demoteOtherPrimary_get? h₁ p.1 with ⟨-, hne⟩ | ⟨q, r, -, -, hr, hf⟩
    · exact hne p hp rfl
    · obtain rfl := Option.some.inj (((discoverHosts_spec h₂).2.1 p.1 r hr).symm.trans hget)
      exact hprim.not_fresh hf

end Second

/-! ## Both times -/

section Both

variable {rt : Runtime} {d : TopologyDescription} {sd : ServerDescription}

/-- The reply is processed twice, and the second processing changes what the first has left: the topology has no
primary, the reply is accepted, and it lists itself while it brings the first election id with a set version below
the stored one, or it lists another primary besides the one that it demotes. -/
structure LooksAgain (rt : Runtime) (d : TopologyDescription) (sd : ServerDescription) : Prop where
  noPrimary : d.type = .replicaSetNoPrimary
  accepts : Accepts rt sd (d.startVars sd.address sd)
  changes : Changes sd (d.startVars sd.address sd)

/-- A reply of a primary of the own set is applied as it is, or else it is no primary's any more. -/
theorem applied_primary {applied : ServerDescription} (h : appliedDescription rt d.setName sd = .ok applied) :
    applied = sd ∨ applied.type ≠ .rsPrimary ∧ (truthyStr d.setName <|> sd.setName) ≠ sd.setName := by
  unfold appliedDescription at h
  split at h
  · rename_i mine ours hmine hours
    split at h
    · rename_i hne
      refine .inr ⟨?_, ?_⟩
      · rw [ServerDescription.IsFresh.type (ServerDescription.ofString_ok h)]
        decide
      · intro heq
        rw [hours, (truthyStr_eq_some.1 hmine).1] at heq
        exact hne (Option.some.inj heq).symm
    · cases h; exact .inl rfl
  · cases h; exact .inl rfl

/-- `update` of a topology without a primary by a primary's reply. -/
theorem cascade_noPrimary {address : String} {size : Nat} {v : Vars} (hv : v.type = .replicaSetNoPrimary)
    (ht : sd.type = .rsPrimary) :
    cascade rt address sd size v = updateRsFromPrimary rt sd v >>= fun v' =>
      if v'.type = .replicaSetWithPrimary then updateRsFromPrimary rt sd v' else .ok v' := by
  unfold cascade
  rw [unknownBranch_skip (by rw [hv]; decide), shardedBranch_skip (by rw [hv]; decide)]
  unfold noPrimaryBranch withPrimaryBranch
  simp [hv, ht, mongosOrStandalone]

theorem cascade_withPrimary {address : String} {size : Nat} {v : Vars} (hv : v.type = .replicaSetWithPrimary)
    (ht : sd.type = .rsPrimary) : cascade rt address sd size v = updateRsFromPrimary rt sd v := by
  unfold cascade
  rw [unknownBranch_skip (by rw [hv]; decide), shardedBranch_skip (by rw [hv]; decide),
    noPrimaryBranch_skip (by rw [hv]; decide)]
  show withPrimaryBranch rt address sd v = _
  unfold withPrimaryBranch
  simp [hv, ht, mongosOrStandalone]

/-- What `update` makes of the variables at the end of the cascade. -/
theorem update_eq (hs : d.type ≠ .single) {applied : ServerDescription}
    (ha : appliedDescription rt d.setName sd = .ok applied) :
    d.update rt sd = (cascade rt sd.address applied d.servers.size (d.startVars sd.address applied)).map fun v =>
      .new v.type v.servers v.setName v.maxSetVersion v.maxElectionId
        (advanceWireVersion d.commonWireVersion applied) d.options := by
  unfold TopologyDescription.update
  rw [ha]
  simp only [bind, Except.bind, if_neg hs]
  cases cascade rt sd.address applied d.servers.size (d.startVars sd.address applied) with
  | error e => rfl
  | ok v => rfl

theorem updateOnce_eq {applied : ServerDescription} (ha : appliedDescription rt d.setName sd = .ok applied) :
    d.updateOnce rt sd = (if applied.type = .rsPrimary then
        updateRsFromPrimary rt applied (d.startVars sd.address applied)
      else cascade rt sd.address applied d.servers.size (d.startVars sd.address applied)).map fun v =>
        .new v.type v.servers v.setName v.maxSetVersion v.maxElectionId
          (advanceWireVersion d.commonWireVersion applied) d.options := by
  unfold TopologyDescription.updateOnce
  rw [ha]
  simp only [bind, Except.bind]
  split
  · cases updateRsFromPrimary rt applied (d.startVars sd.address applied) with
    | error e => rfl
    | ok v => rfl
  · cases cascade rt sd.address applied d.servers.size (d.startVars sd.address applied) with
    | error e => rfl
    | ok v => rfl

/-- The second processing, where the first has ended well. -/
theorem second_iff {v : Vars} (hd : d.type = .replicaSetNoPrimary) (ht : sd.type = .rsPrimary)
    (hv : updateRsFromPrimary rt sd (d.startVars sd.address sd) = .ok v) :
    (LooksAgain rt d sd → v.type = .replicaSetWithPrimary ∧
      ∀ v', updateRsFromPrimary rt sd v = .ok v' → v'.servers ≠ v.servers) ∧
    (¬ LooksAgain rt d sd → v.type = .replicaSetWithPrimary → updateRsFromPrimary rt sd v = .ok v) := by
  have hfollows : Accepts rt sd (d.startVars sd.address sd) → Follows rt sd (d.startVars sd.address sd) v := by
    intro ha
    obtain ⟨v', hv', hf⟩ := updateRsFromPrimary_accepts ha
    rw [hv] at hv'
    cases hv'
    exact hf
  constructor
  · rintro ⟨-, ha, hc⟩
    have hf := hfollows ha
    refine ⟨hf.hasPrimary.2 ?_, fun v' hv' => hf.changed ha (OrderedMap.get?_set_self ..) ht ?_ hv'⟩
    · exact hc.imp And.left id
    · exact hc.imp And.right id
  · intro hno hw
    rcases updateRsFromPrimary_again hv with ha | hagain
    · have hf := hfollows ha
      have hother : ¬ OtherLeft sd (d.startVars sd.address sd).servers := fun ho => hno ⟨hd, ha, .inr ho⟩
      refine hf.again ha (fun hlate => hno ⟨hd, ha, .inl ⟨?_, hlate⟩⟩) hother
      exact (hf.hasPrimary.1 hw).resolve_right hother
    · exact hagain

end Both

/-- A reply that is replaced and has no address of a server is that of another set. -/
theorem not_looksAgain_of_unparsed {e : AnyError} (ha : appliedDescription rt d.setName sd = .error e) :
    ¬ LooksAgain rt d sd := by
  rintro ⟨-, hacc, -⟩
  unfold appliedDescription at ha
  split at ha
  · rename_i mine ours hmine hours
    split at ha
    · rename_i hne
      have hsame := hacc.sameSet
      change (truthyStr d.setName <|> sd.setName) = sd.setName at hsame
      rw [hours, (truthyStr_eq_some.1 hmine).1] at hsame
      exact hne (Option.some.inj hsame).symm
    · cases ha
  · cases ha

/-- A primary's reply to a replica set has the outcome of one processing exactly when the second look, if there is one,
finds nothing to change. -/
theorem primary_processed_once_iff (rt : Runtime) (d : TopologyDescription) (sd : ServerDescription)
    (hd : d.type = .replicaSetNoPrimary ∨ d.type = .replicaSetWithPrimary) (ht : sd.type = .rsPrimary) :
    d.update rt sd = d.updateOnce rt sd ↔ ¬ LooksAgain rt d sd := by
  have hsingle : d.type ≠ .single := by
    rintro he
    rw [he] at hd
    rcases hd with hd | hd <;> cases hd
  cases ha : appliedDescription rt d.setName sd with
  | error e =>
    -- only a reply of another set is replaced, and its address may not be one
    refine iff_of_true ?_ ?_
    · unfold TopologyDescription.update TopologyDescription.updateOnce
      rw [ha]
      rfl
    · exact not_looksAgain_of_unparsed ha
  | ok applied =>
    rw [update_eq hsingle ha, updateOnce_eq ha]
    rcases applied_primary ha with rfl | ⟨hno, hname⟩
    · rw [if_pos ht]
      rcases hd with hd | hd
      · rw [cascade_noPrimary (by exact hd) ht]
        cases hv : updateRsFromPrimary rt applied (d.startVars applied.address applied) with
        | error e =>
          refine iff_of_true rfl ?_
          rintro ⟨-, hacc, -⟩
          obtain ⟨v, hv', -⟩ := updateRsFromPrimary_accepts hacc
          rw [hv] at hv'; cases hv'
        | ok v =>
          obtain ⟨hchange, hkeep⟩ := second_iff hd ht hv
          simp only [bind, Except.bind]
          constructor
          · intro heq hl
            obtain ⟨hw, hne⟩ := hchange hl
            rw [if_pos hw] at heq
            cases h2 : updateRsFromPrimary rt applied v with
            | error e => rw [h2] at heq; cases heq
            | ok v' =>
              rw [h2] at heq
              exact hne v' h2 (congrArg TopologyDescription.servers (Except.ok.inj heq))
          · intro hl
            split
            · rename_i hw
              rw [hkeep hl hw]
            · rfl
      · rw [cascade_withPrimary (by exact hd) ht]
        refine iff_of_true rfl ?_
        rintro ⟨hn, -, -⟩
        rw [hd] at hn; cases hn
    · rw [if_neg hno]
      refine iff_of_true rfl ?_
      rintro ⟨-, hacc, -⟩
      exact hname hacc.sameSet

/-- A reply of a member of the two-host replica set, with its set version and election id. -/
def lanOfVersion (name : String) (primary : Bool) (setVersion : Int) (electionId : Option ObjectId) :
    ServerDescription :=
  .new lanRuntime (lanHost name) (some { lanHello primary with setVersion := some setVersion, electionId })

/-- The replica set after a primary of set version 5 without an election id has stepped down. -/
def lanSteppedDown : Except AnyError TopologyDescription :=
  applyUpdates lanRuntime (initialDescription lanRuntime { replicaSet := some "rs" } [lanHost "a", lanHost "b"])
    [lanOfVersion "a" true 5 none, lanOfVersion "a" false 5 none]

/-- The primary that is elected next has an election id, and an older set version. -/
def lanLatePrimary : ServerDescription := lanOfVersion "b" true 3 (some (ObjectId.replicate 1))

/-- The second look takes it for a stale one. -/
theorem first_electionId_refused :
    ∃ d, lanSteppedDown = .ok d ∧ d.type = .replicaSetNoPrimary ∧ lanLatePrimary.type = .rsPrimary ∧
      d.update lanRuntime lanLatePrimary ≠ d.updateOnce lanRuntime lanLatePrimary := by
  have htypes : (lanSteppedDown.map fun d => (d.type, ((d.update lanRuntime lanLatePrimary).map (·.type)).toOption,
      ((d.updateOnce lanRuntime lanLatePrimary).map (·.type)).toOption)).toOption =
        some (.replicaSetNoPrimary, some .replicaSetNoPrimary, some .replicaSetWithPrimary) := by
    decide
  cases hd : lanSteppedDown with
  | error e => rw [hd] at htypes; cases htypes
  | ok d =>
    rw [hd] at htypes
    obtain ⟨htype, hupdate, honce⟩ : d.type = .replicaSetNoPrimary ∧
        ((d.update lanRuntime lanLatePrimary).map (·.type)).toOption = some .replicaSetNoPrimary ∧
        ((d.updateOnce lanRuntime lanLatePrimary).map (·.type)).toOption = some .replicaSetWithPrimary := by
      simpa [Except.map, Except.toOption] using htypes
    refine ⟨d, rfl, htype, rfl, fun heq => ?_⟩
    rw [heq, honce] at hupdate
    cases hupdate

/-- A primary's reply to the replica set with a primary. -/
theorem primary_processed_once_withPrimary :
    ∃ d, applyUpdates lanRuntime (initialDescription lanRuntime {} [lanHost "a"]) [lanReport "a" true] = .ok d ∧
      (d.update lanRuntime (lanReport "b" true) = d.updateOnce lanRuntime (lanReport "b" true) ↔
        ¬ LooksAgain lanRuntime d (lanReport "b" true)) := by
  have htype : ((applyUpdates lanRuntime (initialDescription lanRuntime {} [lanHost "a"]) [lanReport "a" true]).map
      (·.type)).toOption = some .replicaSetWithPrimary := by
    decide
  cases hd : applyUpdates lanRuntime (initialDescription lanRuntime {} [lanHost "a"]) [lanReport "a" true] with
  | error e => rw [hd] at htype; cases htype
  | ok d =>
    rw [hd] at htype
    have hw : d.type = .replicaSetWithPrimary := by simpa [Except.map, Except.toOption] using htype
    exact ⟨d, rfl, primary_processed_once_iff lanRuntime d (lanReport "b" true) (.inr hw) rfl⟩

end MongoDriver.Sdam
