/-
What an update does with a reply, told without the steps of the cascade. The description and the reply decide on a
ruling: the reply is stored, forgotten, dropped, followed as the primary's, or used to find more hosts. The ruling says
which servers stay, whether the reply is admitted, and which addresses are members afterwards.
-/
import MongoDriver.Sdam.SecondLook

namespace MongoDriver.Sdam

/-! ## Rulings -/

/-- What becomes of a reply. -/
inductive Ruling
  /-- it is stored under its address -/
  | store
  /-- its address holds an Unknown description: the reply is of another set, or of a primary that is stale -/
  | reset
  /-- its address is removed -/
  | drop
  /-- it is the primary's: the hosts it lists are the members, and the old primary is reset -/
  | lead
  /-- it was followed, and found stale when it was looked at again -/
  | depose
  /-- it is stored, and the hosts it lists are added -/
  | join
  /-- the hosts it lists are added, and its own address, by which it does not go, is removed -/
  | move
deriving DecidableEq

/-- The reply names another set than the topology's. -/
def namesOther (setName : Option String) (sd : ServerDescription) : Bool :=
  match truthyStr sd.setName, truthyStr setName with
  | some mine, some ours => mine ≠ ours
  | _, _ => false

/-- On a primary's reply. -/
def primaryRuling (d : TopologyDescription) (sd : ServerDescription) : Ruling :=
  if (truthyStr d.setName <|> sd.setName) ≠ sd.setName then .drop
  else if isStalePrimary sd d.maxSetVersion d.maxElectionId then .reset
  else if d.type = .replicaSetNoPrimary ∧ sd.address ∈ sd.allHosts ∧ isStalePrimary sd
      (advanceSetVersion d.maxSetVersion sd.setVersion) (advanceElectionId d.maxElectionId sd) then .depose
  else .lead

/-- On the reply of another member while there is no primary. -/
def memberRuling (d : TopologyDescription) (sd : ServerDescription) : Ruling :=
  if (truthyStr d.setName <|> sd.setName) ≠ sd.setName then .drop
  else if addressMismatch sd then .move
  else .join

/-- On a reply to a topology of which nothing is known. -/
def unknownRuling (d : TopologyDescription) (sd : ServerDescription) : Ruling :=
  match sd.type with
  | .standalone => if d.servers.size ≠ 1 then .drop else .store
  | .rsPrimary => primaryRuling d sd
  | .rsSecondary | .rsOther => memberRuling d sd
  | _ => .store

def shardedRuling (sd : ServerDescription) : Ruling :=
  if mongosOrUnknown sd.type then .store else .drop

def noPrimaryRuling (d : TopologyDescription) (sd : ServerDescription) : Ruling :=
  if mongosOrStandalone sd.type then .drop
  else if sd.type = .rsPrimary then primaryRuling d sd
  else if nonPrimaryRsMember sd.type then memberRuling d sd
  else .store

def withPrimaryRuling (d : TopologyDescription) (sd : ServerDescription) : Ruling :=
  if mongosOrStandalone sd.type then .drop
  else if sd.type = .rsPrimary then primaryRuling d sd
  else if nonPrimaryRsMember sd.type ∧ (d.setName ≠ sd.setName ∨ addressMismatch sd) then .drop
  else .store

def ruling (d : TopologyDescription) (sd : ServerDescription) : Ruling :=
  if namesOther d.setName sd then .reset
  else match d.type with
    | .single | .loadBalanced => .store
    | .unknown => unknownRuling d sd
    | .sharded => shardedRuling sd
    | .replicaSetNoPrimary => noPrimaryRuling d sd
    | .replicaSetWithPrimary => withPrimaryRuling d sd

/-! ## What a ruling means -/

section Meaning

variable (r : Ruling) (m : ServerMap) (sd : ServerDescription)

/-- The reply stands in the map afterwards. -/
def Ruling.Admits : Prop :=
  match r with
  | .store | .join => True
  | .lead => sd.address ∈ sd.allHosts
  | .reset | .drop | .depose | .move => False

/-- The server at another address is left as it is: a primary keeps those it lists, but for the old primary. -/
def Ruling.Stays (a : String) : Prop :=
  r = .lead ∨ r = .depose → a ∈ sd.allHosts ∧ ∀ p, otherPrimary sd.address (m.set sd.address sd) = some p → p.1 ≠ a

/-- The address is a member afterwards. -/
def Ruling.Member (a : String) : Prop :=
  match r with
  | .store | .reset => a = sd.address ∨ m.contains a = true
  | .drop => a ≠ sd.address ∧ m.contains a = true
  | .lead | .depose => a ∈ sd.allHosts
  | .join => a = sd.address ∨ m.contains a = true ∨ a ∈ sd.allHosts
  | .move => a ≠ sd.address ∧ (m.contains a = true ∨ a ∈ sd.allHosts)

/-- The servers `m'` are those `m` under the ruling on a reply: it is there if admitted, what stays is as it was, and
whatever else is there is Unknown. -/
structure Ruled (m' : ServerMap) : Prop where
  own : r.Admits sd → m'.get? sd.address = some sd
  kept : ∀ a s, a ≠ sd.address → m.get? a = some s → r.Stays m sd a → m'.get? a = some s
  only : ∀ a s, m'.get? a = some s → s.IsFresh ∨ (a = sd.address ∧ s = sd ∧ r.Admits sd) ∨
    a ≠ sd.address ∧ m.get? a = some s ∧ r.Stays m sd a
  members : ∀ a, m'.contains a = true ↔ r.Member m sd a

end Meaning

/-! ## Maps under each ruling -/

section Maps

variable {rt : Runtime} {m : ServerMap} {sd : ServerDescription}

theorem stays_of_ne {r : Ruling} (h₁ : r ≠ .lead) (h₂ : r ≠ .depose) (a : String) : r.Stays m sd a := by
  rintro (h | h)
  · exact absurd h h₁
  · exact absurd h h₂

theorem ruled_store (m : ServerMap) (sd : ServerDescription) : Ruled .store m sd (m.set sd.address sd) where
  own _ := OrderedMap.get?_set_self ..
  kept a s hne hs _ := by rw [OrderedMap.get?_set_ne _ _ hne]; exact hs
  only a s hs := by
    rw [OrderedMap.get?_set] at hs
    split at hs
    · rename_i ha
      cases hs
      exact .inr (.inl ⟨ha, rfl, trivial⟩)
    · rename_i ha
      exact .inr (.inr ⟨ha, hs, stays_of_ne (by decide) (by decide) a⟩)
  members a := by
    rw [contains_set]
    simp [Ruling.Member]

theorem ruled_reset {m' : ServerMap} {reset : ServerDescription} (hf : reset.IsFresh)
    (h : ∀ a, m'.get? a = if a = sd.address then some reset else m.get? a) : Ruled .reset m sd m' where
  own h := h.elim
  kept a s hne hs _ := by rw [h, if_neg hne]; exact hs
  only a s hs := by
    rw [h] at hs
    split at hs
    · cases hs
      exact .inl hf
    · rename_i ha
      exact .inr (.inr ⟨ha, hs, stays_of_ne (by decide) (by decide) a⟩)
  members a := by
    simp only [contains_eq_true, h, Ruling.Member]
    by_cases ha : a = sd.address
    · simp [ha]
    · simp [ha]

theorem contains_erase (m : ServerMap) (a b : String) : (m.erase a).contains b = (decide (b ≠ a) && m.contains b) := by
  unfold OrderedMap.contains
  rw [OrderedMap.get?_erase]
  by_cases h : b = a <;> simp [h]

theorem ruled_drop (m : ServerMap) (sd : ServerDescription) : Ruled .drop m sd (m.erase sd.address) where
  own h := h.elim
  kept a s hne hs _ := by rw [OrderedMap.get?_erase, if_neg hne]; exact hs
  only a s hs := by
    obtain ⟨hne, hs⟩ := OrderedMap.get?_of_get?_erase hs
    exact .inr (.inr ⟨hne, hs, stays_of_ne (by decide) (by decide) a⟩)
  members a := by
    rw [contains_erase]
    simp [Ruling.Member]

/-- What discovery leaves of a map in which the reply was stored. -/
theorem discovered_only {m₁ : ServerMap} (h : discoverHosts rt sd.allHosts (m.set sd.address sd) = .ok m₁) {a : String}
    {s : ServerDescription} (hs : m₁.get? a = some s) :
    s.IsFresh ∨ (a = sd.address ∧ s = sd) ∨ a ≠ sd.address ∧ m.get? a = some s := by
  rcases Entries.discoverHosts (Forgets.refl _) (forgets_resets rt (m.set sd.address sd) sd).host h a s hs with hs | hf
  · rw [OrderedMap.get?_set] at hs
    split at hs
    · rename_i ha
      cases hs
      exact .inr (.inl ⟨ha, rfl⟩)
    · rename_i ha
      exact .inr (.inr ⟨ha, hs⟩)
  · exact .inl hf

theorem discovered_members {m₁ : ServerMap} (h : discoverHosts rt sd.allHosts (m.set sd.address sd) = .ok m₁)
    (a : String) : m₁.contains a = true ↔ a = sd.address ∨ m.contains a = true ∨ a ∈ sd.allHosts := by
  obtain ⟨hall, hkept, hnone⟩ := discoverHosts_spec h
  constructor
  · intro hin
    by_contra hnot
    simp only [not_or, Bool.not_eq_true] at hnot
    rw [hnone a (by rw [contains_set, hnot.2.1]; simp [hnot.1]) hnot.2.2] at hin
    cases hin
  · intro hcase
    have hold : (m.set sd.address sd).contains a = true → m₁.contains a = true := by
      intro hin
      obtain ⟨s, hs⟩ := contains_eq_true.1 hin
      exact contains_eq_true.2 ⟨s, hkept a s hs⟩
    rcases hcase with rfl | hin | hlisted
    · exact hold (by simp [contains_set])
    · exact hold (by simp [contains_set, hin])
    · exact hall a hlisted

theorem ruled_join {m₁ : ServerMap} (h : discoverHosts rt sd.allHosts (m.set sd.address sd) = .ok m₁) :
    Ruled .join m sd m₁ where
  own _ := (discoverHosts_spec h).2.1 _ _ (OrderedMap.get?_set_self ..)
  kept a s hne hs _ := (discoverHosts_spec h).2.1 a s (by rw [OrderedMap.get?_set_ne _ _ hne]; exact hs)
  only a s hs := by
    rcases discovered_only h hs with hf | ⟨ha, rfl⟩ | ⟨hne, hs⟩
    · exact .inl hf
    · exact .inr (.inl ⟨ha, rfl, trivial⟩)
    · exact .inr (.inr ⟨hne, hs, stays_of_ne (by decide) (by decide) a⟩)
  members := discovered_members h

theorem ruled_move {m₁ : ServerMap} (h : discoverHosts rt sd.allHosts (m.set sd.address sd) = .ok m₁) :
    Ruled .move m sd (m₁.erase sd.address) where
  own h := h.elim
  kept a s hne hs _ := by
    rw [OrderedMap.get?_erase, if_neg hne]
    exact (discoverHosts_spec h).2.1 a s (by rw [OrderedMap.get?_set_ne _ _ hne]; exact hs)
  only a s hs := by
    obtain ⟨hne, hs⟩ := OrderedMap.get?_of_get?_erase hs
    rcases discovered_only h hs with hf | ⟨ha, -⟩ | ⟨-, hs⟩
    · exact .inl hf
    · exact absurd ha hne
    · exact .inr (.inr ⟨hne, hs, stays_of_ne (by decide) (by decide) a⟩)
  members a := by
    rw [contains_erase, Bool.and_eq_true, discovered_members h, decide_eq_true_eq]
    simp only [Ruling.Member]
    constructor
    · rintro ⟨hne, ha | hcase⟩
      · exact absurd ha hne
      · exact ⟨hne, hcase⟩
    · rintro ⟨hne, hcase⟩
      exact ⟨hne, .inr hcase⟩

/-- The loop for the old primary does not stop at the reply itself. -/
theorem otherPrimary_ne_own {p : String × ServerDescription}
    (h : otherPrimary sd.address (m.set sd.address sd) = some p) : p.1 ≠ sd.address := by
  intro hp
  obtain ⟨⟨hget, -⟩, hne⟩ := otherPrimary_some h
  rw [hp, OrderedMap.get?_set_self] at hget
  cases hget
  exact hne rfl

variable {v v' : Vars}

/-- What an accepted reply leaves at another address. -/
theorem Follows.other (h : Follows rt sd v v') (hv : v.servers = m.set sd.address sd) {a : String}
    (hne : a ≠ sd.address) {s : ServerDescription} (hs : v'.servers.get? a = some s) {r : Ruling} :
    s.IsFresh ∨ m.get? a = some s ∧ r.Stays m sd a := by
  rcases h.only a s hs with hf | ⟨hs, hlisted, hfirst⟩
  · exact .inl hf
  · rw [hv] at hs hfirst
    rw [OrderedMap.get?_set_ne _ _ hne] at hs
    exact .inr ⟨hs, fun _ => ⟨hlisted, hfirst⟩⟩

theorem Follows.stays (h : Follows rt sd v v') (hv : v.servers = m.set sd.address sd) {a : String}
    (hne : a ≠ sd.address) {s : ServerDescription} (hs : m.get? a = some s) {r : Ruling}
    (hr : r = .lead ∨ r = .depose) (hstays : r.Stays m sd a) : v'.servers.get? a = some s := by
  obtain ⟨hlisted, hfirst⟩ := hstays hr
  refine h.kept a s ?_ hlisted (by rw [hv]; exact hfirst)
  rw [hv, OrderedMap.get?_set_ne _ _ hne]
  exact hs

theorem ruled_lead (h : Follows rt sd v v') (hv : v.servers = m.set sd.address sd) :
    Ruled .lead m sd v'.servers where
  own hlisted := by
    refine h.kept _ _ ?_ hlisted fun p hp => otherPrimary_ne_own (by rw [← hv]; exact hp)
    rw [hv, OrderedMap.get?_set_self]
  kept a s hne hs hstays := h.stays hv hne hs (.inl rfl) hstays
  only a s hs := by
    by_cases ha : a = sd.address
    · rcases h.only a s hs with hf | ⟨hs, hlisted, -⟩
      · exact .inl hf
      · rw [hv, ha, OrderedMap.get?_set_self] at hs
        rw [ha] at hlisted
        exact .inr (.inl ⟨ha, (Option.some.inj hs).symm, hlisted⟩)
    · rcases h.other hv ha hs with hf | ⟨hs, hstays⟩
      · exact .inl hf
      · exact .inr (.inr ⟨ha, hs, hstays⟩)
  members := h.members

theorem ruled_depose {reset : ServerDescription} (hf : reset.IsFresh) (h : Follows rt sd v v')
    (hv : v.servers = m.set sd.address sd) (hlisted : sd.address ∈ sd.allHosts) :
    Ruled .depose m sd (v'.servers.set sd.address reset) where
  own h := h.elim
  kept a s hne hs hstays := by
    rw [OrderedMap.get?_set_ne _ _ hne]
    exact h.stays hv hne hs (.inr rfl) hstays
  only a s hs := by
    rw [OrderedMap.get?_set] at hs
    split at hs
    · cases hs
      exact .inl hf
    · rename_i ha
      rcases h.other hv ha hs with hf | ⟨hs, hstays⟩
      · exact .inl hf
      · exact .inr (.inr ⟨ha, hs, hstays⟩)
  members a := by
    have hmembers := h.members a
    rw [contains_set, Bool.or_eq_true, decide_eq_true_eq, hmembers]
    constructor
    · rintro (rfl | hin)
      · exact hlisted
      · exact hin
    · exact .inr

end Maps

/-! ## The helpers under a ruling -/

section Helpers

variable {rt : Runtime} {d : TopologyDescription} {sd : ServerDescription} {v v' : Vars}

/-- The variables that a helper is given: the reply is stored, and the rest is the description's. -/
structure Begins (d : TopologyDescription) (sd : ServerDescription) (v : Vars) : Prop where
  servers : v.servers = d.servers.set sd.address sd
  setName : v.setName = d.setName
  maxSetVersion : v.maxSetVersion = d.maxSetVersion
  maxElectionId : v.maxElectionId = d.maxElectionId

theorem begins_startVars (d : TopologyDescription) (sd : ServerDescription) (type : TopologyType) :
    Begins d sd { d.startVars sd.address sd with type } := ⟨rfl, rfl, rfl, rfl⟩

theorem Begins.set (h : Begins d sd v) (reset : ServerDescription) (a : String) :
    (v.servers.set sd.address reset).get? a = if a = sd.address then some reset else d.servers.get? a := by
  rw [h.servers, OrderedMap.get?_set, OrderedMap.get?_set]
  split <;> rfl

theorem Begins.erase (h : Begins d sd v) : v.servers.erase sd.address = d.servers.erase sd.address := by
  rw [h.servers, OrderedMap.erase_set]

/-- The reply is refused, for good, or accepted. -/
theorem refused_or_accepted (hb : Begins d sd v) (h : updateRsFromPrimary rt sd v = .ok v') :
    (primaryRuling d sd = .drop ∨ primaryRuling d sd = .reset) ∧ Ruled (primaryRuling d sd) d.servers sd v'.servers ∨
    isStalePrimary sd d.maxSetVersion d.maxElectionId = false ∧
      (truthyStr d.setName <|> sd.setName) = sd.setName ∧ Accepts rt sd v ∧ Follows rt sd v v' := by
  by_cases hname : (truthyStr d.setName <|> sd.setName) = sd.setName
  · cases hstale : isStalePrimary sd d.maxSetVersion d.maxElectionId with
    | true =>
      have hr : primaryRuling d sd = .reset := by
        unfold primaryRuling
        simp [hname, hstale]
      refine .inl ⟨.inr hr, ?_⟩
      rw [hr]
      unfold updateRsFromPrimary at h
      simp only [hb.setName, hname, hb.maxSetVersion, hb.maxElectionId, hstale, ne_eq, not_true_eq_false, if_false,
        if_true] at h
      obtain ⟨reset, hreset, h⟩ := Run.bind_ok.1 h
      cases h
      exact ruled_reset (ServerDescription.ofString_ok hreset) (hb.set reset)
    | false =>
      refine .inr ⟨rfl, hname, ?_⟩
      have hok : Accepts rt sd v := by
        refine updateRsFromPrimary_ok_accepts ?_ ?_ h
        · rw [hb.setName]; exact hname
        · rw [hb.maxSetVersion, hb.maxElectionId]; exact hstale
      obtain ⟨v'', hv'', hf⟩ := updateRsFromPrimary_accepts hok
      rw [h] at hv''
      cases hv''
      exact ⟨hok, hf⟩
  · have hr : primaryRuling d sd = .drop := by
      unfold primaryRuling
      rw [if_pos hname]
    refine .inl ⟨.inl hr, ?_⟩
    rw [hr]
    rw [updateRsFromPrimary_foreign (by rw [hb.setName]; exact hname)] at h
    cases h
    rw [hb.erase]
    exact ruled_drop d.servers sd

/-- A primary's reply that is looked at once. -/
theorem primary_ruled (hb : Begins d sd v) (hd : d.type ≠ .replicaSetNoPrimary)
    (h : updateRsFromPrimary rt sd v = .ok v') : Ruled (primaryRuling d sd) d.servers sd v'.servers := by
  rcases refused_or_accepted hb h with ⟨-, hr⟩ | ⟨hfresh, hname, -, hf⟩
  · exact hr
  · have hr : primaryRuling d sd = .lead := by
      unfold primaryRuling
      simp [hname, hfresh, hd]
    rw [hr]
    exact ruled_lead hf hb.servers

/-- The reply of another member while there is no primary. -/
theorem member_ruled (hb : Begins d sd v) (h : updateRsNoPrimaryFromMember rt sd v = .ok v') :
    Ruled (memberRuling d sd) d.servers sd v'.servers := by
  unfold updateRsNoPrimaryFromMember at h
  unfold memberRuling
  simp only [hb.setName] at h
  split
  · rename_i hname
    rw [if_pos hname] at h
    cases h
    rw [hb.erase]
    exact ruled_drop d.servers sd
  · rename_i hname
    rw [if_neg hname] at h
    obtain ⟨m₁, h₁, h⟩ := Run.bind_ok.1 h
    rw [hb.servers] at h₁
    cases h
    cases hmis : addressMismatch sd with
    | true => exact ruled_move h₁
    | false => exact ruled_join h₁

/-- While the type does not say so, there is no primary. -/
def Calm (d : TopologyDescription) : Prop :=
  d.type = .unknown ∨ d.type = .replicaSetNoPrimary → ∀ a s, ¬ PrimaryAt d.servers a s

/-- Without a primary before, the reply leaves no other one to step down. -/
theorem no_other_left (hc : Calm d) (hb : Begins d sd v) (hd : d.type = .replicaSetNoPrimary) :
    ¬ OtherLeft sd v.servers := by
  rintro ⟨a, s, hp, hne, -, -⟩
  rw [hb.servers] at hp
  rcases primaryAt_set_cases hp with ⟨-, rfl⟩ | hp
  · exact hne rfl
  · exact hc (.inr hd) a s hp

/-- Without a primary before, the one that replies leads when it lists itself. -/
theorem leads_iff_listed (hc : Calm d) (hb : Begins d sd v) (hd : d.type = .replicaSetNoPrimary)
    (ht : sd.type = .rsPrimary) : Leads sd v.servers ↔ sd.address ∈ sd.allHosts := by
  constructor
  · rintro ⟨a, s, hp, -, hlisted⟩
    rw [hb.servers] at hp
    rcases primaryAt_set_cases hp with ⟨rfl, -⟩ | hp
    · exact hlisted
    · exact absurd hp (hc (.inr hd) a s)
  · intro hlisted
    exact ⟨sd.address, sd, ⟨by rw [hb.servers, OrderedMap.get?_set_self], ht⟩, rfl, hlisted⟩

/-- A reply that is accepted is neither dropped nor reset. -/
theorem accepted_not_refused (hb : Begins d sd v) (ha : Accepts rt sd v) :
    primaryRuling d sd ≠ .drop ∧ primaryRuling d sd ≠ .reset := by
  have hs := ha.sameSet
  have hf := ha.fresh
  rw [hb.setName] at hs
  rw [hb.maxSetVersion, hb.maxElectionId] at hf
  unfold primaryRuling
  simp only [hs, hf, ne_eq, not_true_eq_false, if_false, Bool.false_eq_true]
  split <;> exact ⟨nofun, nofun⟩

/-- A primary's reply that is looked at twice. -/
theorem primary_ruled_twice (hc : Calm d) (hb : Begins d sd v) (hd : d.type = .replicaSetNoPrimary)
    (ht : sd.type = .rsPrimary) (h : (updateRsFromPrimary rt sd v >>= fun v' =>
      if v'.type = .replicaSetWithPrimary then updateRsFromPrimary rt sd v' else .ok v') = .ok v') :
    Ruled (primaryRuling d sd) d.servers sd v'.servers := by
  obtain ⟨v₁, h₁, h₂⟩ := Run.bind_ok.1 h
  rcases refused_or_accepted hb h₁ with ⟨hruling, hr⟩ | ⟨hfresh, hname, ha, hf⟩
  · -- what is refused is refused again
    have hsame : v' = v₁ := by
      split at h₂
      · rcases updateRsFromPrimary_again h₁ with hacc | hagain
        · have hno := accepted_not_refused hb hacc
          rcases hruling with hruling | hruling
          · exact absurd hruling hno.1
          · exact absurd hruling hno.2
        · rw [hagain] at h₂
          exact (Except.ok.inj h₂).symm
      · exact (Except.ok.inj h₂).symm
    rw [hsame]
    exact hr
  · have hother := no_other_left hc hb hd
    have hleads := leads_iff_listed hc hb hd ht
    have hlate := isStalePrimary_again ha.fresh
    rw [hb.maxSetVersion, hb.maxElectionId] at hlate
    unfold primaryRuling
    simp only [hname, hfresh, hd, ne_eq, not_true_eq_false, if_false, Bool.false_eq_true, true_and]
    split
    · -- it lists itself and is stale now
      rename_i hdeposed
      have hw : v₁.type = .replicaSetWithPrimary := hf.hasPrimary.2 (.inl (hleads.2 hdeposed.1))
      rw [if_pos hw] at h₂
      unfold updateRsFromPrimary at h₂
      simp only [hf.setName, truthyStr_orElse_self, hf.maxSetVersion, hf.maxElectionId, hb.maxSetVersion,
        hb.maxElectionId, hdeposed.2, ne_eq, not_true_eq_false, if_false, if_true] at h₂
      obtain ⟨reset, hreset, h₂⟩ := Run.bind_ok.1 h₂
      cases h₂
      exact ruled_depose (ServerDescription.ofString_ok hreset) hf hb.servers hdeposed.1
    · rename_i hlead
      have hsame : v' = v₁ := by
        split at h₂
        · rename_i hw
          have hlisted := hleads.1 ((hf.hasPrimary.1 hw).resolve_right hother)
          have hagain := hf.again ha (fun hl => hlead ⟨hlisted, hlate.2 (by
            rw [hb.maxSetVersion, hb.maxElectionId] at hl; exact hl)⟩) hother
          rw [hagain] at h₂
          exact (Except.ok.inj h₂).symm
        · exact (Except.ok.inj h₂).symm
      rw [hsame]
      exact ruled_lead hf hb.servers

end Helpers

/-! ## An update is ruled -/

section Update

variable {rt : Runtime} {d d' : TopologyDescription} {sd : ServerDescription}

theorem applied_of_namesOther (h : namesOther d.setName sd = true) :
    appliedDescription rt d.setName sd = ServerDescription.ofString rt sd.address := by
  unfold namesOther at h
  unfold appliedDescription
  cases hmine : truthyStr sd.setName with
  | none => simp [hmine] at h
  | some mine =>
    cases hours : truthyStr d.setName with
    | none => simp [hmine, hours] at h
    | some ours =>
      have hne : mine ≠ ours := by simpa [hmine, hours] using h
      simp only [if_pos hne]

theorem applied_of_not_namesOther (h : namesOther d.setName sd = false) :
    appliedDescription rt d.setName sd = .ok sd := by
  unfold namesOther at h
  unfold appliedDescription
  cases hmine : truthyStr sd.setName with
  | none => rfl
  | some mine =>
    cases hours : truthyStr d.setName with
    | none => rfl
    | some ours =>
      rw [hmine, hours] at h
      have heq : mine = ours := by simpa using h
      simp [heq]

/-- An Unknown description is stored, and only the type may change. -/
theorem cascade_of_unknown {address : String} {applied : ServerDescription} {size : Nat} {v : Vars}
    (ht : applied.type = .unknown) : ∃ type, cascade rt address applied size v = .ok { v with type } := by
  unfold cascade
  cases hv : v.type with
  | single | loadBalanced =>
    rw [unknownBranch_skip (by rw [hv]; decide), shardedBranch_skip (by rw [hv]; decide),
      noPrimaryBranch_skip (by rw [hv]; decide)]
    exact ⟨v.type, withPrimaryBranch_skip (by rw [hv]; decide)⟩
  | unknown =>
    have hun : unknownBranch address applied size v = { v with type := .unknown } := by
      unfold unknownBranch
      simp [hv, ht, topologyTypeForServerType]
    rw [hun, shardedBranch_skip (by simp), noPrimaryBranch_skip (by simp)]
    refine ⟨.unknown, ?_⟩
    show withPrimaryBranch rt address applied { v with type := .unknown } = _
    exact withPrimaryBranch_skip (by simp)
  | sharded =>
    have hsh : shardedBranch address applied v = v := by
      unfold shardedBranch
      simp [ht, mongosOrUnknown]
    rw [unknownBranch_skip (by rw [hv]; decide), hsh, noPrimaryBranch_skip (by rw [hv]; decide)]
    exact ⟨v.type, withPrimaryBranch_skip (by rw [hv]; decide)⟩
  | replicaSetNoPrimary =>
    have hno : noPrimaryBranch rt address applied v = .ok v := by
      unfold noPrimaryBranch
      simp [ht, mongosOrStandalone, nonPrimaryRsMember]
    rw [unknownBranch_skip (by rw [hv]; decide), shardedBranch_skip (by rw [hv]; decide), hno]
    exact ⟨v.type, withPrimaryBranch_skip (by rw [hv]; decide)⟩
  | replicaSetWithPrimary =>
    rw [unknownBranch_skip (by rw [hv]; decide), shardedBranch_skip (by rw [hv]; decide),
      noPrimaryBranch_skip (by rw [hv]; decide)]
    refine ⟨checkHasPrimary v.servers, ?_⟩
    show withPrimaryBranch rt address applied v = _
    unfold withPrimaryBranch
    simp [hv, ht, mongosOrStandalone, nonPrimaryRsMember]

variable {v v' : Vars} {size : Nat}

/-- The cascade from Unknown. -/
theorem cascade_ruled_unknown (hd : d.type = .unknown)
    (h : cascade rt sd.address sd d.servers.size (d.startVars sd.address sd) = .ok v') :
    Ruled (unknownRuling d sd) d.servers sd v'.servers := by
  have hstart : (d.startVars sd.address sd).type = .unknown := hd
  unfold unknownRuling
  cases cascade_fromUnknown hstart h with
  | dropped hst hsize =>
    simp only [hst, if_pos hsize]
    show Ruled _ _ _ ((d.servers.set sd.address sd).erase sd.address)
    rw [OrderedMap.erase_set]
    exact ruled_drop d.servers sd
  | primary hst hupdate =>
    simp only [hst]
    exact primary_ruled (begins_startVars d sd .replicaSetWithPrimary) (by rw [hd]; decide) hupdate
  | member hst hupdate =>
    have hruled := member_ruled (begins_startVars d sd .replicaSetNoPrimary) hupdate
    rcases hst with hst | hst
    · simpa only [hst] using hruled
    · simpa only [hst] using hruled
  | typed halone hp hs ho =>
    have hstore : Ruled .store d.servers sd (d.startVars sd.address sd).servers := ruled_store d.servers sd
    cases hst : sd.type with
    | standalone =>
      simp only [if_neg (fun hsize => halone ⟨hst, hsize⟩)]
      exact hstore
    | rsPrimary => exact absurd hst hp
    | rsSecondary => exact absurd hst hs
    | rsOther => exact absurd hst ho
    | mongos | possiblePrimary | rsArbiter | rsGhost | unknown | loadBalancer => exact hstore

theorem cascade_ruled_sharded (hd : d.type = .sharded)
    (h : cascade rt sd.address sd d.servers.size (d.startVars sd.address sd) = .ok v') :
    Ruled (shardedRuling sd) d.servers sd v'.servers := by
  have hstart : (d.startVars sd.address sd).type = .sharded := hd
  unfold cascade shardedBranch at h
  rw [unknownBranch_skip (by rw [hstart]; decide)] at h
  unfold shardedRuling
  cases hmongos : mongosOrUnknown sd.type with
  | true =>
    rw [hmongos, if_neg (by simp)] at h
    cases other_cascade (by rw [hstart]; decide) (by rw [hstart]; decide) h
    exact ruled_store d.servers sd
  | false =>
    rw [hmongos, if_pos ⟨hstart, by decide⟩] at h
    cases other_cascade (by rw [hstart]; decide) (by rw [hstart]; decide) h
    show Ruled _ _ _ ((d.servers.set sd.address sd).erase sd.address)
    rw [OrderedMap.erase_set]
    exact ruled_drop d.servers sd

/-- The cascade without a primary. -/
theorem cascade_ruled_noPrimary (hc : Calm d) (hd : d.type = .replicaSetNoPrimary)
    (h : cascade rt sd.address sd d.servers.size (d.startVars sd.address sd) = .ok v') :
    Ruled (noPrimaryRuling d sd) d.servers sd v'.servers := by
  have hstart : (d.startVars sd.address sd).type = .replicaSetNoPrimary := hd
  unfold noPrimaryRuling
  by_cases hp : sd.type = .rsPrimary
  · rw [cascade_noPrimary hstart hp] at h
    simp only [hp, mongosOrStandalone, if_true]
    exact primary_ruled_twice hc (begins_startVars d sd d.type) hd hp h
  · unfold cascade at h
    rw [unknownBranch_skip (by rw [hstart]; decide), shardedBranch_skip (by rw [hstart]; decide)] at h
    obtain ⟨v₁, h₁, h₂⟩ := Run.bind_ok.1 h
    unfold noPrimaryBranch at h₁
    rw [if_pos hstart] at h₁
    simp only [hp, if_false] at h₁ ⊢
    cases hforeign : mongosOrStandalone sd.type with
    | true =>
      have hmember : nonPrimaryRsMember sd.type = false := by
        revert hforeign
        cases sd.type <;> decide
      simp only [hforeign, hmember, if_true, Bool.false_eq_true, if_false] at h₁ ⊢
      cases h₁
      rw [withPrimaryBranch_skip (by rw [hstart]; decide)] at h₂
      cases h₂
      show Ruled _ _ _ ((d.servers.set sd.address sd).erase sd.address)
      rw [OrderedMap.erase_set]
      exact ruled_drop d.servers sd
    | false =>
      simp only [hforeign, Bool.false_eq_true, if_false] at h₁ ⊢
      split
      · rename_i hmember
        rw [if_pos hmember] at h₁
        have htype := (updateRsNoPrimaryFromMember_cases h₁).1
        rw [withPrimaryBranch_skip (by rw [htype]; decide)] at h₂
        cases h₂
        exact member_ruled (begins_startVars d sd d.type) h₁
      · rename_i hmember
        rw [if_neg hmember] at h₁
        cases h₁
        rw [withPrimaryBranch_skip (by rw [hstart]; decide)] at h₂
        cases h₂
        exact ruled_store d.servers sd

/-- The cascade with a primary. -/
theorem cascade_ruled_withPrimary (hd : d.type = .replicaSetWithPrimary)
    (h : cascade rt sd.address sd d.servers.size (d.startVars sd.address sd) = .ok v') :
    Ruled (withPrimaryRuling d sd) d.servers sd v'.servers := by
  have hstart : (d.startVars sd.address sd).type = .replicaSetWithPrimary := hd
  have hdrop : Ruled .drop d.servers sd ((d.startVars sd.address sd).servers.erase sd.address) := by
    show Ruled _ _ _ ((d.servers.set sd.address sd).erase sd.address)
    rw [OrderedMap.erase_set]
    exact ruled_drop d.servers sd
  unfold cascade at h
  rw [unknownBranch_skip (by rw [hstart]; decide), shardedBranch_skip (by rw [hstart]; decide),
    noPrimaryBranch_skip (by rw [hstart]; decide)] at h
  change withPrimaryBranch rt sd.address sd (d.startVars sd.address sd) = .ok v' at h
  unfold withPrimaryBranch at h
  rw [if_pos hstart] at h
  unfold withPrimaryRuling
  split
  · rename_i hforeign
    rw [if_pos hforeign] at h
    cases h
    exact hdrop
  · rename_i hforeign
    rw [if_neg hforeign] at h
    split
    · rename_i hp
      rw [if_pos hp] at h
      exact primary_ruled (begins_startVars d sd d.type) (by rw [hd]; decide) h
    · rename_i hp
      rw [if_neg hp] at h
      cases hmember : nonPrimaryRsMember sd.type with
      | false =>
        rw [hmember, if_neg (by decide)] at h
        cases h
        rw [if_neg (fun hcase => Bool.false_ne_true hcase.1)]
        exact ruled_store d.servers sd
      | true =>
        rw [hmember, if_pos rfl] at h
        unfold updateRsWithPrimaryFromMember at h
        have hname : (d.startVars sd.address sd).setName = d.setName := rfl
        cases hn : d.setName with
        | none =>
          simp only [hname, hn] at h
          cases h
        | some name =>
          simp only [hname, hn] at h
          cases h
          simp only [true_and]
          split
          · exact hdrop
          · exact ruled_store d.servers sd

/-- An update does with the servers what the ruling says. -/
theorem update_ruled (hc : Calm d) (h : d.update rt sd = .ok d') :
    Ruled (ruling d sd) d.servers sd d'.servers := by
  obtain ⟨applied, v, ha, hv, rfl⟩ := update_cases h
  show Ruled _ _ _ v.servers
  unfold ruling
  cases hother : namesOther d.setName sd with
  | true =>
    rw [applied_of_namesOther hother] at ha
    have hf : applied.IsFresh := ServerDescription.ofString_ok ha
    have hservers : v.servers = d.servers.set sd.address applied := by
      rcases hv with ⟨-, rfl⟩ | ⟨-, hv⟩
      · rfl
      · obtain ⟨type, hcascade⟩ : ∃ type, cascade rt sd.address applied d.servers.size
            (d.startVars sd.address applied) = .ok { d.startVars sd.address applied with type } :=
          cascade_of_unknown hf.type
        rw [hcascade] at hv
        cases hv
        rfl
    rw [if_pos rfl, hservers]
    exact ruled_reset hf fun a => OrderedMap.get?_set ..
  | false =>
    rw [applied_of_not_namesOther hother] at ha
    cases ha
    rw [if_neg (by decide)]
    rcases hv with ⟨hs, rfl⟩ | ⟨hs, hv⟩
    · rw [hs]
      exact ruled_store d.servers sd
    · cases hd : d.type with
      | single => exact absurd hd hs
      | unknown => exact cascade_ruled_unknown hd hv
      | replicaSetNoPrimary => exact cascade_ruled_noPrimary hc hd hv
      | replicaSetWithPrimary => exact cascade_ruled_withPrimary hd hv
      | sharded => exact cascade_ruled_sharded hd hv
      | loadBalanced =>
        have hstart : (d.startVars sd.address sd).type = .loadBalanced := hd
        unfold cascade at hv
        rw [unknownBranch_skip (by rw [hstart]; decide), shardedBranch_skip (by rw [hstart]; decide)] at hv
        cases other_cascade (by rw [hstart]; decide) (by rw [hstart]; decide) hv
        exact ruled_store d.servers sd

end Update

/-! ## No primary unless the type says so -/

section Quiet

variable {rt : Runtime} {address : String} {sd : ServerDescription} {size : Nat} {v v' : Vars}

/-- While the type does not say so, the variables hold no primary. -/
def CalmVars (v : Vars) : Prop :=
  v.type = .unknown ∨ v.type = .replicaSetNoPrimary → ∀ a s, ¬ PrimaryAt v.servers a s

theorem calmVars_of_check (h : v.type = checkHasPrimary v.servers) : CalmVars v := by
  intro htype
  rcases checkHasPrimary_cases v.servers with ⟨ht, -⟩ | ⟨-, hno⟩
  · rw [h, ht] at htype
    rcases htype with htype | htype <;> cases htype
  · exact hno

theorem unknownBranch_calm (hv : sd.type ≠ .rsPrimary → CalmVars v) :
    (sd.type ≠ .rsPrimary → CalmVars (unknownBranch address sd size v)) ∧
      ((unknownBranch address sd size v).type = .unknown → sd.type ≠ .rsPrimary) := by
  unfold unknownBranch
  split
  · rename_i hu
    split
    · rename_i halone
      refine ⟨fun hp _ a s hprimary => ?_, fun _ => by rw [halone.1]; decide⟩
      exact hv hp (.inl hu) a s ((forgets_erase _ _).primaryAt hprimary)
    · refine ⟨fun hp _ => hv hp (.inl hu), fun htype hp => ?_⟩
      rw [hp] at htype
      cases htype
  · rename_i hu
    exact ⟨hv, fun htype => absurd htype hu⟩

theorem shardedBranch_calm (hv : sd.type ≠ .rsPrimary → CalmVars v) :
    sd.type ≠ .rsPrimary → CalmVars (shardedBranch address sd v) := by
  unfold shardedBranch
  split
  · rename_i hs
    intro _ htype
    rw [hs.1] at htype
    rcases htype with htype | htype <;> cases htype
  · exact hv

theorem shardedBranch_type : (shardedBranch address sd v).type = v.type := by
  unfold shardedBranch
  split <;> rfl

theorem noPrimaryBranch_calm (hv : sd.type ≠ .rsPrimary → CalmVars v) (hu : v.type = .unknown → sd.type ≠ .rsPrimary)
    (h : noPrimaryBranch rt address sd v = .ok v') : CalmVars v' := by
  by_cases hno : v.type = .replicaSetNoPrimary
  · have hforgets : Forgets v.servers v'.servers :=
      Entries.noPrimaryBranch (Forgets.refl v.servers) (fun _ => forgets_resets rt v.servers sd) h
    by_cases hp : sd.type = .rsPrimary
    · unfold noPrimaryBranch at h
      rw [if_pos hno] at h
      simp only [hp, mongosOrStandalone, if_true] at h
      exact calmVars_of_check (updateRsFromPrimary_cases h).2.1
    · exact fun _ a s hprimary => hv hp (.inr hno) a s (hforgets.primaryAt hprimary)
  · rw [noPrimaryBranch_skip hno] at h
    cases h
    intro htype
    exact hv (hu (htype.resolve_right hno)) htype

theorem withPrimaryBranch_calm (hv : CalmVars v) (h : withPrimaryBranch rt address sd v = .ok v') : CalmVars v' := by
  unfold withPrimaryBranch at h
  split at h
  · split at h
    · cases h
      exact calmVars_of_check rfl
    · split at h
      · exact calmVars_of_check (updateRsFromPrimary_cases h).2.1
      · split at h
        · exact calmVars_of_check (updateRsWithPrimaryFromMember_spec h).1
        · cases h
          exact calmVars_of_check rfl
  · cases h
    exact hv

/-- No update leaves a primary in a topology whose type says that there is none. -/
theorem update_calm {d d' : TopologyDescription} (hc : Calm d) (h : d.update rt sd = .ok d') : Calm d' := by
  obtain ⟨applied, v, -, hv, rfl⟩ := update_cases h
  show CalmVars v
  rcases hv with ⟨hs, rfl⟩ | ⟨-, hv⟩
  · intro htype
    change d.type = _ ∨ d.type = _ at htype
    rw [hs] at htype
    rcases htype with htype | htype <;> cases htype
  · have hstart : applied.type ≠ .rsPrimary → CalmVars (d.startVars sd.address applied) := by
      intro hp htype a s hprimary
      exact hc htype a s (primaryAt_set_other hprimary hp)
    obtain ⟨v₁, h₁, h₂⟩ := Run.bind_ok.1 hv
    obtain ⟨hunknown, hkind⟩ := unknownBranch_calm hstart
    exact withPrimaryBranch_calm (noPrimaryBranch_calm (shardedBranch_calm hunknown)
      (by rw [shardedBranch_type]; exact hkind) h₁) h₂

theorem WellShaped.calm {d : TopologyDescription} (h : WellShaped d) : Calm d := by
  obtain ⟨-, hs⟩ := h
  rintro (ht | ht)
  · rw [ht] at hs
    exact Avoids.no_primary hs (by decide)
  · rw [ht] at hs
    exact hs.2

end Quiet

end MongoDriver.Sdam
