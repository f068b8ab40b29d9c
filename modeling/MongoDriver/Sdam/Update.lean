/-
What one `update` can do to the server map: every entry it leaves was there before, is the applied
description under its own address, or is a fresh Unknown one; and what the primary and member
helpers guarantee about the primaries left. Everything else about descriptions follows from these.
-/
import MongoDriver.Sdam.TopologyDescription

namespace MongoDriver.Sdam

/-! ## Fresh descriptions -/

/-- Nothing is known about the server. -/
def ServerDescription.IsFresh (sd : ServerDescription) : Prop := sd = .fresh sd.address

theorem ServerDescription.IsFresh.type {sd : ServerDescription} (h : sd.IsFresh) : sd.type = .unknown := by
  rw [h]; rfl

theorem ServerDescription.IsFresh.topologyVersion {sd : ServerDescription} (h : sd.IsFresh) :
    sd.topologyVersion = none := by
  rw [h]; rfl

/-! ## What the entries of a map satisfy -/

/-- Every entry of the map satisfies `P`. -/
def Entries (P : String → ServerDescription → Prop) (m : ServerMap) : Prop := ∀ a s, m.get? a = some s → P a s

section Entries

variable {P : String → ServerDescription → Prop} {m : ServerMap}

theorem Entries.erase (h : Entries P m) (a : String) : Entries P (m.erase a) :=
  fun b s hb => h b s (OrderedMap.get?_of_get?_erase hb).2

theorem Entries.set {a : String} {sd : ServerDescription} (h : Entries P m) (hsd : P a sd) :
    Entries P (m.set a sd) := by
  intro b s hb
  rw [OrderedMap.get?_set] at hb
  split at hb
  · rename_i hab
    cases hb
    rw [hab]
    exact hsd
  · exact h b s hb

theorem get?_removeUnlisted (hosts : List String) (m : ServerMap) (a : String) :
    (removeUnlisted hosts m).get? a = if a ∈ hosts then m.get? a else none := by
  unfold removeUnlisted
  rw [OrderedMap.get?_foldl_erase]
  by_cases hh : a ∈ hosts
  · simp [hh]
  · rw [if_neg hh]
    cases hm : m.get? a with
    | none => simp
    | some s =>
      rw [if_pos]
      rw [List.mem_filter]
      exact ⟨OrderedMap.mem_keys.2 ⟨s, hm⟩, by simpa using hh⟩

theorem Entries.removeUnlisted (h : Entries P m) (hosts : List String) : Entries P (removeUnlisted hosts m) := by
  intro a s hs
  rw [get?_removeUnlisted] at hs
  split at hs
  · exact h a s hs
  · cases hs

/-- Whatever the helpers of `update` store satisfies `P`: the description reset under its own address,
the hosts it lists, and a primary that is demoted. -/
structure Resets (rt : Runtime) (P : String → ServerDescription → Prop) (sd : ServerDescription) : Prop where
  own : ∀ r, ServerDescription.ofString rt sd.address = .ok r → P sd.address r
  host : ∀ a ∈ sd.allHosts, ∀ r, ServerDescription.ofString rt a = .ok r → P a r
  primary : ∀ key s, P key s → s.type = .rsPrimary → ∀ r, ServerDescription.ofString rt s.address = .ok r → P key r

variable {rt : Runtime} {sd : ServerDescription} {m' : ServerMap}

theorem Entries.discoverHosts {hosts : List String} (h : Entries P m)
    (hhost : ∀ a ∈ hosts, ∀ r, ServerDescription.ofString rt a = .ok r → P a r)
    (hd : discoverHosts rt hosts m = .ok m') : Entries P m' := by
  refine Run.foldlM_inv_mem ?_ h hd
  intro m₁ a m₂ ha h₁ h₂
  unfold discoverHost at h₂
  split at h₂
  · cases h₂; exact h₁
  · cases hs : ServerDescription.ofString rt a with
    | error e => rw [hs] at h₂; cases h₂
    | ok r => rw [hs] at h₂; cases h₂; exact h₁.set (hhost a ha r hs)

theorem Entries.demoteOtherPrimary {address : String} (h : Entries P m)
    (hprimary : ∀ key s, P key s → s.type = .rsPrimary → ∀ r, ServerDescription.ofString rt s.address = .ok r → P key r)
    (hd : demoteOtherPrimary rt address m = .ok m') : Entries P m' := by
  unfold Sdam.demoteOtherPrimary at hd
  split at hd
  · cases hd; exact h
  · rename_i key server hf
    have hp := h key server (OrderedMap.get?_eq_some.2 (List.mem_of_find?_eq_some hf))
    have ht := List.find?_some hf
    simp only [decide_eq_true_eq] at ht
    cases hs : ServerDescription.ofString rt server.address with
    | error e => rw [hs] at hd; cases hd
    | ok r => rw [hs] at hd; cases hd; exact h.set (hprimary key server hp ht.1 r hs)

end Entries

/-! ## Server maps that only lose or forget servers -/

/-- Every entry of `m'` is an entry of `m` or fresh. -/
def Forgets (m m' : ServerMap) : Prop := ∀ a s, m'.get? a = some s → m.get? a = some s ∨ s.IsFresh

theorem Forgets.refl (m : ServerMap) : Forgets m m := fun _ _ h => .inl h

theorem forgets_erase (m : ServerMap) (a : String) : Forgets m (m.erase a) :=
  Entries.erase (Forgets.refl m) a

/-- Whatever the helpers store is fresh. -/
theorem forgets_resets (rt : Runtime) (m : ServerMap) (sd : ServerDescription) :
    Resets rt (fun a s => m.get? a = some s ∨ s.IsFresh) sd where
  own _ h := .inr (ServerDescription.ofString_ok h)
  host _ _ _ h := .inr (ServerDescription.ofString_ok h)
  primary _ _ _ _ _ h := .inr (ServerDescription.ofString_ok h)

/-! ## Discovering and removing hosts -/

section Hosts

variable {rt : Runtime} {hosts : List String} {m m' : ServerMap}

theorem contains_eq_true {a : String} : m.contains a = true ↔ ∃ s, m.get? a = some s := by
  unfold OrderedMap.contains
  rw [Option.isSome_iff_exists]

theorem contains_set (m : ServerMap) (a b : String) (sd : ServerDescription) :
    (m.set a sd).contains b = (decide (b = a) || m.contains b) := by
  unfold OrderedMap.contains
  rw [OrderedMap.get?_set]
  by_cases h : b = a <;> simp [h]

theorem discoverHost_of_contains {a : String} (h : m.contains a = true) : discoverHost rt m a = .ok m := by
  unfold discoverHost
  rw [if_pos h]

theorem discoverHost_new {a : String} {r : ServerDescription} (h : m.contains a = false)
    (hr : ServerDescription.ofString rt a = .ok r) : discoverHost rt m a = .ok (m.set a r) := by
  unfold discoverHost
  simp [h, hr, bind, Except.bind, pure, Except.pure]

/-- Hosts that are all there need no discovery. -/
theorem discoverHosts_of_contains : ∀ {hosts : List String}, (∀ a ∈ hosts, m.contains a = true) →
    discoverHosts rt hosts m = .ok m
  | [], _ => rfl
  | a :: hosts, h => by
    unfold discoverHosts
    rw [List.foldlM_cons, discoverHost_of_contains (h a (List.mem_cons_self ..))]
    exact discoverHosts_of_contains fun b hb => h b (List.mem_cons_of_mem _ hb)

/-- The hosts that have to be added can be read as addresses. -/
def Readable (rt : Runtime) (hosts : List String) (m : ServerMap) : Prop :=
  ∀ a ∈ hosts, m.contains a = false → ∃ r, ServerDescription.ofString rt a = .ok r

/-- Discovery ends well when what it adds can be read. -/
theorem discoverHosts_ok_iff : ∀ {hosts : List String} {m : ServerMap},
    (∃ m', discoverHosts rt hosts m = .ok m') ↔ Readable rt hosts m
  | [], m => iff_of_true ⟨m, rfl⟩ fun _ h => absurd h List.not_mem_nil
  | a :: hosts, m => by
    have hcons : (∃ m', discoverHosts rt (a :: hosts) m = .ok m') ↔
        ∃ m₁, discoverHost rt m a = .ok m₁ ∧ ∃ m', discoverHosts rt hosts m₁ = .ok m' := by
      unfold discoverHosts
      simp only [Run.foldlM_cons_ok]
      constructor
      · rintro ⟨m', m₁, h₁, h⟩
        exact ⟨m₁, h₁, m', h⟩
      · rintro ⟨m₁, h₁, m', h⟩
        exact ⟨m', m₁, h₁, h⟩
    rw [hcons]
    cases hc : m.contains a with
    | true =>
      rw [discoverHost_of_contains hc]
      constructor
      · rintro ⟨m₁, h₁, h⟩ b hb hnew
        cases h₁
        rcases List.mem_cons.1 hb with rfl | hb
        · rw [hc] at hnew; cases hnew
        · exact discoverHosts_ok_iff.1 h b hb hnew
      · intro h
        exact ⟨m, rfl, discoverHosts_ok_iff.2 fun b hb => h b (List.mem_cons_of_mem _ hb)⟩
    | false =>
      cases hr : ServerDescription.ofString rt a with
      | error e =>
        refine iff_of_false ?_ fun h => ?_
        · rintro ⟨m₁, h₁, -⟩
          unfold discoverHost at h₁
          simp [hc, hr, bind, Except.bind] at h₁
        · obtain ⟨r, hr'⟩ := h a (List.mem_cons_self ..) hc
          rw [hr] at hr'; cases hr'
      | ok r =>
        rw [discoverHost_new hc hr]
        constructor
        · rintro ⟨m₁, h₁, h⟩ b hb hnew
          cases h₁
          rcases List.mem_cons.1 hb with rfl | hb
          · exact ⟨r, hr⟩
          · by_cases hba : b = a
            · exact ⟨r, hba ▸ hr⟩
            · exact discoverHosts_ok_iff.1 h b hb (by rw [contains_set, hnew]; simp [hba])
        · intro h
          refine ⟨_, rfl, discoverHosts_ok_iff.2 fun b hb hnew => h b (List.mem_cons_of_mem _ hb) ?_⟩
          rw [contains_set] at hnew
          exact (Bool.or_eq_false_iff.1 hnew).2

/-- After discovery every host is there, and what was there is as it was. -/
theorem discoverHosts_spec : ∀ {hosts : List String} {m m' : ServerMap}, discoverHosts rt hosts m = .ok m' →
    (∀ a ∈ hosts, m'.contains a = true) ∧ (∀ a s, m.get? a = some s → m'.get? a = some s) ∧
      ∀ a, m.contains a = false → a ∉ hosts → m'.contains a = false
  | [], m, m', h => by
    cases h
    exact ⟨fun _ h => absurd h List.not_mem_nil, fun _ _ h => h, fun _ h _ => h⟩
  | a :: hosts, m, m', h => by
    obtain ⟨m₁, h₁, h⟩ := Run.foldlM_cons_ok.1 h
    obtain ⟨hall, hkept, hnone⟩ := discoverHosts_spec h
    have hstep : m₁.contains a = true ∧ (∀ b s, m.get? b = some s → m₁.get? b = some s) ∧
        ∀ b, m.contains b = false → b ≠ a → m₁.contains b = false := by
      cases hc : m.contains a with
      | true =>
        rw [discoverHost_of_contains hc] at h₁
        cases h₁
        exact ⟨hc, fun _ _ h => h, fun _ h _ => h⟩
      | false =>
        cases hr : ServerDescription.ofString rt a with
        | error e =>
          unfold discoverHost at h₁
          simp [hc, hr, bind, Except.bind] at h₁
        | ok r =>
          rw [discoverHost_new hc hr] at h₁
          cases h₁
          refine ⟨by simp [contains_set], fun b s hb => ?_, fun b hb hne => by simp [contains_set, hb, hne]⟩
          have hne : b ≠ a := by
            rintro rfl
            rw [contains_eq_true.2 ⟨s, hb⟩] at hc; cases hc
          rw [OrderedMap.get?_set_ne _ _ hne]
          exact hb
    refine ⟨fun b hb => ?_, fun b s hb => hkept b s (hstep.2.1 b s hb), fun b hb hnot => ?_⟩
    · rcases List.mem_cons.1 hb with rfl | hb
      · obtain ⟨s, hs⟩ := contains_eq_true.1 hstep.1
        exact contains_eq_true.2 ⟨s, hkept b s hs⟩
      · exact hall b hb
    · obtain ⟨hne, hnot⟩ := not_or.1 (fun h => hnot (List.mem_cons.2 h))
      exact hnone b (hstep.2.2 b hb hne) hnot

theorem removeUnlisted_of_listed (h : ∀ a, m.contains a = true → a ∈ hosts) : removeUnlisted hosts m = m := by
  have hnone : m.keys.filter (· ∉ hosts) = [] := by
    refine List.filter_eq_nil_iff.2 fun a ha => ?_
    simpa using h a (contains_eq_true.2 (OrderedMap.mem_keys.1 ha))
  unfold removeUnlisted
  rw [hnone, List.foldl_nil]

end Hosts

/-! ## Primaries of a map -/

/-- `s` is stored under `a` and is a primary. -/
def PrimaryAt (m : ServerMap) (a : String) (s : ServerDescription) : Prop :=
  m.get? a = some s ∧ s.type = .rsPrimary

/-- Every server that is not Unknown is stored under its own address. -/
def Keyed (m : ServerMap) : Prop := ∀ a s, m.get? a = some s → s.type ≠ .unknown → s.address = a

/-- No two entries are primaries. -/
def OnePrimary (m : ServerMap) : Prop := ∀ a s b t, PrimaryAt m a s → PrimaryAt m b t → a = b

theorem PrimaryAt.not_fresh {m : ServerMap} {a : String} {s : ServerDescription} (h : PrimaryAt m a s) :
    ¬ s.IsFresh := by
  intro hf
  have := h.2
  rw [hf.type] at this; cases this

theorem Forgets.primaryAt {m m' : ServerMap} (h : Forgets m m') {a : String} {s : ServerDescription}
    (hp : PrimaryAt m' a s) : PrimaryAt m a s := by
  rcases h a s hp.1 with h | h
  · exact ⟨h, hp.2⟩
  · exact absurd h hp.not_fresh

theorem Forgets.keyed {m m' : ServerMap} (h : Forgets m m') (hk : Keyed m) : Keyed m' := by
  intro a s hs ht
  rcases h a s hs with h | h
  · exact hk a s h ht
  · exact absurd h.type ht

theorem Forgets.onePrimary {m m' : ServerMap} (h : Forgets m m') (ho : OnePrimary m) : OnePrimary m' :=
  fun a s b t ha hb => ho a s b t (h.primaryAt ha) (h.primaryAt hb)

theorem checkHasPrimary_cases (m : ServerMap) :
    (checkHasPrimary m = .replicaSetWithPrimary ∧ ∃ a s, PrimaryAt m a s) ∨
    (checkHasPrimary m = .replicaSetNoPrimary ∧ ∀ a s, ¬ PrimaryAt m a s) := by
  unfold checkHasPrimary
  split
  · rename_i h
    obtain ⟨s, hs, ht⟩ := List.any_eq_true.1 h
    obtain ⟨a, ha⟩ := OrderedMap.mem_values.1 hs
    exact .inl ⟨rfl, a, s, ha, by simpa using ht⟩
  · rename_i h
    refine .inr ⟨rfl, fun a s hp => h ?_⟩
    exact List.any_eq_true.2 ⟨s, OrderedMap.mem_values.2 ⟨a, hp.1⟩, by simpa using hp.2⟩

theorem forgets_demoteOtherPrimary {rt : Runtime} {address : String} {m m' : ServerMap}
    (h : demoteOtherPrimary rt address m = .ok m') : Forgets m m' :=
  Entries.demoteOtherPrimary (Forgets.refl m) (forgets_resets rt m (.fresh address)).primary h

/-- After the demotion no primary but the new one is left, when there was at most one other. -/
theorem demoteOtherPrimary_primaries {rt : Runtime} {address : String} {m m' : ServerMap}
    (h : demoteOtherPrimary rt address m = .ok m')
    (hone : ∀ a s b t, PrimaryAt m a s → PrimaryAt m b t → s.address ≠ address → t.address ≠ address → a = b) :
    ∀ a s, PrimaryAt m' a s → s.address = address := by
  have hsub := forgets_demoteOtherPrimary h
  unfold demoteOtherPrimary at h
  cases hf : m.entries.find? fun p => p.2.type = .rsPrimary ∧ p.2.address ≠ address with
  | none =>
    rw [hf] at h; cases h
    intro a s hp
    have := List.find?_eq_none.1 hf _ (OrderedMap.get?_eq_some.1 hp.1)
    by_contra hne
    exact this (by simp [hp.2, hne])
  | some p =>
    obtain ⟨key, server⟩ := p
    rw [hf] at h
    have hm : PrimaryAt m key server ∧ server.address ≠ address := by
      have h1 := OrderedMap.get?_eq_some.2 (List.mem_of_find?_eq_some hf)
      have h2 := List.find?_some hf
      simp only [decide_eq_true_eq] at h2
      exact ⟨⟨h1, h2.1⟩, h2.2⟩
    cases hs : ServerDescription.ofString rt server.address with
    | error e => simp only [hs] at h; cases h
    | ok reset =>
      simp only [hs] at h; cases h
      intro a s hp
      by_contra hne
      -- `a` is the demoted key, whose entry is no primary any more
      have ha : a = key := hone a s key server (hsub.primaryAt hp) hm.1 hne hm.2
      subst ha
      have := hp.1
      rw [OrderedMap.get?_set_self] at this
      cases this
      exact hp.not_fresh (ServerDescription.ofString_ok hs)

/-! ## The primary and member helpers -/

/-- Everything `updateRsFromPrimary` can do. -/
theorem updateRsFromPrimary_cases {rt : Runtime} {sd : ServerDescription} {v v' : Vars}
    (h : updateRsFromPrimary rt sd v = .ok v') :
    v'.setName = (truthyStr v.setName <|> sd.setName) ∧ v'.type = checkHasPrimary v'.servers ∧
    ((v'.servers = v.servers.erase sd.address ∧ v'.maxSetVersion = v.maxSetVersion ∧
        v'.maxElectionId = v.maxElectionId) ∨
     (∃ reset, ServerDescription.ofString rt sd.address = .ok reset ∧
        v'.servers = v.servers.set sd.address reset ∧ v'.maxSetVersion = v.maxSetVersion ∧
        v'.maxElectionId = v.maxElectionId) ∨
     (isStalePrimary sd v.maxSetVersion v.maxElectionId = false ∧
        (∃ m₁ m₂, demoteOtherPrimary rt sd.address v.servers = .ok m₁ ∧
          discoverHosts rt sd.allHosts m₁ = .ok m₂ ∧ v'.servers = removeUnlisted sd.allHosts m₂) ∧
        v'.maxSetVersion = advanceSetVersion v.maxSetVersion sd.setVersion ∧
        v'.maxElectionId = advanceElectionId v.maxElectionId sd)) := by
  unfold updateRsFromPrimary at h
  simp only at h
  split at h
  · cases h; exact ⟨rfl, rfl, .inl ⟨rfl, rfl, rfl⟩⟩
  · split at h
    · cases hs : ServerDescription.ofString rt sd.address with
      | error e => rw [hs] at h; cases h
      | ok reset => rw [hs] at h; cases h; exact ⟨rfl, rfl, .inr (.inl ⟨reset, rfl, rfl, rfl, rfl⟩)⟩
    · rename_i hstale
      cases h1 : demoteOtherPrimary rt sd.address v.servers with
      | error e => rw [h1] at h; cases h
      | ok m₁ =>
        rw [h1] at h
        simp only [bind, Except.bind] at h
        cases h2 : discoverHosts rt sd.allHosts m₁ with
        | error e => rw [h2] at h; cases h
        | ok m₂ =>
          rw [h2] at h; cases h
          exact ⟨rfl, rfl, .inr (.inr ⟨by simpa using hstale, ⟨m₁, m₂, rfl, h2, rfl⟩, rfl, rfl⟩)⟩

theorem Entries.updateRsFromPrimary {P : String → ServerDescription → Prop} {rt : Runtime} {sd : ServerDescription}
    {v v' : Vars} (h : Entries P v.servers) (hr : Resets rt P sd) (hu : updateRsFromPrimary rt sd v = .ok v') :
    Entries P v'.servers := by
  obtain ⟨-, -, ⟨hs, -, -⟩ | ⟨reset, hreset, hs, -, -⟩ | ⟨-, ⟨m₁, m₂, h1, h2, hs⟩, -, -⟩⟩ :=
    updateRsFromPrimary_cases hu
  · rw [hs]; exact h.erase _
  · rw [hs]; exact h.set (hr.own reset hreset)
  · rw [hs]
    exact ((h.demoteOtherPrimary hr.primary h1).discoverHosts hr.host h2).removeUnlisted _

theorem updateRsFromPrimary_forgets {rt : Runtime} {sd : ServerDescription} {v v' : Vars}
    (h : updateRsFromPrimary rt sd v = .ok v') : Forgets v.servers v'.servers :=
  Entries.updateRsFromPrimary (Forgets.refl v.servers) (forgets_resets rt v.servers sd) h

/-- A primary left at the reporting address was accepted: it is of the right set and not stale. -/
theorem updateRsFromPrimary_accepted {rt : Runtime} {sd s : ServerDescription} {v v' : Vars}
    (h : updateRsFromPrimary rt sd v = .ok v') (hp : PrimaryAt v'.servers sd.address s) :
    isStalePrimary sd v.maxSetVersion v.maxElectionId = false ∧
      v'.maxSetVersion = advanceSetVersion v.maxSetVersion sd.setVersion ∧
      v'.maxElectionId = advanceElectionId v.maxElectionId sd := by
  obtain ⟨-, -, ⟨hs, -, -⟩ | ⟨reset, hr, hs, -, -⟩ | ⟨hstale, -, h1, h2⟩⟩ := updateRsFromPrimary_cases h
  · have := hp.1
    rw [hs, OrderedMap.get?_erase_self] at this; cases this
  · have := hp.1
    rw [hs, OrderedMap.get?_set_self] at this; cases this
    exact absurd (ServerDescription.ofString_ok hr) hp.not_fresh
  · exact ⟨hstale, h1, h2⟩

/-- After a primary's report at most one primary is left, when there was at most one besides the
reporting address. -/
theorem updateRsFromPrimary_onePrimary {rt : Runtime} {sd : ServerDescription} {v v' : Vars}
    (h : updateRsFromPrimary rt sd v = .ok v') (hk : Keyed v.servers)
    (hone : ∀ a s b t, PrimaryAt v.servers a s → PrimaryAt v.servers b t →
      s.address ≠ sd.address → t.address ≠ sd.address → a = b) : OnePrimary v'.servers := by
  have hf := updateRsFromPrimary_forgets h
  have haddr : ∀ a s, PrimaryAt v'.servers a s → s.address = a := by
    intro a s hp
    exact hk a s (hf.primaryAt hp).1 (by rw [hp.2]; decide)
  -- away from the reporting address the primaries left are among the others
  have hothers : (∀ s, ¬ PrimaryAt v'.servers sd.address s) → OnePrimary v'.servers := by
    intro hno a s b t ha hb
    refine hone a s b t (hf.primaryAt ha) (hf.primaryAt hb) ?_ ?_
    · intro e; rw [haddr a s ha] at e; subst e; exact hno s ha
    · intro e; rw [haddr b t hb] at e; subst e; exact hno t hb
  obtain ⟨-, -, ⟨hs, -, -⟩ | ⟨reset, hr, hs, -, -⟩ | ⟨-, ⟨m₁, m₂, h1, h2, hs⟩, -, -⟩⟩ :=
    updateRsFromPrimary_cases h
  · refine hothers fun s hp => ?_
    have := hp.1; rw [hs, OrderedMap.get?_erase_self] at this; cases this
  · refine hothers fun s hp => ?_
    have := hp.1; rw [hs, OrderedMap.get?_set_self] at this; cases this
    exact hp.not_fresh (ServerDescription.ofString_ok hr)
  · have hp₁ := demoteOtherPrimary_primaries h1 hone
    have hf₂ : Forgets m₁ v'.servers := by
      rw [hs]
      exact (Entries.discoverHosts (Forgets.refl m₁) (forgets_resets rt m₁ sd).host h2).removeUnlisted sd.allHosts
    intro a s b t ha hb
    rw [← haddr a s ha, ← haddr b t hb, hp₁ a s (hf₂.primaryAt ha), hp₁ b t (hf₂.primaryAt hb)]

theorem updateRsNoPrimaryFromMember_cases {rt : Runtime} {sd : ServerDescription} {v v' : Vars}
    (h : updateRsNoPrimaryFromMember rt sd v = .ok v') :
    v'.type = .replicaSetNoPrimary ∧ v'.maxSetVersion = v.maxSetVersion ∧ v'.maxElectionId = v.maxElectionId ∧
      (v'.servers = v.servers.erase sd.address ∨
        ∃ m, discoverHosts rt sd.allHosts v.servers = .ok m ∧ (v'.servers = m.erase sd.address ∨ v'.servers = m)) := by
  unfold updateRsNoPrimaryFromMember at h
  simp only at h
  split at h
  · cases h; exact ⟨rfl, rfl, rfl, .inl rfl⟩
  · cases hd : discoverHosts rt sd.allHosts v.servers with
    | error e => rw [hd] at h; cases h
    | ok m =>
      rw [hd] at h; cases h
      refine ⟨rfl, rfl, rfl, .inr ⟨m, rfl, ?_⟩⟩
      show (if addressMismatch sd then m.erase sd.address else m) = _ ∨ (if addressMismatch sd then _ else m) = m
      split
      · exact .inl rfl
      · exact .inr rfl

theorem Entries.updateRsNoPrimaryFromMember {P : String → ServerDescription → Prop} {rt : Runtime}
    {sd : ServerDescription} {v v' : Vars} (h : Entries P v.servers) (hr : Resets rt P sd)
    (hu : updateRsNoPrimaryFromMember rt sd v = .ok v') : Entries P v'.servers := by
  obtain ⟨-, -, -, hs | ⟨m, hd, hs | hs⟩⟩ := updateRsNoPrimaryFromMember_cases hu
  · rw [hs]; exact h.erase _
  · rw [hs]; exact (h.discoverHosts hr.host hd).erase _
  · rw [hs]; exact h.discoverHosts hr.host hd

theorem updateRsWithPrimaryFromMember_spec {sd : ServerDescription} {v v' : Vars}
    (h : updateRsWithPrimaryFromMember sd v = .ok v') :
    v'.type = checkHasPrimary v'.servers ∧ (v'.servers = v.servers.erase sd.address ∨ v'.servers = v.servers) ∧
      v'.setName = v.setName ∧ v'.maxSetVersion = v.maxSetVersion ∧ v'.maxElectionId = v.maxElectionId := by
  unfold updateRsWithPrimaryFromMember at h
  cases hn : v.setName with
  | none => rw [hn] at h; cases h
  | some name =>
    rw [hn] at h; cases h
    refine ⟨rfl, ?_, hn.symm ▸ rfl, rfl, rfl⟩
    show (if _ then v.servers.erase sd.address else v.servers) = _ ∨ (if _ then _ else v.servers) = v.servers
    split
    · exact .inl rfl
    · exact .inr rfl

theorem Entries.updateRsWithPrimaryFromMember {P : String → ServerDescription → Prop} {sd : ServerDescription}
    {v v' : Vars} (h : Entries P v.servers) (hu : updateRsWithPrimaryFromMember sd v = .ok v') :
    Entries P v'.servers := by
  obtain ⟨-, hs | hs, -, -, -⟩ := updateRsWithPrimaryFromMember_spec hu
  · rw [hs]; exact h.erase _
  · rw [hs]; exact h

/-! ## The branches -/

section Branches

variable {rt : Runtime} {address : String} {sd : ServerDescription} {v v' : Vars}

variable {P : String → ServerDescription → Prop}

theorem Entries.unknownBranch (h : Entries P v.servers) (address : String) (sd : ServerDescription) (size : Nat) :
    Entries P (unknownBranch address sd size v).servers := by
  unfold Sdam.unknownBranch
  split
  · split
    · exact h.erase _
    · exact h
  · exact h

theorem Entries.shardedBranch (h : Entries P v.servers) (address : String) (sd : ServerDescription) :
    Entries P (shardedBranch address sd v).servers := by
  unfold Sdam.shardedBranch
  split
  · exact h.erase _
  · exact h

/-- The helpers are called for replica-set members only. -/
theorem Entries.noPrimaryBranch (h : Entries P v.servers) (hr : sd.type ≠ .unknown → Resets rt P sd)
    (hb : noPrimaryBranch rt address sd v = .ok v') : Entries P v'.servers := by
  unfold Sdam.noPrimaryBranch at hb
  split at hb
  swap
  · cases hb; exact h
  have hfirst : ∀ w : Vars, w = (if mongosOrStandalone sd.type = true then
      { v with servers := v.servers.erase address } else v) → Entries P w.servers := by
    rintro w rfl
    split
    · exact h.erase _
    · exact h
  simp only at hb
  split at hb
  · rename_i ht
    exact (hfirst _ rfl).updateRsFromPrimary (hr (by rw [ht]; decide)) hb
  split at hb
  · rename_i ht
    exact (hfirst _ rfl).updateRsNoPrimaryFromMember (hr (by rintro hu; rw [hu] at ht; cases ht)) hb
  · cases hb; exact hfirst _ rfl

theorem Entries.withPrimaryBranch (h : Entries P v.servers) (hr : sd.type ≠ .unknown → Resets rt P sd)
    (hb : withPrimaryBranch rt address sd v = .ok v') : Entries P v'.servers := by
  unfold Sdam.withPrimaryBranch at hb
  split at hb
  swap
  · cases hb; exact h
  split at hb
  · cases hb; exact h.erase _
  split at hb
  · rename_i ht
    exact h.updateRsFromPrimary (hr (by rw [ht]; decide)) hb
  split at hb
  · exact h.updateRsWithPrimaryFromMember hb
  · cases hb; exact h

theorem Entries.cascade {size : Nat} (h : Entries P v.servers) (hr : sd.type ≠ .unknown → Resets rt P sd)
    (hc : cascade rt address sd size v = .ok v') : Entries P v'.servers := by
  unfold Sdam.cascade at hc
  cases h1 : Sdam.noPrimaryBranch rt address sd
    (Sdam.shardedBranch address sd (Sdam.unknownBranch address sd size v)) with
  | error e => rw [h1] at hc; cases hc
  | ok v₁ =>
    rw [h1] at hc
    exact (((h.unknownBranch address sd size).shardedBranch address sd).noPrimaryBranch hr h1).withPrimaryBranch hr hc

theorem withPrimaryBranch_forgets (h : withPrimaryBranch rt address sd v = .ok v') : Forgets v.servers v'.servers :=
  Entries.withPrimaryBranch (Forgets.refl v.servers) (fun _ => forgets_resets rt v.servers sd) h

theorem cascade_forgets {size : Nat} (h : cascade rt address sd size v = .ok v') : Forgets v.servers v'.servers :=
  Entries.cascade (Forgets.refl v.servers) (fun _ => forgets_resets rt v.servers sd) h

end Branches

/-! ## The description that is applied -/

theorem appliedDescription_cases {rt : Runtime} {setName : Option String} {sd₀ sd : ServerDescription}
    (h : appliedDescription rt setName sd₀ = .ok sd) : sd = sd₀ ∨ sd.IsFresh := by
  unfold appliedDescription at h
  split at h
  · split at h
    · exact .inr (ServerDescription.ofString_ok h)
    · cases h; exact .inl rfl
  · cases h; exact .inl rfl

/-- The steps of a successful `update`. -/
theorem update_cases {rt : Runtime} {d d' : TopologyDescription} {sd₀ : ServerDescription}
    (h : d.update rt sd₀ = .ok d') :
    ∃ sd v, appliedDescription rt d.setName sd₀ = .ok sd ∧
      ((d.type = .single ∧ v = d.startVars sd₀.address sd) ∨
       (d.type ≠ .single ∧ cascade rt sd₀.address sd d.servers.size (d.startVars sd₀.address sd) = .ok v)) ∧
      d' = TopologyDescription.new v.type v.servers v.setName v.maxSetVersion v.maxElectionId
        (advanceWireVersion d.commonWireVersion sd) d.options := by
  unfold TopologyDescription.update at h
  cases ha : appliedDescription rt d.setName sd₀ with
  | error e => rw [ha] at h; cases h
  | ok sd =>
    rw [ha] at h
    simp only [bind, Except.bind] at h
    by_cases hs : d.type = .single
    · rw [if_pos hs] at h; cases h
      exact ⟨sd, _, rfl, .inl ⟨hs, rfl⟩, rfl⟩
    · rw [if_neg hs] at h
      cases hc : cascade rt sd₀.address sd d.servers.size (d.startVars sd₀.address sd) with
      | error e => rw [hc] at h; cases h
      | ok v => rw [hc] at h; cases h; exact ⟨sd, v, rfl, .inr ⟨hs, hc⟩, rfl⟩

/-- Everything an update stores, of which nothing else is known: the description or its reset under the
address it arrived with, and what the helpers store. -/
theorem Entries.update {P : String → ServerDescription → Prop} {rt : Runtime} {d d' : TopologyDescription}
    {sd : ServerDescription} (h : Entries P d.servers) (hsd : P sd.address sd) (hr : Resets rt P sd)
    (hu : d.update rt sd = .ok d') : Entries P d'.servers := by
  obtain ⟨applied, v, ha, hv, rfl⟩ := update_cases hu
  have happlied : P sd.address applied ∧ (applied.type ≠ .unknown → Resets rt P applied) := by
    unfold appliedDescription at ha
    split at ha
    · split at ha
      · exact ⟨hr.own applied ha, fun ht => absurd
          (ServerDescription.IsFresh.type (ServerDescription.ofString_ok ha)) ht⟩
      · cases ha; exact ⟨hsd, fun _ => hr⟩
    · cases ha; exact ⟨hsd, fun _ => hr⟩
  have hstart : Entries P (d.startVars sd.address applied).servers := h.set happlied.1
  rcases hv with ⟨-, rfl⟩ | ⟨-, hc⟩
  · exact hstart
  · exact hstart.cascade happlied.2 hc

/-- An update stores the description, or a fresh one, under the address it arrived with; all other
entries were there or are fresh. -/
theorem update_forgets {rt : Runtime} {d d' : TopologyDescription} {sd₀ : ServerDescription}
    (h : d.update rt sd₀ = .ok d') :
    ∃ sd, (sd = sd₀ ∨ sd.IsFresh) ∧ Forgets (d.servers.set sd₀.address sd) d'.servers := by
  obtain ⟨sd, v, ha, hv, rfl⟩ := update_cases h
  refine ⟨sd, appliedDescription_cases ha, ?_⟩
  rcases hv with ⟨-, rfl⟩ | ⟨-, hc⟩
  · exact Forgets.refl _
  · exact cascade_forgets (v := d.startVars sd₀.address sd) hc

end MongoDriver.Sdam
