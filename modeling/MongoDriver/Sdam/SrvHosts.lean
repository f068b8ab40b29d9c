/-
The servers after an SRV poll: which of the polled hosts are in the description afterwards, how many they are, and when
the update throws. The draws of the shuffle are arbitrary.
-/
import MongoDriver.Sdam.SrvPolling
import MongoDriver.Sdam.Invariant

namespace MongoDriver.Sdam

/-! ## What a shuffle selects -/

section Shuffle

variable {α : Type*} {random : Nat → Nat} {lowerBound limit : Nat} {items sequence : List α}

theorem swap_eq {i j : Nat} (hi : i < items.length) (hj : j < items.length) :
    swap items i j = (items.set i items[j]).set j items[i] := by
  unfold swap
  rw [List.getElem?_eq_getElem hi, List.getElem?_eq_getElem hj]

theorem swap_perm (items : List α) (i j : Nat) : (swap items i j).Perm items := by
  by_cases hi : i < items.length
  · by_cases hj : j < items.length
    · rw [swap_eq hi hj]
      exact List.set_set_perm hi hj
    · unfold swap
      rw [List.getElem?_eq_none (by omega : items.length ≤ j)]
      split
      · rename_i hnone
        cases hnone
      · rfl
  · unfold swap
    rw [List.getElem?_eq_none (by omega : items.length ≤ i)]

theorem getElem?_swap_left {i j : Nat} (hi : i < items.length) (hj : j < items.length) :
    (swap items i j)[i]? = items[j]? := by
  rw [swap_eq hi hj, List.getElem?_set]
  split
  · rename_i heq
    subst heq
    rw [if_pos (by simpa using hi), List.getElem?_eq_getElem hi]
  · rw [List.getElem?_set_self hi, List.getElem?_eq_getElem hj]

theorem getElem?_swap_other {i j k : Nat} (hi : i ≠ k) (hj : j ≠ k) : (swap items i j)[k]? = items[k]? := by
  unfold swap
  split
  · rw [List.getElem?_set_ne hj, List.getElem?_set_ne hi]
  · rfl

theorem shuffleLoop_perm (random : Nat → Nat) (lowerBound : Nat) :
    ∀ (remaining : Nat) (items : List α), (shuffleLoop random lowerBound remaining items).Perm items
  | 0, _ => .refl _
  | remaining + 1, items => by
    unfold shuffleLoop
    split
    · exact (shuffleLoop_perm random lowerBound remaining _).trans (swap_perm items _ _)
    · exact .refl _

/-- The loop does not come back to a position that it has passed. -/
theorem getElem?_shuffleLoop : ∀ {remaining k : Nat} {items : List α}, remaining ≤ k →
    (shuffleLoop random lowerBound remaining items)[k]? = items[k]?
  | 0, _, _, _ => rfl
  | remaining + 1, k, items, hk => by
    unfold shuffleLoop
    split
    · have hdraw : random (remaining + 1) % (remaining + 1) < remaining + 1 := Nat.mod_lt _ (by omega)
      rw [getElem?_shuffleLoop (by omega : remaining ≤ k), getElem?_swap_other (by omega) (by omega)]
    · rfl

/-- A limit that is not too large is the number of the items selected, all different. -/
theorem shuffle_selects (random : Nat → Nat) (hlimit : 0 < limit) (hle : limit ≤ sequence.length) :
    ∃ items, shuffle random sequence limit = .ok items ∧ items.length = limit ∧
      (sequence.Nodup → items.Nodup) ∧ ∀ x ∈ items, x ∈ sequence := by
  unfold shuffle
  rw [if_neg (by omega)]
  refine ⟨_, rfl, ?_⟩
  split
  · rename_i hmod
    have hall : limit = sequence.length := by
      refine Nat.le_antisymm hle ?_
      exact Nat.le_of_dvd hlimit (Nat.dvd_of_mod_eq_zero hmod)
    have hperm := shuffleLoop_perm random 1 sequence.length sequence
    exact ⟨by rw [hperm.length_eq, hall], hperm.nodup_iff.2, fun x hx => hperm.mem_iff.1 hx⟩
  · have hperm := shuffleLoop_perm random (sequence.length - limit) sequence.length sequence
    refine ⟨?_, fun hnodup => (hperm.nodup_iff.2 hnodup).sublist (List.drop_sublist _ _), fun x hx => ?_⟩
    · rw [List.length_drop, hperm.length_eq]
      omega
    · exact hperm.mem_iff.1 (List.mem_of_mem_drop hx)

/-- Every item is selected by some draws. -/
theorem shuffle_may_select (hlimit : 0 < limit) (hle : limit ≤ sequence.length) {x : α} (hx : x ∈ sequence) :
    ∃ random items, shuffle random sequence limit = .ok items ∧ x ∈ items := by
  obtain ⟨i, hi, rfl⟩ := List.getElem_of_mem hx
  -- the first draw is the item, which is then the last
  refine ⟨fun _ => i, ?_⟩
  unfold shuffle
  rw [if_neg (by omega)]
  refine ⟨_, rfl, ?_⟩
  split
  · exact (shuffleLoop_perm _ 1 sequence.length sequence).mem_iff.2 hx
  · obtain ⟨last, hlast⟩ : ∃ last, sequence.length = last + 1 := ⟨sequence.length - 1, by omega⟩
    have hat : (shuffleLoop (fun _ => i) (sequence.length - limit) sequence.length sequence)[last]? =
        some sequence[i] := by
      conv_lhs => rw [hlast]
      unfold shuffleLoop
      rw [if_pos (by omega), getElem?_shuffleLoop (Nat.le_refl _), Nat.mod_eq_of_lt (by omega),
        getElem?_swap_left (by omega) hi, List.getElem?_eq_getElem hi]
    refine List.mem_of_getElem? (i := last - (sequence.length - limit)) ?_
    rw [List.getElem?_drop, Nat.add_sub_cancel' (by omega)]
    exact hat

end Shuffle

/-! ## The polled hosts -/

section Polled

variable {rt : Runtime} {d : TopologyDescription} {srvRecords : List SrvRecord} {polled hosts : List String}
  {srvMaxHosts : Nat} {m m' : ServerMap}

theorem nodup_eraseDups (l : List String) : l.eraseDups.Nodup := by
  induction hn : l.length using Nat.strong_induction_on generalizing l with
  | _ n ih =>
    cases l with
    | nil => exact List.nodup_nil
    | cons a l =>
      rw [List.eraseDups_cons, List.nodup_cons]
      constructor
      · rw [List.mem_eraseDups]
        simp
      · refine ih _ ?_ _ rfl
        have hle := List.length_filter_le (fun b => !b == a) l
        simp only [List.length_cons] at hn
        omega

theorem hostnames_nodup (h : hostnames rt srvRecords = .ok polled) : polled.Nodup := by
  unfold hostnames at h
  obtain ⟨addresses, -, h⟩ := Run.bind_ok.1 h
  cases h
  exact nodup_eraseDups _

/-- The polled hosts that the description does not have. -/
def newHosts (d : TopologyDescription) (polled : List String) : List String :=
  polled.filter fun host => !d.servers.contains host

/-- The hosts of the description that are still polled. -/
def keptHosts (d : TopologyDescription) (polled : List String) : List String :=
  d.servers.keys.filter (· ∈ polled)

theorem mem_newHosts {a : String} : a ∈ newHosts d polled ↔ a ∈ polled ∧ d.servers.contains a = false := by
  simp [newHosts]

theorem mem_keptHosts {a : String} : a ∈ keptHosts d polled ↔ d.servers.contains a = true ∧ a ∈ polled := by
  simp [keptHosts, OrderedMap.mem_keys, contains_eq_true]

theorem nodup_keptHosts (d : TopologyDescription) (polled : List String) : (keptHosts d polled).Nodup :=
  d.servers.nodup.filter _

theorem keptHosts_disjoint {selected : List String} (hnew : ∀ a ∈ selected, a ∈ newHosts d polled)
    (h : selected.Nodup) : (keptHosts d polled ++ selected).Nodup := by
  refine List.nodup_append.2 ⟨nodup_keptHosts d polled, h, ?_⟩
  rintro a hkept b hsel rfl
  have hcontains := (mem_keptHosts.1 hkept).1
  rw [(mem_newHosts.1 (hnew a hsel)).2] at hcontains
  cases hcontains

/-- A polled host is new or kept. -/
theorem length_polled (h : polled.Nodup) :
    polled.length = (keptHosts d polled).length + (newHosts d polled).length := by
  have hperm : (keptHosts d polled ++ newHosts d polled).Perm polled := by
    rw [List.perm_ext_iff_of_nodup (keptHosts_disjoint (fun _ ha => ha) (h.filter _)) h]
    intro a
    rw [List.mem_append, mem_keptHosts, mem_newHosts]
    cases d.servers.contains a <;> simp
  rw [← hperm.length_eq, List.length_append]

/-- The servers that are left when the hosts that are not polled are gone. -/
def leftServers (d : TopologyDescription) (polled : List String) : ServerMap :=
  (d.servers.keys.filter (· ∉ polled)).foldl OrderedMap.erase d.servers

theorem get?_leftServers (d : TopologyDescription) (polled : List String) (a : String) :
    (leftServers d polled).get? a = if a ∈ polled then d.servers.get? a else none := get?_removeUnlisted ..

theorem size_leftServers (d : TopologyDescription) (polled : List String) :
    (leftServers d polled).size = (keptHosts d polled).length := by
  have hperm : (leftServers d polled).keys.Perm (keptHosts d polled) := by
    rw [List.perm_ext_iff_of_nodup (leftServers d polled).nodup_keys (nodup_keptHosts d polled)]
    intro a
    rw [OrderedMap.mem_keys, mem_keptHosts, contains_eq_true, get?_leftServers]
    split
    · rename_i hin
      simp [hin]
    · rename_i hout
      simp [hout]
  rw [← hperm.length_eq, OrderedMap.length_keys]

/-! ## Adding hosts -/

theorem addPolledHosts_ok_iff : ∀ {hosts : List String} {m : ServerMap},
    (∃ m', hosts.foldlM (addPolledHost rt) m = .ok m') ↔ ∀ a ∈ hosts, ∃ r, ServerDescription.ofString rt a = .ok r
  | [], m => iff_of_true ⟨m, rfl⟩ fun _ h => absurd h List.not_mem_nil
  | a :: hosts, m => by
    rw [List.forall_mem_cons]
    constructor
    · rintro ⟨m', h⟩
      obtain ⟨m₁, h₁, h⟩ := Run.foldlM_cons_ok.1 h
      obtain ⟨r, hr, -⟩ := Run.bind_ok.1 h₁
      exact ⟨⟨r, hr⟩, addPolledHosts_ok_iff.1 ⟨m', h⟩⟩
    · rintro ⟨⟨r, hr⟩, hrest⟩
      obtain ⟨m', hm'⟩ := addPolledHosts_ok_iff (m := m.set a r).2 hrest
      refine ⟨m', Run.foldlM_cons_ok.2 ⟨m.set a r, ?_, hm'⟩⟩
      unfold addPolledHost
      rw [hr]
      rfl

/-- The hosts are there, Unknown, and the rest is as it was. -/
theorem addPolledHosts_spec : ∀ {hosts : List String} {m m' : ServerMap},
    hosts.foldlM (addPolledHost rt) m = .ok m' →
    (∀ a ∈ hosts, ∃ r, m'.get? a = some r ∧ r.IsFresh) ∧ ∀ a ∉ hosts, m'.get? a = m.get? a
  | [], m, m', h => by
    cases h
    exact ⟨fun _ ha => absurd ha List.not_mem_nil, fun _ _ => rfl⟩
  | b :: hosts, m, m', h => by
    obtain ⟨m₁, h₁, h⟩ := Run.foldlM_cons_ok.1 h
    obtain ⟨r, hr, h₁⟩ := Run.bind_ok.1 h₁
    cases h₁
    obtain ⟨hall, hrest⟩ := addPolledHosts_spec h
    constructor
    · intro a ha
      by_cases hin : a ∈ hosts
      · exact hall a hin
      · obtain rfl := (List.mem_cons.1 ha).resolve_right hin
        refine ⟨r, ?_, ServerDescription.ofString_ok hr⟩
        rw [hrest a hin, OrderedMap.get?_set_self]
    · intro a ha
      rw [List.mem_cons, not_or] at ha
      rw [hrest a ha.2, OrderedMap.get?_set_ne _ _ ha.1]

/-- As many servers as were left and added. -/
theorem addPolledHosts_size {selected : List String} (hnodup : selected.Nodup)
    (hnew : ∀ a ∈ selected, a ∈ newHosts d polled)
    (h : selected.foldlM (addPolledHost rt) (leftServers d polled) = .ok m') :
    m'.size = (keptHosts d polled).length + selected.length := by
  obtain ⟨hall, hrest⟩ := addPolledHosts_spec h
  have hperm : m'.keys.Perm (keptHosts d polled ++ selected) := by
    rw [List.perm_ext_iff_of_nodup m'.nodup_keys (keptHosts_disjoint hnew hnodup)]
    intro a
    rw [OrderedMap.mem_keys, List.mem_append, mem_keptHosts, contains_eq_true]
    by_cases hin : a ∈ selected
    · obtain ⟨r, hr, -⟩ := hall a hin
      simp [hr, hin]
    · rw [hrest a hin, get?_leftServers]
      by_cases hp : a ∈ polled <;> simp [hp, hin]
  rw [← OrderedMap.length_keys, hperm.length_eq, List.length_append]

/-! ## A poll -/

/-- What a poll of `polled` makes of the servers of a description. -/
structure Polled (d : TopologyDescription) (polled : List String) (srvMaxHosts : Nat) (servers : ServerMap) : Prop where
  subset : ∀ a, servers.contains a = true → a ∈ polled
  kept : ∀ a s, d.servers.get? a = some s → a ∈ polled → servers.get? a = some s
  all : srvMaxHosts = 0 → ∀ a ∈ polled, servers.contains a = true
  count : 0 < srvMaxHosts → (keptHosts d polled).length ≤ srvMaxHosts →
    servers.size = min srvMaxHosts polled.length
  unknown : ∀ a s, d.servers.contains a = false → servers.get? a = some s → s.IsFresh

/-- There is room for a new host. -/
def Room (d : TopologyDescription) (polled : List String) (srvMaxHosts : Nat) : Prop :=
  srvMaxHosts = 0 ∨ (keptHosts d polled).length < srvMaxHosts

/-- What the limit selects from the new hosts: all or none of them, or as many as there is room for. -/
theorem selectPolledHosts_spec (random : Nat → Nat) (hpolled : polled.Nodup)
    (hle : newHosts d polled ≠ [] → srvMaxHosts ≤ polled.length) :
    ∃ selected, selectPolledHosts random (newHosts d polled) (leftServers d polled).size srvMaxHosts = .ok selected ∧
      selected.Nodup ∧ (∀ a ∈ selected, a ∈ newHosts d polled) ∧
      (srvMaxHosts = 0 → selected = newHosts d polled) ∧ (selected ≠ [] → Room d polled srvMaxHosts) ∧
      (0 < srvMaxHosts → (keptHosts d polled).length ≤ srvMaxHosts →
        (keptHosts d polled).length + selected.length = min srvMaxHosts polled.length) := by
  have hlength : polled.length = (keptHosts d polled).length + (newHosts d polled).length := length_polled hpolled
  have hnodup : (newHosts d polled).Nodup := hpolled.filter _
  unfold selectPolledHosts
  rw [size_leftServers]
  split
  · rename_i hpos
    have hle := hle (List.ne_nil_of_length_pos hpos)
    split
    · rename_i hzero
      exact ⟨_, rfl, hnodup, fun _ ha => ha, fun _ => rfl, fun _ => .inl hzero, fun hlimit => by omega⟩
    · rename_i hzero
      split
      · rename_i hroom
        have hfits : srvMaxHosts - (keptHosts d polled).length ≤ (newHosts d polled).length := by omega
        obtain ⟨selected, hselected, hcount, hdistinct, hmem⟩ := shuffle_selects random (by omega) hfits
        exact ⟨selected, hselected, hdistinct hnodup, hmem, fun h => absurd h hzero, fun _ => .inr hroom,
          fun _ _ => by omega⟩
      · refine ⟨[], rfl, List.nodup_nil, fun _ ha => absurd ha List.not_mem_nil, fun h => absurd h hzero,
          fun h => absurd rfl h, fun _ _ => ?_⟩
        simp only [List.length_nil]
        omega
  · rename_i hpos
    have hnil : newHosts d polled = [] := List.eq_nil_of_length_eq_zero (by omega)
    refine ⟨[], rfl, List.nodup_nil, fun _ ha => absurd ha List.not_mem_nil, fun _ => hnil.symm,
      fun h => absurd rfl h, fun _ _ => ?_⟩
    rw [hnil] at hlength
    simp only [List.length_nil] at hlength ⊢
    omega

/-- The description after the selected hosts were added. -/
theorem polled_of_selected {selected : List String} (hnodup : selected.Nodup)
    (hnew : ∀ a ∈ selected, a ∈ newHosts d polled) (hall : srvMaxHosts = 0 → selected = newHosts d polled)
    (hcount : 0 < srvMaxHosts → (keptHosts d polled).length ≤ srvMaxHosts →
      (keptHosts d polled).length + selected.length = min srvMaxHosts polled.length)
    (h : selected.foldlM (addPolledHost rt) (leftServers d polled) = .ok m') : Polled d polled srvMaxHosts m' := by
  obtain ⟨hadded, hrest⟩ := addPolledHosts_spec h
  have hold : ∀ a s, d.servers.get? a = some s → a ∉ selected := by
    intro a s hs hin
    have hcontains := (mem_newHosts.1 (hnew a hin)).2
    rw [contains_eq_true.2 ⟨s, hs⟩] at hcontains
    cases hcontains
  have hkept : ∀ a s, d.servers.get? a = some s → a ∈ polled → m'.get? a = some s := by
    intro a s hs hin
    rw [hrest a (hold a s hs), get?_leftServers, if_pos hin]
    exact hs
  refine ⟨fun a hin => ?_, hkept, fun hzero a hin => ?_, fun hlimit hle => ?_, fun a s hnone hs => ?_⟩
  · by_cases hsel : a ∈ selected
    · exact (mem_newHosts.1 (hnew a hsel)).1
    · obtain ⟨s, hs⟩ := contains_eq_true.1 hin
      rw [hrest a hsel, get?_leftServers] at hs
      by_contra hout
      rw [if_neg hout] at hs
      cases hs
  · cases hcontains : d.servers.contains a with
    | true =>
      obtain ⟨s, hs⟩ := contains_eq_true.1 hcontains
      exact contains_eq_true.2 ⟨s, hkept a s hs hin⟩
    | false =>
      obtain ⟨r, hr, -⟩ := hadded a (by rw [hall hzero]; exact mem_newHosts.2 ⟨hin, hcontains⟩)
      exact contains_eq_true.2 ⟨r, hr⟩
  · rw [addPolledHosts_size hnodup hnew h, hcount hlimit hle]
  · by_cases hsel : a ∈ selected
    · obtain ⟨r, hr, hfresh⟩ := hadded a hsel
      rw [hr] at hs
      cases hs
      exact hfresh
    · rw [hrest a hsel, get?_leftServers] at hs
      split at hs
      · rw [contains_eq_true.2 ⟨s, hs⟩] at hnone
        cases hnone
      · cases hs

/-- The hosts of the description that are not polled any more. -/
def missingHosts (d : TopologyDescription) (polled : List String) : List String := d.servers.keys.filter (· ∉ polled)

theorem missingHosts_eq_nil : missingHosts d polled = [] ↔ ∀ a, d.servers.contains a = true → a ∈ polled := by
  unfold missingHosts
  rw [List.filter_eq_nil_iff]
  simp [OrderedMap.mem_keys, contains_eq_true]

/-- A poll when its records can be read. -/
theorem updateFromSrvPollingEvent_eq (random : Nat → Nat) (d : TopologyDescription) (srvMaxHosts : Nat)
    (h : hostnames rt srvRecords = .ok polled) :
    d.updateFromSrvPollingEvent rt random srvRecords srvMaxHosts =
      if newHosts d polled = [] ∧ missingHosts d polled = [] then .ok none
      else selectPolledHosts random (newHosts d polled) (leftServers d polled).size srvMaxHosts >>= fun selected =>
        selected.foldlM (addPolledHost rt) (leftServers d polled) >>= fun servers =>
          .ok (some (TopologyDescription.new d.type servers d.setName d.maxSetVersion d.maxElectionId
            d.commonWireVersion d.options)) := by
  unfold TopologyDescription.updateFromSrvPollingEvent
  rw [h]
  by_cases hsame : newHosts d polled = [] ∧ missingHosts d polled = []
  · rw [if_pos hsame]
    exact if_pos ⟨by rw [← newHosts, hsame.1]; rfl, by rw [← missingHosts, hsame.2]; rfl⟩
  · rw [if_neg hsame]
    exact if_neg fun hlengths => hsame ⟨List.eq_nil_of_length_eq_zero hlengths.1,
      List.eq_nil_of_length_eq_zero hlengths.2⟩

/-- A poll that finds no new host and misses none changes nothing. -/
theorem polled_of_same (hnew : newHosts d polled = []) (hall : ∀ a, d.servers.contains a = true → a ∈ polled)
    (hpolled : polled.Nodup) : Polled d polled srvMaxHosts d.servers where
  subset := hall
  kept _ _ hs _ := hs
  all _ a hin := by
    cases hcontains : d.servers.contains a with
    | true => rfl
    | false =>
      have hnot : a ∈ newHosts d polled := mem_newHosts.2 ⟨hin, hcontains⟩
      rw [hnew] at hnot
      cases hnot
  count _ hle := by
    have hlength : polled.length = (keptHosts d polled).length + (newHosts d polled).length := length_polled hpolled
    have hkept : keptHosts d polled = d.servers.keys := by
      refine List.filter_eq_self.2 fun a ha => ?_
      simpa using hall a (contains_eq_true.2 (OrderedMap.mem_keys.1 ha))
    rw [hnew, hkept, OrderedMap.length_keys] at hlength
    rw [hkept, OrderedMap.length_keys] at hle
    simp only [List.length_nil] at hlength
    omega
  unknown a s hnone hs := by
    rw [contains_eq_true.2 ⟨s, hs⟩] at hnone
    cases hnone

/-- The servers after a poll that does not throw. -/
theorem updateFromSrvPollingEvent_polled {random : Nat → Nat} {result : Option TopologyDescription}
    (h : hostnames rt srvRecords = .ok polled) (hle : newHosts d polled ≠ [] → srvMaxHosts ≤ polled.length)
    (hu : d.updateFromSrvPollingEvent rt random srvRecords srvMaxHosts = .ok result) :
    Polled d polled srvMaxHosts (result.getD d).servers := by
  have hpolled := hostnames_nodup h
  rw [updateFromSrvPollingEvent_eq random d srvMaxHosts h] at hu
  split at hu
  · rename_i hsame
    cases hu
    exact polled_of_same hsame.1 (missingHosts_eq_nil.1 hsame.2) hpolled
  · obtain ⟨selected, hselected, hnodup, hnew, hall, -, hcount⟩ := selectPolledHosts_spec random hpolled hle
    obtain ⟨chosen, hchosen, hu⟩ := Run.bind_ok.1 hu
    rw [hselected] at hchosen
    cases hchosen
    obtain ⟨servers, hservers, hu⟩ := Run.bind_ok.1 hu
    cases hu
    exact polled_of_selected hnodup hnew hall hcount hservers

/-- The limit is not larger than the number of polled hosts, unless none of these is new. -/
def Limited (d : TopologyDescription) (polled : List String) (srvMaxHosts : Nat) : Prop :=
  (∃ host ∈ polled, d.servers.contains host = false) → srvMaxHosts ≤ polled.length

/-- Where there is room for them, the names of the new hosts can be read. -/
def Legible (rt : Runtime) (d : TopologyDescription) (polled : List String) (srvMaxHosts : Nat) : Prop :=
  Room d polled srvMaxHosts → ∀ host ∈ polled, d.servers.contains host = false →
    ∃ sd, ServerDescription.ofString rt host = .ok sd

theorem Limited.le (h : Limited d polled srvMaxHosts) : newHosts d polled ≠ [] → srvMaxHosts ≤ polled.length := by
  intro hne
  obtain ⟨host, hhost⟩ := List.exists_mem_of_ne_nil _ hne
  exact h ⟨host, mem_newHosts.1 hhost⟩

/-- A poll within the limit does not throw, however the hosts are drawn. -/
theorem updateFromSrvPollingEvent_ok (random : Nat → Nat) (h : hostnames rt srvRecords = .ok polled)
    (hlimited : Limited d polled srvMaxHosts) (hlegible : Legible rt d polled srvMaxHosts) :
    ∃ result, d.updateFromSrvPollingEvent rt random srvRecords srvMaxHosts = .ok result := by
  rw [updateFromSrvPollingEvent_eq random d srvMaxHosts h]
  split
  · exact ⟨none, rfl⟩
  · obtain ⟨selected, hselected, -, hnew, -, hroom, -⟩ := selectPolledHosts_spec random (hostnames_nodup h) hlimited.le
    have hread : ∀ a ∈ selected, ∃ r, ServerDescription.ofString rt a = .ok r := by
      intro a ha
      obtain ⟨hin, hcontains⟩ := mem_newHosts.1 (hnew a ha)
      exact hlegible (hroom (List.ne_nil_of_mem ha)) a hin hcontains
    obtain ⟨servers, hservers⟩ := (addPolledHosts_ok_iff (m := leftServers d polled)).2 hread
    exact ⟨_, Run.bind_ok.2 ⟨selected, hselected, Run.bind_ok.2 ⟨servers, hservers, rfl⟩⟩⟩

/-- A poll that never throws has selected. -/
theorem exists_selected {random : Nat → Nat} {result : Option TopologyDescription}
    (h : hostnames rt srvRecords = .ok polled) (hnew : newHosts d polled ≠ [])
    (hu : d.updateFromSrvPollingEvent rt random srvRecords srvMaxHosts = .ok result) :
    ∃ selected, selectPolledHosts random (newHosts d polled) (leftServers d polled).size srvMaxHosts = .ok selected ∧
      ∀ a ∈ selected, ∃ r, ServerDescription.ofString rt a = .ok r := by
  rw [updateFromSrvPollingEvent_eq random d srvMaxHosts h, if_neg fun hsame => hnew hsame.1] at hu
  obtain ⟨selected, hselected, hu⟩ := Run.bind_ok.1 hu
  obtain ⟨servers, hservers, -⟩ := Run.bind_ok.1 hu
  exact ⟨selected, hselected, addPolledHosts_ok_iff.1 ⟨servers, hservers⟩⟩

/-- A poll beyond the limit throws. -/
theorem limited_of_ok {random : Nat → Nat} {result : Option TopologyDescription}
    (h : hostnames rt srvRecords = .ok polled)
    (hu : d.updateFromSrvPollingEvent rt random srvRecords srvMaxHosts = .ok result) :
    Limited d polled srvMaxHosts := by
  rintro ⟨host, hhost⟩
  have hin : host ∈ newHosts d polled := mem_newHosts.2 hhost
  obtain ⟨selected, hselected, -⟩ := exists_selected h (List.ne_nil_of_mem hin) hu
  have hlength : polled.length = (keptHosts d polled).length + (newHosts d polled).length :=
    length_polled (hostnames_nodup h)
  unfold selectPolledHosts at hselected
  rw [if_pos (List.length_pos_of_mem hin), size_leftServers] at hselected
  split at hselected
  · omega
  · split at hselected
    · unfold shuffle at hselected
      split at hselected
      · cases hselected
      · omega
    · omega

/-- Some draw selects any new host for which there is room. -/
theorem legible_of_ok (h : hostnames rt srvRecords = .ok polled)
    (hu : ∀ random, ∃ result, d.updateFromSrvPollingEvent rt random srvRecords srvMaxHosts = .ok result) :
    Legible rt d polled srvMaxHosts := by
  intro hroom host hhost hcontains
  have hin : host ∈ newHosts d polled := mem_newHosts.2 ⟨hhost, hcontains⟩
  have hpos : (newHosts d polled).length > 0 := List.length_pos_of_mem hin
  have hlimited : Limited d polled srvMaxHosts := by
    obtain ⟨result, hresult⟩ := hu id
    exact limited_of_ok h hresult
  have hlength : polled.length = (keptHosts d polled).length + (newHosts d polled).length :=
    length_polled (hostnames_nodup h)
  have hle := hlimited ⟨host, hhost, hcontains⟩
  obtain ⟨random, items, hselects, hmem⟩ : ∃ random items,
      selectPolledHosts random (newHosts d polled) (leftServers d polled).size srvMaxHosts = .ok items ∧
        host ∈ items := by
    simp only [selectPolledHosts, if_pos hpos, size_leftServers]
    rcases Nat.eq_zero_or_pos srvMaxHosts with hzero | hlimit
    · exact ⟨id, _, if_pos hzero, hin⟩
    · have hfree : (keptHosts d polled).length < srvMaxHosts := hroom.resolve_left (by omega)
      have hsome : ¬ srvMaxHosts = 0 := by omega
      simp only [if_neg hsome, if_pos hfree]
      exact shuffle_may_select (by omega) (by omega) hin
  obtain ⟨result, hresult⟩ := hu random
  obtain ⟨selected, hselected, hread⟩ := exists_selected h (List.ne_nil_of_mem hin) hresult
  rw [hselects] at hselected
  cases hselected
  exact hread host hmem

/-- What a poll leaves was there, or is Unknown. -/
theorem Polled.forgets (h : Polled d polled srvMaxHosts m) : Forgets d.servers m := by
  intro a s hs
  cases hcontains : d.servers.contains a with
  | false => exact .inr (h.unknown a s hcontains hs)
  | true =>
    obtain ⟨s₀, hs₀⟩ := contains_eq_true.1 hcontains
    have hkept := h.kept a s₀ hs₀ (h.subset a (contains_eq_true.2 ⟨s, hs⟩))
    rw [hs] at hkept
    exact .inl (hkept ▸ hs₀)

/-- The servers after a poll. -/
theorem poll_polled {random : Nat → Nat} {result : Option TopologyDescription}
    (h : d.updateFromSrvPollingEvent rt random srvRecords srvMaxHosts = .ok result) :
    ∃ polled, hostnames rt srvRecords = .ok polled ∧ Polled d polled srvMaxHosts (result.getD d).servers := by
  obtain ⟨polled, hpolled, -⟩ := Run.bind_ok.1 h
  exact ⟨polled, hpolled, updateFromSrvPollingEvent_polled hpolled (limited_of_ok hpolled h).le h⟩

/-- A poll touches nothing but the servers. -/
theorem poll_fields {random : Nat → Nat} {result : Option TopologyDescription}
    (h : d.updateFromSrvPollingEvent rt random srvRecords srvMaxHosts = .ok result) :
    (result.getD d).type = d.type ∧ ((result.getD d).commonWireVersion = d.commonWireVersion ∨
      (result.getD d).commonWireVersion = truthyNum d.commonWireVersion) := by
  unfold TopologyDescription.updateFromSrvPollingEvent at h
  obtain ⟨incoming, -, h⟩ := Run.bind_ok.1 h
  simp only at h
  split at h
  · cases h
    exact ⟨rfl, .inl rfl⟩
  · obtain ⟨selected, -, h⟩ := Run.bind_ok.1 h
    obtain ⟨servers, -, h⟩ := Run.bind_ok.1 h
    cases h
    exact ⟨rfl, .inr rfl⟩

end Polled

/-- However the hosts are drawn, an SRV poll returns servers among the polled hosts: every current one that is still
polled, unchanged, and new ones that are Unknown, all of them without a limit and as many as the limit allows with
one. It does so exactly when the polled records can be read, the limit does not exceed the number of polled hosts (or
none of these is new), and the new hosts for which there is room can be read. -/
theorem srv_poll_iff (rt : Runtime) (d : TopologyDescription) (srvRecords : List SrvRecord) (srvMaxHosts : Nat) :
    (∀ random, ∃ polled result, hostnames rt srvRecords = .ok polled ∧
        d.updateFromSrvPollingEvent rt random srvRecords srvMaxHosts = .ok result ∧
        Polled d polled srvMaxHosts (result.getD d).servers) ↔
      ∃ polled, hostnames rt srvRecords = .ok polled ∧ Limited d polled srvMaxHosts ∧
        Legible rt d polled srvMaxHosts := by
  constructor
  · intro hall
    obtain ⟨polled, result, hpolled, hresult, -⟩ := hall id
    refine ⟨polled, hpolled, limited_of_ok hpolled hresult, legible_of_ok hpolled fun random => ?_⟩
    obtain ⟨-, result, -, hresult, -⟩ := hall random
    exact ⟨result, hresult⟩
  · rintro ⟨polled, hpolled, hlimited, hlegible⟩ random
    obtain ⟨result, hresult⟩ := updateFromSrvPollingEvent_ok random hpolled hlimited hlegible
    exact ⟨polled, result, hpolled, hresult, updateFromSrvPollingEvent_polled hpolled hlimited.le hresult⟩

/-- The reply of a mongos. -/
def lanMongos (name : String) : ServerDescription :=
  .new lanRuntime (lanHost name) (some { msg := some "isdbgrid", minWireVersion := some 6, maxWireVersion := some 13 })

/-- A sharded cluster known by one of its two mongos. -/
def lanSharded : TopologyDescription :=
  .new .sharded (OrderedMap.empty.set "a:27017" (lanMongos "a")) none none none (some 13) {}

def lanRecords : List SrvRecord := [{ name := "a", port := 27017 }, { name := "b", port := 27017 }]

/-- The second mongos appears while the limit is three: the poll throws. -/
theorem srv_poll_beyond_limit :
    lanSharded.type = .sharded ∧ hostnames lanRuntime lanRecords = .ok ["a:27017", "b:27017"] ∧
      ∀ random, lanSharded.updateFromSrvPollingEvent lanRuntime random lanRecords 3 = .error limitTooLarge := by
  have hnames : hostnames lanRuntime lanRecords = .ok ["a:27017", "b:27017"] := by decide +kernel
  refine ⟨rfl, hnames, fun random => ?_⟩
  rw [updateFromSrvPollingEvent_eq random lanSharded 3 hnames, if_neg (by decide)]
  rfl

end MongoDriver.Sdam
