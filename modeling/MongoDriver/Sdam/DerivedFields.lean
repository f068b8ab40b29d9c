/-
The fields that the constructor of a topology description derives from its servers. Both are found in one pass that may
end early; what they come to is a fact about the servers and not about the order in which the map lists them. The
timeout loop asks for readable servers where the specification it cites asks for data-bearing ones: these are the same.
-/
import MongoDriver.Sdam.TopologyDescription

namespace MongoDriver.Sdam

/-! ## Compatibility -/

namespace ServerDescription

/-- The wire versions of the server and those of the driver overlap. -/
def Supported (sd : ServerDescription) : Prop :=
  sd.minWireVersion ≤ maxSupportedWireVersion ∧ sd.maxWireVersion ≥ minSupportedWireVersion

/-- The server's wire versions count. -/
def Checked (sd : ServerDescription) : Prop := sd.type ≠ .unknown ∧ sd.type ≠ .loadBalancer

theorem isReadable_eq_isDataBearing (sd : ServerDescription) : sd.isReadable = sd.isDataBearing := by
  unfold isReadable isDataBearing isWritable
  cases sd.type <;> rfl

end ServerDescription

theorem not_checked {sd : ServerDescription} : ¬ sd.Checked ↔ sd.type = .unknown ∨ sd.type = .loadBalancer := by
  unfold ServerDescription.Checked
  rw [not_and_or, not_not, not_not]

/-- A server that is not supported is never forgotten again, whether or not the loop goes on. -/
theorem checkCompatibility_iff : ∀ (servers : List ServerDescription) (acc : Bool × Option String),
    (checkCompatibility servers acc).1 = true ↔ acc.1 = true ∧ ∀ sd ∈ servers, sd.Checked → sd.Supported
  | [], acc => by simp [checkCompatibility]
  | sd :: rest, acc => by
    rw [List.forall_mem_cons]
    unfold checkCompatibility
    by_cases hskip : sd.type = .unknown ∨ sd.type = .loadBalancer
    · rw [if_pos hskip, checkCompatibility_iff rest acc]
      have hnot := not_checked.2 hskip
      simp only [hnot, false_implies, true_and]
    · have hchecked : sd.Checked := not_not.1 (mt not_checked.1 hskip)
      rw [if_neg hskip]
      simp only [ServerDescription.Supported]
      by_cases hold : sd.maxWireVersion < minSupportedWireVersion
      · -- the loop ends here
        rw [if_pos hold]
        constructor
        · intro h
          cases h
        · rintro ⟨-, hsd, -⟩
          have := (hsd hchecked).2
          omega
      · rw [if_neg hold, checkCompatibility_iff rest]
        by_cases hnew : sd.minWireVersion > maxSupportedWireVersion
        · rw [if_pos hnew]
          constructor
          · rintro ⟨h, -⟩
            cases h
          · rintro ⟨-, hsd, -⟩
            have := (hsd hchecked).1
            omega
        · rw [if_neg hnew]
          constructor
          · rintro ⟨hacc, hrest⟩
            exact ⟨hacc, fun _ => ⟨by omega, by omega⟩, hrest⟩
          · rintro ⟨hacc, -, hrest⟩
            exact ⟨hacc, hrest⟩

/-! ## The session timeout -/

/-- Every data-bearing server reports a session timeout. -/
def AllReport (servers : List ServerDescription) : Prop :=
  ∀ sd ∈ servers, sd.isDataBearing = true → sd.logicalSessionTimeoutMinutes.isSome = true

/-- Some data-bearing server reports the timeout `t`. -/
def Reported (servers : List ServerDescription) (t : Int) : Prop :=
  ∃ sd ∈ servers, sd.isDataBearing = true ∧ sd.logicalSessionTimeoutMinutes = some t

/-- The timeout `t` is the least that a data-bearing server reports. -/
def LeastReported (servers : List ServerDescription) (t : Int) : Prop :=
  Reported servers t ∧ ∀ u, Reported servers u → t ≤ u

section Cons

variable {sd : ServerDescription} {rest : List ServerDescription} {t : Int}

theorem allReport_cons : AllReport (sd :: rest) ↔
    (sd.isDataBearing = true → sd.logicalSessionTimeoutMinutes.isSome = true) ∧ AllReport rest := by
  unfold AllReport
  rw [List.forall_mem_cons]

theorem reported_cons : Reported (sd :: rest) t ↔
    (sd.isDataBearing = true ∧ sd.logicalSessionTimeoutMinutes = some t) ∨ Reported rest t := by
  unfold Reported
  rw [List.exists_mem_cons_iff]

/-- A server that bears no data does not take part. -/
theorem reported_skip (h : ¬ sd.isDataBearing = true) : Reported (sd :: rest) t ↔ Reported rest t := by
  rw [reported_cons]
  simp only [h, Bool.false_eq_true, false_and, false_or]

/-- A timeout is added to those of the other servers. -/
theorem reported_add {u : Int} (h : sd.isDataBearing = true) (hu : sd.logicalSessionTimeoutMinutes = some u) :
    Reported (sd :: rest) t ↔ u = t ∨ Reported rest t := by
  rw [reported_cons, hu]
  simp only [h, true_and, Option.some.injEq]

end Cons

/-- The smaller of two numbers stands for both where the least one of several is sought. -/
theorem least_min_iff {P : Int → Prop} {a b t : Int} :
    ((min a b = t ∨ P t) ∧ ∀ u, min a b = u ∨ P u → t ≤ u) ↔
      (a = t ∨ b = t ∨ P t) ∧ ∀ u, a = u ∨ b = u ∨ P u → t ≤ u := by
  constructor
  · rintro ⟨heq, hle⟩
    have hmin := hle _ (.inl rfl)
    constructor
    · rcases heq with rfl | h
      · rcases le_total a b with hab | hab
        · exact .inl (min_eq_left hab).symm
        · exact .inr (.inl (min_eq_right hab).symm)
      · exact .inr (.inr h)
    · rintro u (rfl | rfl | hu)
      · omega
      · omega
      · exact hle u (.inr hu)
  · rintro ⟨heq, hle⟩
    have ha := hle a (.inl rfl)
    have hb := hle b (.inr (.inl rfl))
    constructor
    · rcases heq with rfl | rfl | h
      · exact .inl (min_eq_left hb)
      · exact .inl (min_eq_right ha)
      · exact .inr h
    · rintro u (rfl | hu)
      · omega
      · exact hle u (.inr (.inr hu))

/-- The loop, with the timeout it has found so far: the least of that and of the timeouts still to come, provided that
none is missing. -/
theorem commonSessionTimeout_eq_some : ∀ (servers : List ServerDescription) (acc : Option Int) (t : Int),
    commonSessionTimeout servers acc = some t ↔
      AllReport servers ∧ (acc = some t ∨ Reported servers t) ∧
        ∀ u, acc = some u ∨ Reported servers u → t ≤ u
  | [], acc, t => by
    have hnone : ∀ u, ¬ Reported [] u := by
      rintro u ⟨sd, hsd, -⟩
      cases hsd
    unfold commonSessionTimeout
    constructor
    · rintro rfl
      refine ⟨fun sd hsd => (by cases hsd), .inl rfl, ?_⟩
      rintro u (hu | hu)
      · cases hu
        exact le_rfl
      · exact absurd hu (hnone u)
    · rintro ⟨-, h | h, -⟩
      · exact h
      · exact absurd h (hnone t)
  | sd :: rest, acc, t => by
    unfold commonSessionTimeout
    rw [sd.isReadable_eq_isDataBearing, allReport_cons]
    by_cases hdata : sd.isDataBearing = true
    · rw [if_pos hdata]
      cases htimeout : sd.logicalSessionTimeoutMinutes with
      | none =>
        -- the loop ends here
        constructor
        · intro h
          cases h
        · rintro ⟨⟨h, -⟩, -⟩
          exact absurd (h hdata) (by simp)
      | some u =>
        simp only [reported_add hdata htimeout, Option.isSome_some, implies_true, true_and]
        rw [commonSessionTimeout_eq_some rest]
        simp only [Option.some.injEq]
        cases acc with
        | none => simp only [reduceCtorEq, false_or]
        | some a =>
          simp only [Option.some.injEq]
          rw [least_min_iff]
    · rw [if_neg hdata, commonSessionTimeout_eq_some rest]
      simp only [reported_skip hdata, hdata, Bool.false_eq_true, false_implies, true_and]

/-- The loop finds a timeout unless one is missing or there is no server to ask. -/
theorem commonSessionTimeout_isSome_iff : ∀ (servers : List ServerDescription) (acc : Option Int),
    (commonSessionTimeout servers acc).isSome = true ↔
      AllReport servers ∧ (acc.isSome = true ∨ ∃ sd ∈ servers, sd.isDataBearing = true)
  | [], acc => by simp [commonSessionTimeout, AllReport]
  | sd :: rest, acc => by
    unfold commonSessionTimeout
    rw [sd.isReadable_eq_isDataBearing, allReport_cons, List.exists_mem_cons_iff]
    by_cases hdata : sd.isDataBearing = true
    · rw [if_pos hdata]
      cases htimeout : sd.logicalSessionTimeoutMinutes with
      | none => simp [hdata]
      | some u =>
        simp only [commonSessionTimeout_isSome_iff rest, hdata, Option.isSome_some, implies_true, true_and, true_or,
          or_true, and_true]
    · rw [if_neg hdata, commonSessionTimeout_isSome_iff rest]
      simp only [hdata, Bool.false_eq_true, false_implies, true_and, false_or]

/-! ## The constructor -/

section Constructor

variable {m m' : ServerMap} (type : TopologyType) (setName : Option String) (maxSetVersion : Option Int)
  (maxElectionId : Option ObjectId) (commonWireVersion : Option Int) (options : TopologyDescriptionOptions)

/-- The servers are the same, in whatever order. -/
theorem mem_values_perm (h : m.entries.Perm m'.entries) (sd : ServerDescription) : sd ∈ m.values ↔ sd ∈ m'.values :=
  (h.map Prod.snd).mem_iff

theorem allReport_congr {servers servers' : List ServerDescription} (h : ∀ sd, sd ∈ servers ↔ sd ∈ servers') :
    AllReport servers ↔ AllReport servers' := by
  unfold AllReport
  simp only [h]

theorem reported_congr {servers servers' : List ServerDescription} (h : ∀ sd, sd ∈ servers ↔ sd ∈ servers') (t : Int) :
    Reported servers t ↔ Reported servers' t := by
  unfold Reported
  simp only [h]

theorem checkCompatibility_perm (h : m.entries.Perm m'.entries) :
    (checkCompatibility m.values (true, none)).1 = (checkCompatibility m'.values (true, none)).1 := by
  rw [Bool.eq_iff_iff, checkCompatibility_iff, checkCompatibility_iff]
  simp only [mem_values_perm h]

theorem commonSessionTimeout_perm (h : m.entries.Perm m'.entries) :
    commonSessionTimeout m.values none = commonSessionTimeout m'.values none := by
  refine Option.ext fun t => ?_
  rw [commonSessionTimeout_eq_some, commonSessionTimeout_eq_some, allReport_congr (mem_values_perm h)]
  simp only [reported_congr (mem_values_perm h)]

/-- A topology description is compatible when the wire versions of all servers that count overlap the driver's, and its
session timeout is the least that its data-bearing servers report, none when one of them reports none or there is none.
Listing the servers in another order changes neither. -/
theorem derived_fields (servers : ServerMap) :
    ((TopologyDescription.new type servers setName maxSetVersion maxElectionId commonWireVersion options).compatible
        = true ↔
      ∀ address sd, servers.get? address = some sd → sd.type ≠ .unknown → sd.type ≠ .loadBalancer →
        sd.minWireVersion ≤ maxSupportedWireVersion ∧ sd.maxWireVersion ≥ minSupportedWireVersion) ∧
    (∀ t, (TopologyDescription.new type servers setName maxSetVersion maxElectionId commonWireVersion
          options).logicalSessionTimeoutMinutes = some t ↔
      AllReport servers.values ∧ LeastReported servers.values t) ∧
    ((TopologyDescription.new type servers setName maxSetVersion maxElectionId commonWireVersion
          options).logicalSessionTimeoutMinutes = none ↔
      ¬ ((∃ sd ∈ servers.values, sd.isDataBearing = true) ∧ AllReport servers.values)) ∧
    ∀ servers' : ServerMap, servers.entries.Perm servers'.entries →
      (TopologyDescription.new type servers' setName maxSetVersion maxElectionId commonWireVersion options).compatible =
        (TopologyDescription.new type servers setName maxSetVersion maxElectionId commonWireVersion
          options).compatible ∧
      (TopologyDescription.new type servers' setName maxSetVersion maxElectionId commonWireVersion
          options).logicalSessionTimeoutMinutes =
        (TopologyDescription.new type servers setName maxSetVersion maxElectionId commonWireVersion
          options).logicalSessionTimeoutMinutes := by
  refine ⟨?_, fun t => ?_, ?_, fun servers' h => ⟨?_, ?_⟩⟩
  · refine (checkCompatibility_iff _ _).trans ?_
    simp only [true_and, OrderedMap.mem_values]
    constructor
    · intro h address sd hsd hunknown hbalancer
      exact h sd ⟨address, hsd⟩ ⟨hunknown, hbalancer⟩
    · rintro h sd ⟨address, hsd⟩ ⟨hunknown, hbalancer⟩
      exact h address sd hsd hunknown hbalancer
  · refine (commonSessionTimeout_eq_some _ _ _).trans ?_
    simp only [reduceCtorEq, false_or]
    rfl
  · refine (Option.not_isSome_iff_eq_none.symm.trans (not_congr (commonSessionTimeout_isSome_iff _ _))).trans ?_
    simp only [Option.isSome_none, Bool.false_eq_true, false_or, and_comm]
  · exact (checkCompatibility_perm h).symm
  · exact (commonSessionTimeout_perm h).symm

end Constructor

end MongoDriver.Sdam
