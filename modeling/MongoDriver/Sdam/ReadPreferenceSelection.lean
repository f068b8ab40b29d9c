/-
Selection by read preference (`src/sdam/server_selection.ts`): the reducers for staleness, tags and latency, and
`readPreferenceServerSelector` that composes them. A rule over sets of servers says which ones a read preference stands
for; in a topology that replies and polls have led to, the selector returns those, in whatever order the servers come.
Times are numbers of the language, whose sums are rounded.
-/
import Mathlib.Data.List.Perm.Subperm
import Mathlib.Tactic.Linarith
import MongoDriver.Base.Double
import MongoDriver.ReadPreference
import MongoDriver.Sdam.ChangeEvents

namespace MongoDriver.Sdam

/-! ## Measured servers -/

/-- The value −1 stands for a time that was not measured. -/
def unmeasured : Js.Double := ⟨(-1 : ℤ), Js.isDouble_int (by decide)⟩

/-- A server description with the times that selection reads. -/
structure MeasuredServer extends ServerDescription where
  roundTripTime : Js.Double := unmeasured
  lastUpdateTime : Js.Double := .ofNat 0
  lastWriteDate : Js.Double := .ofNat 0
deriving DecidableEq

/-- A topology description with the times of its servers. -/
structure MeasuredTopology where
  description : TopologyDescription
  servers : List MeasuredServer
  agrees : servers.map MeasuredServer.toServerDescription = description.servers.values

/-! ## The reducers -/

def idleWritePeriod : Nat := 10000
def smallestMaxStalenessSeconds : Nat := 90

def primaryFilter (server : MeasuredServer) : Bool := server.type = .rsPrimary
def secondaryFilter (server : MeasuredServer) : Bool := server.type = .rsSecondary
def nearestFilter (server : MeasuredServer) : Bool := server.type = .rsSecondary || server.type = .rsPrimary
def knownFilter (server : MeasuredServer) : Bool := server.type ≠ .unknown
def loadBalancerFilter (server : MeasuredServer) : Bool := server.type = .loadBalancer

/-- A number of milliseconds printed in seconds. -/
def secondsText (ms : Nat) : String :=
  let digits := (Nat.toDigits 10 (1000 + ms % 1000)).drop 1
  let fraction := (digits.reverse.dropWhile (·.toNat = 48)).reverse
  if fraction.isEmpty then toString (ms / 1000) else toString (ms / 1000) ++ "." ++ String.ofList fraction

def staleAtLeast (seconds : String) : AnyError :=
  invalidArgument ("Option \"maxStalenessSeconds\" must be at least " ++ seconds ++ " seconds")

/-- `(heartbeatFrequencyMS + IDLE_WRITE_PERIOD) / 1000`. -/
def maxStalenessVariance (options : TopologyDescriptionOptions) : Js.Double :=
  (Js.Double.add (.ofNat options.heartbeatFrequencyMS) (.ofNat idleWritePeriod)).div (.ofNat 1000)

/-- The staleness of a server against the primary, in seconds. -/
def stalenessToPrimary (heartbeatFrequencyMS : Nat) (primary server : MeasuredServer) : Js.Double :=
  let stalenessMS := ((server.lastUpdateTime.sub server.lastWriteDate).sub
    (primary.lastUpdateTime.sub primary.lastWriteDate)).add (.ofNat heartbeatFrequencyMS)
  stalenessMS.div (.ofNat 1000)

/-- The staleness of a server against the one written last, in seconds. -/
def stalenessToFreshest (heartbeatFrequencyMS : Nat) (sMax server : MeasuredServer) : Js.Double :=
  let stalenessMS := (sMax.lastWriteDate.sub server.lastWriteDate).add (.ofNat heartbeatFrequencyMS)
  stalenessMS.div (.ofNat 1000)

/-- What reading a field of a missing primary throws. -/
def missingPrimary : AnyError :=
  { cls := .typeError, message := "Cannot read properties of undefined (reading 'lastUpdateTime')" }

/-- `maxStalenessReducer`. The callback of the source reads the primary for each server. -/
def maxStalenessReducer (readPreference : ReadPreference) (t : MeasuredTopology) (servers : List MeasuredServer) :
    Except AnyError (List MeasuredServer) :=
  match readPreference.maxStalenessSeconds with
  | none => .ok servers
  | some maxStaleness =>
    if maxStaleness < 0 then .ok servers
    else if maxStaleness < (maxStalenessVariance t.description.options : ℚ) then
      .error (staleAtLeast (secondsText (t.description.options.heartbeatFrequencyMS + idleWritePeriod)))
    else if maxStaleness < smallestMaxStalenessSeconds then
      .error (staleAtLeast (toString smallestMaxStalenessSeconds))
    else match t.description.type, servers with
      | .replicaSetWithPrimary, first :: rest =>
        match (t.servers.filter primaryFilter).head? with
        | none => .error missingPrimary
        | some primary => .ok ((first :: rest).filter fun server =>
            (stalenessToPrimary t.description.options.heartbeatFrequencyMS primary server : ℚ) ≤ maxStaleness)
      | .replicaSetNoPrimary, first :: rest =>
        let sMax := rest.foldl (fun max s => if s.lastWriteDate > max.lastWriteDate then s else max) first
        .ok ((first :: rest).filter fun server =>
          (stalenessToFreshest t.description.options.heartbeatFrequencyMS sMax server : ℚ) ≤ maxStaleness)
      | _, servers => .ok servers

def tagSetMatch (tagSet serverTags : TagSet) : Bool :=
  tagSet.all fun tag => serverTags.lookup tag.1 = tagSet.lookup tag.1

/-- The loop of `tagSetReducer`. -/
def firstMatching (servers : List MeasuredServer) : List TagSet → List MeasuredServer
  | [] => []
  | tagSet :: rest =>
    let serversMatchingTagset := servers.filter fun server => tagSetMatch tagSet server.tags
    if serversMatchingTagset.length ≠ 0 then serversMatchingTagset else firstMatching servers rest

def tagSetReducer (readPreference : ReadPreference) (servers : List MeasuredServer) : List MeasuredServer :=
  match readPreference.tags with
  | none | some [] => servers
  | some tags => firstMatching servers tags

/-- The value −1 also stands for no server so far. -/
def lowerRoundTripTime (min : Js.Double) (server : MeasuredServer) : Js.Double :=
  if min = unmeasured then server.roundTripTime else Min.min server.roundTripTime min

def lowestRoundTripTime (servers : List MeasuredServer) : Js.Double := servers.foldl lowerRoundTripTime unmeasured

def latencyWindowReducer (t : MeasuredTopology) (servers : List MeasuredServer) : List MeasuredServer :=
  let low := lowestRoundTripTime servers
  let high := low.add (.ofNat t.description.options.localThresholdMS)
  servers.filter fun server => server.roundTripTime ≤ high ∧ server.roundTripTime ≥ low

/-! ## The selector -/

def minimumWireVersion (required found : Int) : AnyError :=
  { cls := .mongoCompatibilityError,
    message := "Minimum wire version '" ++ toString required ++ "' required, but found '" ++ toString found ++ "'" }

/-- The wire version that the read preference needs and the topology does not have. -/
def wireVersionLacking (readPreference : ReadPreference) (d : TopologyDescription) : Option (Int × Int) :=
  match truthyNum d.commonWireVersion, truthyNum readPreference.minWireVersion with
  | some found, some required => if required > found then some (required, found) else none
  | _, _ => none

/-- The reducers in the order of the selector. -/
def reduceServers (readPreference : ReadPreference) (t : MeasuredTopology) (servers : List MeasuredServer) :
    Except AnyError (List MeasuredServer) := do
  let servers ← maxStalenessReducer readPreference t servers
  return latencyWindowReducer t (tagSetReducer readPreference servers)

/-- The selector for a replica set. -/
def selectMembers (readPreference : ReadPreference) (t : MeasuredTopology) (servers : List MeasuredServer) :
    Except AnyError (List MeasuredServer) :=
  if readPreference.mode = .primary then .ok (servers.filter primaryFilter)
  else if readPreference.mode = .primaryPreferred ∧ (servers.filter primaryFilter).length ≠ 0 then
    .ok (servers.filter primaryFilter)
  else do
    let filter := if readPreference.mode = .nearest then nearestFilter else secondaryFilter
    let selectedServers ← reduceServers readPreference t (servers.filter filter)
    if readPreference.mode = .secondaryPreferred ∧ selectedServers.length = 0 then
      return servers.filter primaryFilter
    return selectedServers

/-- The function that `readPreferenceServerSelector` returns. -/
def selectByPreference (readPreference : ReadPreference) (t : MeasuredTopology) (servers : List MeasuredServer) :
    Except AnyError (List MeasuredServer) :=
  match wireVersionLacking readPreference t.description with
  | some (required, found) => .error (minimumWireVersion required found)
  | none =>
    match t.description.type with
    | .loadBalanced => .ok (servers.filter loadBalancerFilter)
    | .unknown => .ok []
    | .single | .sharded => .ok (latencyWindowReducer t (servers.filter knownFilter))
    | .replicaSetNoPrimary | .replicaSetWithPrimary => selectMembers readPreference t servers

/-- `readPreferenceServerSelector(readPreference)`. -/
def readPreferenceServerSelector (readPreference : ReadPreference) :
    Except AnyError (MeasuredTopology → List MeasuredServer → Except AnyError (List MeasuredServer)) :=
  if !readPreference.isValid then .error (invalidArgument "Invalid read preference specified")
  else .ok (selectByPreference readPreference)

/-! ## The rule -/

section Rule

variable (readPreference : ReadPreference) (type : TopologyType) (options : TopologyDescriptionOptions)
  (topology servers : Set MeasuredServer)

/-- The servers that are of a type. -/
def ofType (types : List ServerType) : Set MeasuredServer := {s ∈ servers | s.type ∈ types}

/-- The servers with the lowest round-trip time. -/
def nearestServers : Set MeasuredServer := {s ∈ servers | ∀ other ∈ servers, s.roundTripTime ≤ other.roundTripTime}

/-- The servers that were written last. -/
def freshestServers : Set MeasuredServer := {s ∈ servers | ∀ other ∈ servers, other.lastWriteDate ≤ s.lastWriteDate}

/-- The servers that are not staler than the read preference allows, against the primary of the topology, or without
one against the freshest of the servers. -/
def notStale : Set MeasuredServer :=
  match readPreference.maxStalenessSeconds, type with
  | some maxStaleness, .replicaSetWithPrimary =>
    {s ∈ servers | 0 ≤ maxStaleness → ∃ primary ∈ ofType topology [.rsPrimary],
      (stalenessToPrimary options.heartbeatFrequencyMS primary s : ℚ) ≤ maxStaleness}
  | some maxStaleness, .replicaSetNoPrimary => {s ∈ servers | 0 ≤ maxStaleness → ∃ sMax ∈ freshestServers servers,
      (stalenessToFreshest options.heartbeatFrequencyMS sMax s : ℚ) ≤ maxStaleness}
  | _, _ => servers

/-- The server has the tags. -/
def HasTags (tagSet : TagSet) (s : MeasuredServer) : Prop :=
  ∀ key value, tagSet.lookup key = some value → s.tags.lookup key = some value

/-- The servers with the first tag set that one of them has. -/
def byFirstTags (tags : List TagSet) : Set MeasuredServer :=
  {s ∈ servers | ∃ before tagSet after, tags = before ++ tagSet :: after ∧
    (∀ earlier ∈ before, ∀ other ∈ servers, ¬ HasTags earlier other) ∧ HasTags tagSet s}

def byTags : Set MeasuredServer :=
  if readPreference.tags.getD [] = [] then servers else byFirstTags servers (readPreference.tags.getD [])

/-- The longest time that is within the threshold of another. -/
def latest (roundTripTime : Js.Double) : ℚ := roundTripTime + Js.Double.ofNat options.localThresholdMS

/-- The servers whose round-trip time is within the threshold of the lowest, or is the double next to the longest that
is. -/
def inWindow : Set MeasuredServer :=
  {s ∈ servers | ∃ low ∈ nearestServers servers, (s.roundTripTime : ℚ) ≤ latest options low.roundTripTime ∨
    (s.roundTripTime : ℚ) = Js.toDouble (latest options low.roundTripTime)}

/-- Staleness, tags and latency, in this order. -/
def reduced : Set MeasuredServer :=
  inWindow options (byTags readPreference (notStale readPreference type options topology servers))

/-- The members of a replica set that a read preference stands for. -/
def membersRule : Set MeasuredServer :=
  let primaries := ofType servers [.rsPrimary]
  let secondaries := reduced readPreference type options topology (ofType servers [.rsSecondary])
  match readPreference.mode with
  | .primary => primaries
  | .primaryPreferred => {s | s ∈ primaries ∨ primaries = ∅ ∧ s ∈ secondaries}
  | .secondary => secondaries
  | .secondaryPreferred => {s | s ∈ secondaries ∨ secondaries = ∅ ∧ s ∈ primaries}
  | .nearest => reduced readPreference type options topology (ofType servers [.rsSecondary, .rsPrimary])

/-- The servers that a read preference stands for. Only the members of a replica set are chosen by mode, staleness and
tags. -/
def selectionRule : Set MeasuredServer :=
  match type with
  | .loadBalanced => ofType servers [.loadBalancer]
  | .unknown => ∅
  | .single | .sharded => inWindow options {s ∈ servers | s.type ≠ .unknown}
  | .replicaSetNoPrimary | .replicaSetWithPrimary => membersRule readPreference type options topology servers

end Rule

/-- The errors that the selector throws, and when. -/
def DocumentedError (readPreference : ReadPreference) (d : TopologyDescription) (e : AnyError) : Prop :=
  (∃ required found, truthyNum readPreference.minWireVersion = some required ∧
      truthyNum d.commonWireVersion = some found ∧ found < required ∧ e = minimumWireVersion required found) ∨
    ∃ maxStaleness, readPreference.maxStalenessSeconds = some maxStaleness ∧ 0 ≤ maxStaleness ∧
      (maxStaleness < (maxStalenessVariance d.options : ℚ) ∧
          e = staleAtLeast (secondsText (d.options.heartbeatFrequencyMS + idleWritePeriod)) ∨
        maxStaleness < smallestMaxStalenessSeconds ∧ e = staleAtLeast (toString smallestMaxStalenessSeconds))

/-! ## The reducers follow the rule -/

section Reducers

variable {readPreference : ReadPreference} {t : MeasuredTopology} {servers : List MeasuredServer}

/-- The servers of a list, as a set. -/
def asSet (servers : List MeasuredServer) : Set MeasuredServer := {s | s ∈ servers}

/-- The computation throws a documented error or returns the servers of the set. -/
def Yields (readPreference : ReadPreference) (d : TopologyDescription) :
    Except AnyError (List MeasuredServer) → Set MeasuredServer → Prop
  | .error e, _ => DocumentedError readPreference d e
  | .ok result, selected => asSet result = selected

theorem Yields.bind {d : TopologyDescription} {x : Except AnyError (List MeasuredServer)}
    {f : List MeasuredServer → Except AnyError (List MeasuredServer)} {selected selected' : Set MeasuredServer}
    (h : Yields readPreference d x selected)
    (hf : ∀ result, asSet result = selected → Yields readPreference d (f result) selected') :
    Yields readPreference d (x >>= f) selected' := by
  cases x with
  | error e => exact h
  | ok result => exact hf result h

theorem asSet_filter {p : MeasuredServer → Bool} {types : List ServerType}
    (h : ∀ s, p s = true ↔ s.type ∈ types) : asSet (servers.filter p) = ofType (asSet servers) types := by
  ext s
  simp only [asSet, ofType, Set.mem_ofPred_eq, List.mem_filter, h]

theorem asSet_primary (servers : List MeasuredServer) :
    asSet (servers.filter primaryFilter) = ofType (asSet servers) [.rsPrimary] :=
  asSet_filter (by simp [primaryFilter])

theorem asSet_secondary (servers : List MeasuredServer) :
    asSet (servers.filter secondaryFilter) = ofType (asSet servers) [.rsSecondary] :=
  asSet_filter (by simp [secondaryFilter])

theorem asSet_nearest (servers : List MeasuredServer) :
    asSet (servers.filter nearestFilter) = ofType (asSet servers) [.rsSecondary, .rsPrimary] :=
  asSet_filter (by simp [nearestFilter])

theorem asSet_loadBalancer (servers : List MeasuredServer) :
    asSet (servers.filter loadBalancerFilter) = ofType (asSet servers) [.loadBalancer] :=
  asSet_filter (by simp [loadBalancerFilter])

theorem asSet_known (servers : List MeasuredServer) :
    asSet (servers.filter knownFilter) = {s ∈ asSet servers | s.type ≠ .unknown} := by
  ext s
  simp [asSet, knownFilter]

theorem asSet_eq_empty : asSet servers = ∅ ↔ servers.length = 0 := by
  rw [List.length_eq_zero_iff, List.eq_nil_iff_forall_not_mem, Set.eq_empty_iff_forall_notMem]
  rfl

/-! ### Latency -/

/-- The fold finds the least time, from a value that is not the sentinel. -/
theorem foldl_lowest : ∀ {servers : List MeasuredServer} {low : Js.Double}, (∀ s ∈ servers, (0 : ℚ) ≤ s.roundTripTime) → (0 : ℚ) ≤ low →
    ∃ r, servers.foldl lowerRoundTripTime low = r ∧ r ≤ low ∧ (∀ s ∈ servers, r ≤ s.roundTripTime) ∧
      (r = low ∨ ∃ s ∈ servers, s.roundTripTime = r)
  | [], low, _, _ => ⟨low, rfl, le_refl low, fun _ h => absurd h List.not_mem_nil, .inl rfl⟩
  | server :: rest, low, hpos, hlow => by
    have hlower : lowerRoundTripTime low server = min server.roundTripTime low :=
      if_neg fun h => absurd hlow (by rw [h]; decide)
    have hmin : (0 : ℚ) ≤ min server.roundTripTime low := by
      rcases min_choice server.roundTripTime low with h | h
      · rw [h]
        exact hpos server (List.mem_cons_self ..)
      · rw [h]
        exact hlow
    obtain ⟨r, hr, hle, hall, hsome⟩ := foldl_lowest (fun s hs => hpos s (List.mem_cons_of_mem _ hs)) hmin
    refine ⟨r, ?_, hle.trans (min_le_right ..), ?_, ?_⟩
    · rw [List.foldl_cons, hlower]
      exact hr
    · intro s hs
      rcases List.mem_cons.1 hs with rfl | hs
      · exact hle.trans (min_le_left ..)
      · exact hall s hs
    · rcases hsome with heq | ⟨s, hs, heq⟩
      · rcases min_choice server.roundTripTime low with hmin | hmin
        · exact .inr ⟨server, List.mem_cons_self .., (heq.trans hmin).symm⟩
        · exact .inl (heq.trans hmin)
      · exact .inr ⟨s, List.mem_cons_of_mem _ hs, heq⟩

/-- The lowest time is that of a nearest server. -/
theorem lowestRoundTripTime_spec (hpos : ∀ s ∈ servers, (0 : ℚ) ≤ s.roundTripTime) (hne : servers ≠ []) :
    ∃ low ∈ nearestServers (asSet servers), low.roundTripTime = lowestRoundTripTime servers := by
  obtain ⟨first, rest, rfl⟩ := List.exists_cons_of_ne_nil hne
  have hfirst : lowerRoundTripTime unmeasured first = first.roundTripTime := if_pos rfl
  obtain ⟨r, hr, hle, hall, hsome⟩ := foldl_lowest (fun s hs => hpos s (List.mem_cons_of_mem _ hs))
    (hpos first (List.mem_cons_self ..))
  have hlowest : lowestRoundTripTime (first :: rest) = r := by
    unfold lowestRoundTripTime
    rw [List.foldl_cons, hfirst, hr]
  have hbelow : ∀ s ∈ first :: rest, r ≤ s.roundTripTime := by
    intro s hs
    rcases List.mem_cons.1 hs with rfl | hs
    · exact hle
    · exact hall s hs
  rw [hlowest]
  rcases hsome with heq | ⟨s, hs, heq⟩
  · exact ⟨first, ⟨List.mem_cons_self .., fun other ho => heq ▸ hbelow other ho⟩, heq.symm⟩
  · exact ⟨s, ⟨List.mem_cons_of_mem _ hs, fun other ho => heq ▸ hbelow other ho⟩, heq⟩

theorem latencyWindowReducer_eq (hpos : ∀ s ∈ servers, (0 : ℚ) ≤ s.roundTripTime) :
    asSet (latencyWindowReducer t servers) = inWindow t.description.options (asSet servers) := by
  ext s
  unfold latencyWindowReducer inWindow
  simp only [asSet, Set.mem_ofPred_eq, List.mem_filter, decide_eq_true_eq]
  refine and_congr_right fun hs => ?_
  obtain ⟨low, ⟨hlow, hleast⟩, htime⟩ := lowestRoundTripTime_spec hpos (List.ne_nil_of_mem hs)
  rw [← htime]
  have hnonneg : 0 ≤ latest t.description.options low.roundTripTime :=
    add_nonneg (hpos low hlow) (Js.Double.ofNat_nonneg _)
  have hrounded : s.roundTripTime ≤ low.roundTripTime.add (.ofNat t.description.options.localThresholdMS) ↔
      (s.roundTripTime : ℚ) ≤ latest t.description.options low.roundTripTime ∨
        (s.roundTripTime : ℚ) = Js.toDouble (latest t.description.options low.roundTripTime) :=
    Js.le_toDouble_iff hnonneg s.roundTripTime.2
  rw [hrounded]
  constructor
  · rintro ⟨hhigh, -⟩
    exact ⟨low, ⟨hlow, hleast⟩, hhigh⟩
  · rintro ⟨low', ⟨hlow', hleast'⟩, hhigh⟩
    have hsame : low'.roundTripTime = low.roundTripTime := le_antisymm (hleast' low hlow) (hleast low' hlow')
    rw [← hsame]
    exact ⟨hhigh, hsame ▸ hleast s hs⟩

/-! ### Tags -/

theorem tagSetMatch_iff {tagSet : TagSet} {s : MeasuredServer} : tagSetMatch tagSet s.tags = true ↔
    HasTags tagSet s := by
  unfold tagSetMatch HasTags
  rw [List.all_eq_true]
  constructor
  · intro hall key value hkey
    obtain ⟨tag, htag, hfst⟩ : ∃ tag ∈ tagSet, tag.1 = key := by
      by_contra hnone
      push Not at hnone
      have hlookup : tagSet.lookup key = none :=
        List.lookup_eq_none_iff.2 fun p hp => bne_iff_ne.2 (hnone p hp).symm
      rw [hlookup] at hkey
      cases hkey
    have hmatch := hall tag htag
    rw [decide_eq_true_eq, hfst, hkey] at hmatch
    exact hmatch
  · intro hhas tag htag
    rw [decide_eq_true_eq]
    cases hlookup : tagSet.lookup tag.1 with
    | none =>
      have hnot := List.lookup_eq_none_iff.1 hlookup tag htag
      simp at hnot
    | some value => exact hhas tag.1 value hlookup

theorem firstMatching_eq : ∀ (tags : List TagSet),
    asSet (firstMatching servers tags) = byFirstTags (asSet servers) tags
  | [] => by
    ext s
    simp [asSet, firstMatching, byFirstTags]
  | tagSet :: rest => by
    have hmatched : ∀ s, s ∈ servers.filter (fun server => tagSetMatch tagSet server.tags) ↔
        s ∈ servers ∧ HasTags tagSet s := by
      intro s
      rw [List.mem_filter, tagSetMatch_iff]
    have ih := firstMatching_eq rest
    ext s
    unfold firstMatching
    simp only
    split
    · -- some server has these tags
      rename_i hsome
      obtain ⟨found, hfound⟩ := List.exists_mem_of_length_pos (Nat.pos_of_ne_zero hsome)
      obtain ⟨hin, hhas⟩ := (hmatched found).1 hfound
      refine (hmatched s).trans (and_congr_right fun _ => ?_)
      constructor
      · exact fun hs => ⟨[], tagSet, rest, rfl, fun _ h => absurd h List.not_mem_nil, hs⟩
      · rintro ⟨before, tagSet', after, heq, hnone, hs⟩
        cases before with
        | nil =>
          cases heq
          exact hs
        | cons first before =>
          cases heq
          exact absurd hhas (hnone tagSet (List.mem_cons_self ..) found hin)
    · rename_i hnone
      rw [Ne, not_not, List.length_eq_zero_iff, List.eq_nil_iff_forall_not_mem] at hnone
      have hfree : ∀ other ∈ asSet servers, ¬ HasTags tagSet other :=
        fun other ho hhas => hnone other ((hmatched other).2 ⟨ho, hhas⟩)
      rw [ih]
      refine and_congr_right fun hs => ?_
      constructor
      · rintro ⟨before, tagSet', after, rfl, hearlier, htags⟩
        refine ⟨tagSet :: before, tagSet', after, rfl, fun earlier he => ?_, htags⟩
        rcases List.mem_cons.1 he with rfl | he
        · exact hfree
        · exact hearlier earlier he
      · rintro ⟨before, tagSet', after, heq, hearlier, htags⟩
        cases before with
        | nil =>
          cases heq
          exact absurd htags (hfree s hs)
        | cons first before =>
          cases heq
          exact ⟨before, tagSet', after, rfl, fun earlier he => hearlier earlier (List.mem_cons_of_mem _ he), htags⟩

theorem tagSetReducer_eq : asSet (tagSetReducer readPreference servers) = byTags readPreference (asSet servers) := by
  unfold tagSetReducer byTags
  cases htags : readPreference.tags with
  | none => rfl
  | some tags =>
    cases tags with
    | nil => rfl
    | cons tagSet rest =>
      rw [if_neg (by simp)]
      exact firstMatching_eq (tagSet :: rest)

/-! ### Staleness -/

/-- The fold finds a server written last. -/
theorem foldl_freshest : ∀ (first : MeasuredServer) (rest : List MeasuredServer),
    rest.foldl (fun max s => if s.lastWriteDate > max.lastWriteDate then s else max) first ∈
      freshestServers (asSet (first :: rest))
  | first, [] => ⟨List.mem_singleton_self first, fun other ho => by rw [List.mem_singleton.1 ho]; exact le_refl _⟩
  | first, server :: rest => by
    rw [List.foldl_cons]
    split
    · rename_i hlater
      obtain ⟨hin, hlast⟩ := foldl_freshest server rest
      refine ⟨List.mem_cons_of_mem _ hin, fun other ho => ?_⟩
      rcases List.mem_cons.1 ho with rfl | ho
      · exact hlater.le.trans (hlast server (List.mem_cons_self ..))
      · exact hlast other ho
    · rename_i hnot
      obtain ⟨hin, hlast⟩ := foldl_freshest first rest
      refine ⟨?_, fun other ho => ?_⟩
      · rcases List.mem_cons.1 hin with heq | hin
        · rw [heq]
          exact List.mem_cons_self ..
        · exact List.mem_cons_of_mem _ (List.mem_cons_of_mem _ hin)
      · rcases List.mem_cons.1 ho with rfl | ho
        · exact hlast other (List.mem_cons_self ..)
        · rcases List.mem_cons.1 ho with rfl | ho
          · exact (not_lt.1 hnot).trans (hlast first (List.mem_cons_self ..))
          · exact hlast other (List.mem_cons_of_mem _ ho)

/-- A list without repetition whose members are all the same has one. -/
theorem length_eq_one_of_nodup {l : List String} {a : String} (hnodup : l.Nodup) (hsame : ∀ k ∈ l, k = a)
    (hpos : 0 < l.length) : l.length = 1 := by
  have hle : l.length ≤ [a].length :=
    (List.subperm_of_subset hnodup fun k hk => List.mem_singleton.2 (hsame k hk)).length_le
  simp only [List.length_singleton] at hle
  omega

/-- In a topology with a primary there is one to be found. -/
theorem primary_found (hw : WellShaped t.description) (ht : t.description.type = .replicaSetWithPrimary) :
    ∃ primary, t.servers.filter primaryFilter = [primary] := by
  have hshape := hw.shape
  rw [ht] at hshape
  obtain ⟨-, hone, a, s, hp⟩ := hshape
  -- the entries that are primaries have one key, and keys are not repeated
  have hkeys : ((t.description.servers.entries.filter fun e => e.2.type = .rsPrimary).map Prod.fst).Nodup :=
    t.description.servers.nodup.sublist (List.filter_sublist.map _)
  have hsame : ∀ k ∈ (t.description.servers.entries.filter fun e => e.2.type = .rsPrimary).map Prod.fst, k = a := by
    intro k hk
    obtain ⟨e, he, rfl⟩ := List.mem_map.1 hk
    obtain ⟨hmem, htype⟩ := List.mem_filter.1 he
    exact hone e.1 e.2 a s ⟨OrderedMap.get?_eq_some.2 hmem, by simpa using htype⟩ hp
  have hlength : (t.servers.filter primaryFilter).length =
      (t.description.servers.entries.filter fun e => e.2.type = .rsPrimary).length := by
    have hvalues := congrArg (fun l => (l.filter fun sd : ServerDescription => decide (sd.type = .rsPrimary)).length)
      t.agrees
    show (t.servers.filter fun s => decide (s.type = .rsPrimary)).length = _
    simpa [OrderedMap.values, List.filter_map, Function.comp_def] using hvalues
  have hmem : (a, s) ∈ t.description.servers.entries.filter fun e => e.2.type = .rsPrimary :=
    List.mem_filter.2 ⟨OrderedMap.get?_eq_some.1 hp.1, by simpa using hp.2⟩
  have hpos := List.length_pos_of_mem hmem
  rw [← List.length_eq_one_iff, hlength]
  rw [← List.length_map (Prod.fst)] at hpos ⊢
  exact length_eq_one_of_nodup hkeys hsame hpos

/-- Against the only primary there is. -/
theorem notStale_of_primary {options : TopologyDescriptionOptions} {topology servers : List MeasuredServer}
    {primary : MeasuredServer} {maxStaleness : ℚ} (hmax : readPreference.maxStalenessSeconds = some maxStaleness)
    (hnonneg : 0 ≤ maxStaleness) (hprimary : topology.filter primaryFilter = [primary]) :
    asSet (servers.filter fun s => (stalenessToPrimary options.heartbeatFrequencyMS primary s : ℚ) ≤ maxStaleness) =
      notStale readPreference .replicaSetWithPrimary options (asSet topology) (asSet servers) := by
  have hset := asSet_primary topology
  rw [hprimary] at hset
  ext s
  simp only [asSet, notStale, hmax, Set.mem_ofPred_eq, List.mem_filter, decide_eq_true_eq]
  refine and_congr_right fun _ => ?_
  constructor
  · intro hs _
    exact ⟨primary, by rw [← asSet, ← hset]; exact List.mem_singleton_self primary, hs⟩
  · intro hs
    obtain ⟨p, hp, hle⟩ := hs hnonneg
    rw [← asSet, ← hset] at hp
    rw [List.mem_singleton.1 hp] at hle
    exact hle

/-- Against one of the freshest, which were written at the same time. -/
theorem notStale_of_freshest {options : TopologyDescriptionOptions} {topology : Set MeasuredServer}
    {servers : List MeasuredServer} {sMax : MeasuredServer} {maxStaleness : ℚ}
    (hmax : readPreference.maxStalenessSeconds = some maxStaleness) (hnonneg : 0 ≤ maxStaleness)
    (hfresh : sMax ∈ freshestServers (asSet servers)) :
    asSet (servers.filter fun s => (stalenessToFreshest options.heartbeatFrequencyMS sMax s : ℚ) ≤ maxStaleness) =
      notStale readPreference .replicaSetNoPrimary options topology (asSet servers) := by
  ext s
  simp only [asSet, notStale, hmax, Set.mem_ofPred_eq, List.mem_filter, decide_eq_true_eq]
  refine and_congr_right fun _ => ?_
  constructor
  · exact fun hs _ => ⟨_, hfresh, hs⟩
  · intro hs
    obtain ⟨other, ⟨hin, hlast⟩, hle⟩ := hs hnonneg
    have hdate := le_antisymm (hlast _ hfresh.1) (hfresh.2 other hin)
    unfold stalenessToFreshest at hle ⊢
    rw [hdate]
    exact hle

theorem maxStalenessReducer_yields (readPreference : ReadPreference) (servers : List MeasuredServer)
    (hw : WellShaped t.description) :
    Yields readPreference t.description (maxStalenessReducer readPreference t servers)
      (notStale readPreference t.description.type t.description.options (asSet t.servers) (asSet servers)) := by
  unfold maxStalenessReducer
  cases hmax : readPreference.maxStalenessSeconds with
  | none =>
    show asSet servers = _
    simp only [notStale, hmax]
  | some maxStaleness =>
    simp only
    split
    · -- a negative value counts as none
      rename_i hneg
      show asSet servers = _
      ext s
      unfold notStale
      cases t.description.type <;> simp [hmax, not_le.2 hneg]
    rename_i hnonneg
    have hnonneg := not_lt.1 hnonneg
    split
    · rename_i hsmall
      exact .inr ⟨maxStaleness, hmax, hnonneg, .inl ⟨hsmall, rfl⟩⟩
    split
    · rename_i hsmall
      exact .inr ⟨maxStaleness, hmax, hnonneg, .inr ⟨hsmall, rfl⟩⟩
    cases servers with
    | nil =>
      have hnil : asSet [] = notStale readPreference t.description.type t.description.options (asSet t.servers)
          (asSet []) := by
        ext s
        unfold notStale
        cases t.description.type <;> simp [hmax, asSet]
      cases htype : t.description.type <;> rw [htype] at hnil <;> exact hnil
    | cons first rest =>
      cases htype : t.description.type with
      | replicaSetWithPrimary =>
        -- against the primary, which is there
        obtain ⟨primary, hprimary⟩ := primary_found hw htype
        rw [hprimary]
        exact notStale_of_primary hmax hnonneg hprimary
      | replicaSetNoPrimary => exact notStale_of_freshest hmax hnonneg (foldl_freshest first rest)
      | single | unknown | sharded | loadBalanced =>
        show asSet (first :: rest) = _
        simp only [notStale, hmax]

theorem notStale_subset {type : TopologyType} {options : TopologyDescriptionOptions}
    {topology all : Set MeasuredServer} :
    notStale readPreference type options topology all ⊆ all := by
  intro s hs
  unfold notStale at hs
  split at hs
  · exact hs.1
  · exact hs.1
  · exact hs

theorem byTags_subset {all : Set MeasuredServer} : byTags readPreference all ⊆ all := by
  intro s hs
  unfold byTags at hs
  split at hs
  · exact hs
  · exact hs.1

/-- The reducers, one after the other. -/
theorem reduceServers_yields (readPreference : ReadPreference) (servers : List MeasuredServer)
    (hw : WellShaped t.description) (hpos : ∀ s ∈ servers, (0 : ℚ) ≤ s.roundTripTime) :
    Yields readPreference t.description (reduceServers readPreference t servers)
      (reduced readPreference t.description.type t.description.options (asSet t.servers) (asSet servers)) := by
  refine (maxStalenessReducer_yields readPreference servers hw).bind fun fresh hfresh => ?_
  have hsub : ∀ s ∈ tagSetReducer readPreference fresh, (0 : ℚ) ≤ s.roundTripTime := by
    intro s hs
    have hin : s ∈ asSet (tagSetReducer readPreference fresh) := hs
    rw [tagSetReducer_eq, hfresh] at hin
    exact hpos s (notStale_subset (byTags_subset hin))
  show asSet (latencyWindowReducer t (tagSetReducer readPreference fresh)) = _
  rw [latencyWindowReducer_eq hsub, tagSetReducer_eq, hfresh]
  rfl

theorem selectMembers_yields (readPreference : ReadPreference) (servers : List MeasuredServer)
    (hw : WellShaped t.description) (hknown : ∀ s ∈ servers, s.type ≠ .unknown → (0 : ℚ) ≤ s.roundTripTime) :
    Yields readPreference t.description (selectMembers readPreference t servers)
      (membersRule readPreference t.description.type t.description.options (asSet t.servers) (asSet servers)) := by
  have hprimaries := asSet_primary servers
  have hnearest := reduceServers_yields readPreference (servers.filter nearestFilter) hw
    fun s hs => hknown s (List.mem_filter.1 hs).1 (by
      have htype := (List.mem_filter.1 hs).2
      revert htype
      unfold nearestFilter
      cases s.type <;> decide)
  have hsecondary := reduceServers_yields readPreference (servers.filter secondaryFilter) hw
    fun s hs => hknown s (List.mem_filter.1 hs).1 (by
      have htype := (List.mem_filter.1 hs).2
      revert htype
      unfold secondaryFilter
      cases s.type <;> decide)
  rw [asSet_nearest] at hnearest
  rw [asSet_secondary] at hsecondary
  unfold selectMembers membersRule
  cases hmode : readPreference.mode with
  | primary => exact hprimaries
  | primaryPreferred =>
    simp only [reduceCtorEq, if_false, true_and, false_and]
    split
    · rename_i hsome
      show asSet (servers.filter primaryFilter) = _
      ext s
      have hne : ofType (asSet servers) [.rsPrimary] ≠ ∅ := by
        rw [← hprimaries]
        exact fun hempty => hsome (asSet_eq_empty.1 hempty)
      simp [hprimaries, hne]
    · rename_i hnone
      have hempty : ofType (asSet servers) [.rsPrimary] = ∅ := by
        rw [← hprimaries]
        exact asSet_eq_empty.2 (by simpa using hnone)
      refine hsecondary.bind fun result hresult => ?_
      show asSet result = _
      ext s
      simp [hresult, hempty]
  | secondary =>
    simp only [reduceCtorEq, if_false, false_and]
    exact hsecondary.bind fun result hresult => hresult
  | secondaryPreferred =>
    simp only [reduceCtorEq, if_false, true_and, false_and]
    refine hsecondary.bind fun result hresult => ?_
    split
    · rename_i hnone
      show asSet (servers.filter primaryFilter) = _
      ext s
      simp [hprimaries, ← hresult, asSet_eq_empty.2 hnone]
    · rename_i hsome
      show asSet result = _
      have hne : asSet result ≠ ∅ := fun hempty => hsome (asSet_eq_empty.1 hempty)
      rw [hresult] at hne
      ext s
      simp [hresult, hne]
  | nearest =>
    simp only [reduceCtorEq, if_false, if_true, false_and]
    exact hnearest.bind fun result hresult => hresult

theorem wireVersionLacking_some {d : TopologyDescription} {required found : Int}
    (h : wireVersionLacking readPreference d = some (required, found)) :
    truthyNum readPreference.minWireVersion = some required ∧ truthyNum d.commonWireVersion = some found ∧
      found < required := by
  unfold wireVersionLacking at h
  split at h
  · rename_i found' required' hfound hrequired
    split at h
    · rename_i hlower
      cases h
      exact ⟨hrequired, hfound, hlower⟩
    · cases h
  · cases h

theorem selectByPreference_yields (readPreference : ReadPreference) (servers : List MeasuredServer)
    (hw : WellShaped t.description) (hknown : ∀ s ∈ servers, s.type ≠ .unknown → (0 : ℚ) ≤ s.roundTripTime) :
    Yields readPreference t.description (selectByPreference readPreference t servers)
      (selectionRule readPreference t.description.type t.description.options (asSet t.servers) (asSet servers)) := by
  unfold selectByPreference
  cases hlacking : wireVersionLacking readPreference t.description with
  | some versions =>
    obtain ⟨required, found⟩ := versions
    obtain ⟨hrequired, hfound, hlower⟩ := wireVersionLacking_some hlacking
    exact .inl ⟨required, found, hrequired, hfound, hlower, rfl⟩
  | none =>
    have hmembers := selectMembers_yields readPreference servers hw hknown
    have hwindow : asSet (latencyWindowReducer t (servers.filter knownFilter)) =
        inWindow t.description.options {s ∈ asSet servers | s.type ≠ .unknown} := by
      rw [latencyWindowReducer_eq, asSet_known]
      intro s hs
      obtain ⟨hin, htype⟩ := List.mem_filter.1 hs
      exact hknown s hin (by simpa [knownFilter] using htype)
    unfold selectionRule
    cases htype : t.description.type with
    | loadBalanced => exact asSet_loadBalancer servers
    | unknown => exact asSet_eq_empty.2 rfl
    | single => exact hwindow
    | sharded => exact hwindow
    | replicaSetNoPrimary =>
      rw [htype] at hmembers
      exact hmembers
    | replicaSetWithPrimary =>
      rw [htype] at hmembers
      exact hmembers

end Reducers

/-! ## Selection in a topology that is reached -/

/-- The same topology with its servers in another order. -/
structure Reordered (t t' : MeasuredTopology) : Prop where
  type : t'.description.type = t.description.type
  options : t'.description.options = t.description.options
  get? : ∀ a, t'.description.servers.get? a = t.description.servers.get? a
  servers : ∀ s, s ∈ t'.servers ↔ s ∈ t.servers

theorem Reordered.wellShaped {t t' : MeasuredTopology} (h : Reordered t t') (hw : WellShaped t.description) :
    WellShaped t'.description := by
  obtain ⟨hkeyed, hshape⟩ := hw
  refine ⟨fun a s hs => hkeyed a s (by rw [← h.get?]; exact hs), ?_⟩
  rw [h.type]
  revert hshape
  cases t.description.type <;> simp [Shape, Avoids, OnePrimary, PrimaryAt, h.get?]

/-- In every topology that replies and polls lead to, and for every read preference: the selector throws one of its
documented errors, or it returns the servers of the rule. The primary it looks up is there, and the order of the
servers does not matter. -/
theorem read_preference_selection (rt : Runtime) (readPreference : ReadPreference) (t : MeasuredTopology)
    (hreached : Reached rt t.description) (servers : List MeasuredServer)
    (hknown : ∀ s ∈ servers, s.type ≠ .unknown → (0 : ℚ) ≤ s.roundTripTime) :
    ∃ selector, readPreferenceServerSelector readPreference = .ok selector ∧
      ((∃ e, selector t servers = .error e ∧ DocumentedError readPreference t.description e) ∨
        ∃ result, selector t servers = .ok result ∧ ∀ s, s ∈ result ↔
          s ∈ selectionRule readPreference t.description.type t.description.options {p | p ∈ t.servers}
            {s | s ∈ servers}) ∧
      ∀ t' servers', Reordered t t' → (∀ s, s ∈ servers' ↔ s ∈ servers) → ∀ result result',
        selector t servers = .ok result → selector t' servers' = .ok result' → ∀ s, s ∈ result' ↔ s ∈ result := by
  have hvalid : readPreference.isValid = true := by
    unfold ReadPreference.isValid
    cases readPreference.mode <;> decide
  have hw := hreached.wellShaped
  have hyields := selectByPreference_yields readPreference servers hw hknown
  refine ⟨selectByPreference readPreference, by simp [readPreferenceServerSelector, hvalid], ?_, ?_⟩
  · cases hselect : selectByPreference readPreference t servers with
    | error e =>
      rw [hselect] at hyields
      exact .inl ⟨e, rfl, hyields⟩
    | ok result =>
      rw [hselect] at hyields
      exact .inr ⟨result, rfl, fun s => Set.ext_iff.1 hyields s⟩
  · intro t' servers' hreordered hsame result result' hresult hresult' s
    have hyields' := selectByPreference_yields readPreference servers' (hreordered.wellShaped hw)
      fun s hs => hknown s ((hsame s).1 hs)
    have hservers : asSet servers' = asSet servers := Set.ext hsame
    have htopology : asSet t'.servers = asSet t.servers := Set.ext hreordered.servers
    rw [hresult', hreordered.type, hreordered.options, hservers, htopology] at hyields'
    rw [hresult] at hyields
    exact Set.ext_iff.1 (hyields'.trans hyields.symm) s

/-- A description whose servers all answer within five milliseconds. -/
def measured (d : TopologyDescription) : MeasuredTopology where
  description := d
  servers := d.servers.values.map fun sd => { sd with roundTripTime := .ofNat 5 }
  agrees := by simp [Function.comp_def]

/-- The sharded cluster after the reply of one mongos, if that can be applied. -/
def lanCluster : Option MeasuredTopology :=
  (((initialDescription lanRuntime {} [lanHost "a"]).update lanRuntime (lanMongos "a")).toOption).map measured

theorem lanCluster_reached {t : MeasuredTopology} (h : lanCluster = some t) : Reached lanRuntime t.description := by
  obtain ⟨d, hd, rfl⟩ := Option.map_eq_some_iff.1 h
  exact .report (.initial {} [lanHost "a"]) ⟨_, _, _, rfl⟩ (toOption_eq_some.1 hd)

theorem lanCluster_known {t : MeasuredTopology} (h : lanCluster = some t) :
    ∀ s ∈ t.servers, s.type ≠ .unknown → (0 : ℚ) ≤ s.roundTripTime := by
  obtain ⟨d, -, rfl⟩ := Option.map_eq_some_iff.1 h
  intro s hs _
  obtain ⟨sd, -, rfl⟩ := List.mem_map.1 hs
  exact Js.Double.ofNat_nonneg 5

/-- In a sharded cluster a mongos is selected for reads from secondaries, which it is not. -/
theorem mongos_selected :
    ∃ t selector server, lanCluster = some t ∧ Reached lanRuntime t.description ∧
      (∀ s ∈ t.servers, s.type ≠ .unknown → (0 : ℚ) ≤ s.roundTripTime) ∧
      readPreferenceServerSelector { mode := .secondary } = .ok selector ∧ selector t t.servers = .ok [server] ∧
      server ∉ membersRule { mode := .secondary } t.description.type t.description.options {s | s ∈ t.servers}
        {s | s ∈ t.servers} := by
  have hview : lanCluster.map (fun t => (selectByPreference { mode := .secondary } t t.servers).map
      (·.map (·.type))) = some (.ok [.mongos]) := by
    decide +kernel
  obtain ⟨t, ht, hview⟩ := Option.map_eq_some_iff.1 hview
  cases hselect : selectByPreference { mode := .secondary } t t.servers with
  | error e =>
    rw [hselect] at hview
    cases hview
  | ok result =>
    rw [hselect] at hview
    obtain ⟨server, rfl, htype⟩ : ∃ server, result = [server] ∧ server.type = .mongos := by
      have htypes : result.map (·.type) = [.mongos] := Except.ok.inj hview
      obtain ⟨server, rest, rfl, htype, hrest⟩ := List.map_eq_cons_iff.1 htypes
      exact ⟨server, by rw [List.map_eq_nil_iff.1 hrest], htype⟩
    refine ⟨t, _, server, ht, lanCluster_reached ht, lanCluster_known ht, rfl, hselect, fun hin => ?_⟩
    have hsecondary := notStale_subset (byTags_subset hin.1)
    have hmember := hsecondary.2
    rw [htype] at hmember
    simp at hmember

/-- A description whose servers answer in 0.4 and in 15.4 milliseconds. -/
def measuredApart (d : TopologyDescription) : MeasuredTopology where
  description := d
  servers := d.servers.values.map fun sd =>
    { sd with roundTripTime := ⟨Js.toDouble (if sd.address = "a:27017" then 2 / 5 else 77 / 5), Js.isDouble_toDouble _⟩ }
  agrees := by simp [Function.comp_def]

/-- A sharded cluster with a threshold of fifteen milliseconds, after the replies of two mongos. -/
def wideCluster : Option MeasuredTopology :=
  (((initialDescription lanRuntime { description := { localThresholdMS := 15 } } [lanHost "a", lanHost "b"]).update
    lanRuntime (lanMongos "a")).toOption.bind fun d => (d.update lanRuntime (lanMongos "b")).toOption).map measuredApart

theorem wideCluster_reached {t : MeasuredTopology} (h : wideCluster = some t) : Reached lanRuntime t.description := by
  obtain ⟨d', hd', rfl⟩ := Option.map_eq_some_iff.1 h
  obtain ⟨d, hd, hd'⟩ := Option.bind_eq_some_iff.1 hd'
  have hfirst := Reached.report (.initial { description := { localThresholdMS := 15 } } [lanHost "a", lanHost "b"])
    ⟨_, _, _, rfl⟩ (toOption_eq_some.1 hd)
  exact .report hfirst ⟨_, _, _, rfl⟩ (toOption_eq_some.1 hd')

theorem wideCluster_known {t : MeasuredTopology} (h : wideCluster = some t) :
    ∀ s ∈ t.servers, s.type ≠ .unknown → (0 : ℚ) ≤ s.roundTripTime := by
  obtain ⟨d, -, rfl⟩ := Option.map_eq_some_iff.1 h
  intro s hs _
  obtain ⟨sd, -, rfl⟩ := List.mem_map.1 hs
  have hboth : 0 ≤ Js.toDouble (2 / 5) ∧ 0 ≤ Js.toDouble (77 / 5) := by decide +kernel
  show 0 ≤ Js.toDouble (if sd.address = "a:27017" then 2 / 5 else 77 / 5)
  split
  · exact hboth.1
  · exact hboth.2

/-- A server is selected whose time is past the threshold, by less than the sum is rounded by. -/
theorem past_threshold_selected :
    ∃ t selector result server low, wideCluster = some t ∧ Reached lanRuntime t.description ∧
      (∀ s ∈ t.servers, s.type ≠ .unknown → (0 : ℚ) ≤ s.roundTripTime) ∧
      readPreferenceServerSelector { mode := .nearest } = .ok selector ∧ selector t t.servers = .ok result ∧
      server ∈ result ∧ low ∈ t.servers ∧ latest t.description.options low.roundTripTime < server.roundTripTime := by
  have hview : (wideCluster.any fun t => (selectByPreference { mode := .nearest } t t.servers).toOption.any fun result =>
      result.any fun server => t.servers.any fun low =>
        decide (latest t.description.options low.roundTripTime < server.roundTripTime)) = true := by
    decide +kernel
  obtain ⟨t, ht, hresult⟩ := (Option.any_eq_true ..).1 hview
  obtain ⟨result, hselect, hserver⟩ := (Option.any_eq_true ..).1 hresult
  obtain ⟨server, hin, hlow⟩ := List.any_eq_true.1 hserver
  obtain ⟨low, hmem, hpast⟩ := List.any_eq_true.1 hlow
  exact ⟨t, _, result, server, low, ht, wideCluster_reached ht, wideCluster_known ht, rfl,
    toOption_eq_some.1 hselect, hin, hmem, of_decide_eq_true hpast⟩

/-- The rule as it is told for the members of a replica set and for exact numbers does not hold: a mongos is selected
for reads from secondaries, and a server whose time is past the threshold, by less than the sum is rounded by. -/
theorem mongos_for_secondary :
    (∃ t selector server, lanCluster = some t ∧ Reached lanRuntime t.description ∧
      (∀ s ∈ t.servers, s.type ≠ .unknown → (0 : ℚ) ≤ s.roundTripTime) ∧
      readPreferenceServerSelector { mode := .secondary } = .ok selector ∧ selector t t.servers = .ok [server] ∧
      server ∉ membersRule { mode := .secondary } t.description.type t.description.options {s | s ∈ t.servers}
        {s | s ∈ t.servers}) ∧
    ∃ t selector result server low, wideCluster = some t ∧ Reached lanRuntime t.description ∧
      (∀ s ∈ t.servers, s.type ≠ .unknown → (0 : ℚ) ≤ s.roundTripTime) ∧
      readPreferenceServerSelector { mode := .nearest } = .ok selector ∧ selector t t.servers = .ok result ∧
      server ∈ result ∧ low ∈ t.servers ∧ latest t.description.options low.roundTripTime < server.roundTripTime :=
  ⟨mongos_selected, past_threshold_selected⟩

/-- The nearest mongos of the cluster. -/
theorem read_preference_selection_cluster :
    ∃ t, lanCluster = some t ∧ Reached lanRuntime t.description ∧
      ∃ selector, readPreferenceServerSelector { mode := .nearest } = .ok selector ∧
        ((∃ e, selector t t.servers = .error e ∧ DocumentedError { mode := .nearest } t.description e) ∨
          ∃ result, selector t t.servers = .ok result ∧ ∀ s, s ∈ result ↔
            s ∈ selectionRule { mode := .nearest } t.description.type t.description.options {p | p ∈ t.servers}
              {s | s ∈ t.servers}) ∧
        ∀ t' servers', Reordered t t' → (∀ s, s ∈ servers' ↔ s ∈ t.servers) → ∀ result result',
          selector t t.servers = .ok result → selector t' servers' = .ok result' → ∀ s, s ∈ result' ↔ s ∈ result := by
  have hsome : lanCluster.isSome = true := by decide
  obtain ⟨t, ht⟩ := Option.isSome_iff_exists.1 hsome
  exact ⟨t, ht, lanCluster_reached ht, read_preference_selection lanRuntime { mode := .nearest } t
    (lanCluster_reached ht) t.servers (lanCluster_known ht)⟩

end MongoDriver.Sdam
