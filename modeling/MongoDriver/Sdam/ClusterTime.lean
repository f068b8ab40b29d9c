/-
The highest cluster time a topology has seen. Heartbeat descriptions advance it
(`_advanceClusterTime` of `src/sdam/common.ts`); a command response is relayed from its connection
through the pool to the setter of the server (`src/sdam/server.ts`), which assigns it. The topology
therefore tracks the maximum exactly as long as responses arrive in the order of their cluster times
and every heartbeat with a new maximum is taken in.
-/
import MongoDriver.Sdam.Topology
import Mathlib.Order.WithBot
import Mathlib.Order.Lattice.Nat
import Mathlib.Data.Nat.Basic
import Mathlib.Order.MinMax

namespace MongoDriver.Sdam

namespace Topology

/-! ## What receives a cluster time -/

/-- `server.clusterTime = clusterTime`, the listener of `CLUSTER_TIME_RECEIVED` of every pool. -/
def setClusterTime (t : Topology) (clusterTime : ClusterTime) : Topology := { t with clusterTime := some clusterTime }

/-- What may carry a cluster time: the description of a heartbeat, or a command response on a pooled
connection of some server. -/
inductive Message where
  | heartbeat (sd : ServerDescription)
  | response (server : String) (connection : Nat) (clusterTime : Option ClusterTime)

/-- The cluster time of a message. -/
def Message.clusterTime : Message → Option ClusterTime
  | heartbeat sd => sd.clusterTime
  | response _ _ clusterTime => clusterTime

def receive (rt : Runtime) (t : Topology) : Message → Topology
  | .heartbeat sd => (t.serverUpdateHandler rt sd).1
  | .response _ _ none => t
  | .response _ _ (some clusterTime) => t.setClusterTime clusterTime

/-! ## Which steps touch the cluster time -/

theorem openServer_clusterTime (t : Topology) (sd : ServerDescription) :
    (t.openServer sd).clusterTime = t.clusterTime := by
  unfold openServer; split <;> rfl

theorem dropServer_clusterTime (t : Topology) (address : String) :
    (t.dropServer address).clusterTime = t.clusterTime := by
  unfold dropServer; split <;> rfl

theorem updateServers_clusterTime (t : Topology) (sd : ServerDescription) :
    (t.updateServers sd).clusterTime = t.clusterTime := by
  unfold updateServers
  simp only [foldl_keeps clusterTime dropServer_clusterTime, foldl_keeps clusterTime openServer_clusterTime]
  split <;> rfl

theorem installDescription_clusterTime (t : Topology) (previous sd : ServerDescription) (d : TopologyDescription) :
    (t.installDescription previous sd d).clusterTime = t.clusterTime := by
  have hlast : ∀ t' : Topology, t'.clusterTime = t.clusterTime →
      (if previous.equals sd = true then t'.updateServers sd else
        (t'.updateServers sd).emit (.topologyDescriptionChanged t.description d)).clusterTime = t.clusterTime := by
    intro t' ht'
    split
    · rw [updateServers_clusterTime, ht']
    · exact (updateServers_clusterTime t' sd).trans ht'
  unfold installDescription
  simp only
  split
  · rfl
  · refine hlast _ ?_
    split
    · rfl
    · split <;> rfl

/-- The handler takes in the description: its server is known and it is not stale. -/
def accepts (t : Topology) (sd : ServerDescription) : Bool :=
  t.description.hasServer sd.address && !isStaleServerDescription t.description sd

/-- The cluster time of a description that is taken in advances the topology's, whether or not the
description can be applied. -/
theorem serverUpdateHandler_clusterTime (rt : Runtime) (t : Topology) (sd : ServerDescription) :
    (t.serverUpdateHandler rt sd).1.clusterTime =
      if t.accepts sd then (match sd.clusterTime with
        | none => t.clusterTime
        | some c => advanceClusterTime t.clusterTime c)
      else t.clusterTime := by
  unfold serverUpdateHandler accepts TopologyDescription.hasServer OrderedMap.contains
  cases hg : t.description.servers.get? sd.address with
  | none => rfl
  | some previous =>
    cases hstale : isStaleServerDescription t.description sd with
    | true => rfl
    | false =>
      simp only [Bool.false_eq_true, if_false, Option.isSome_some, Bool.not_false, Bool.and_true, if_true]
      cases sd.clusterTime with
      | none =>
        simp only
        split
        · rfl
        · exact installDescription_clusterTime t previous sd _
      | some c =>
        simp only
        split
        · rfl
        · exact installDescription_clusterTime
            { t with clusterTime := advanceClusterTime t.clusterTime c } previous sd _

/-! ## The maximum -/

/-- The timestamps by which cluster times compare; no cluster time is below all of them. -/
def timestamp (c : Option ClusterTime) : WithBot Nat := c.map (·.clusterTime)

/-- The highest cluster time among the messages. -/
def highest (messages : List Message) : WithBot Nat :=
  messages.foldr (fun m h => max (timestamp m.clusterTime) h) ⊥

theorem timestamp_none : timestamp none = ⊥ := rfl

theorem timestamp_advance (current : Option ClusterTime) (c : ClusterTime) :
    timestamp (advanceClusterTime current c) = max (timestamp current) (timestamp (some c)) := by
  cases current with
  | none => exact (max_eq_right bot_le).symm
  | some cur =>
    unfold advanceClusterTime
    simp only
    split
    · rename_i hgt
      exact (max_eq_right (WithBot.coe_le_coe.2 (Nat.le_of_lt hgt))).symm
    · rename_i hle
      exact (max_eq_left (WithBot.coe_le_coe.2 (Nat.le_of_not_lt hle))).symm

/-- The message does not set the topology back and is not lost on it: a response is not behind what the topology
has seen, and a heartbeat that is ahead of it is taken in. -/
def InOrder (t : Topology) : Message → Prop
  | .heartbeat sd => timestamp t.clusterTime < timestamp sd.clusterTime → t.accepts sd = true
  | .response _ _ none => True
  | .response _ _ (some c) => timestamp t.clusterTime ≤ timestamp (some c)

/-- A message leaves the maximum of what was there and what it carries, exactly when it is in order. -/
theorem receive_max_iff (rt : Runtime) (t : Topology) (m : Message) :
    timestamp (t.receive rt m).clusterTime = max (timestamp t.clusterTime) (timestamp m.clusterTime) ↔
      t.InOrder m := by
  cases m with
  | heartbeat sd =>
    simp only [receive, Message.clusterTime, InOrder]
    rw [serverUpdateHandler_clusterTime]
    cases hacc : t.accepts sd with
    | true =>
      cases hc : sd.clusterTime with
      | none => simp [timestamp_none]
      | some c => simp [timestamp_advance]
    | false =>
      simp
  | response server connection c =>
    cases c with
    | none => simp [receive, Message.clusterTime, InOrder, timestamp_none]
    | some c =>
      simp only [receive, Message.clusterTime, InOrder, setClusterTime]
      rw [eq_comm, max_eq_right_iff]

/-! ## Runs -/

theorem highest_append (pre : List Message) (m : Message) :
    highest (pre ++ [m]) = max (highest pre) (timestamp m.clusterTime) := by
  induction pre with
  | nil => exact (max_bot_right _).trans (max_bot_left _).symm
  | cons m' pre ih =>
    show max (timestamp m'.clusterTime) (highest (pre ++ [m])) = _
    rw [ih, ← max_assoc]
    rfl

/-- After every beginning of a run the topology has the maximum received, exactly when each message of the run
is in order. -/
theorem tracks_iff_meets (rt : Runtime) : ∀ (messages : List Message) (t : Topology),
    (∀ pre, pre <+: messages → timestamp (pre.foldl (receive rt) t).clusterTime =
        max (timestamp t.clusterTime) (highest pre)) ↔
      Run.Meets (fun t m => some (receive rt t m)) InOrder t messages
  | [], t => by
    constructor
    · intro _
      trivial
    · intro _ pre hpre
      rw [List.prefix_nil.1 hpre]
      exact (max_bot_right _).symm
  | m :: messages, t => by
    have hstep : ∀ pre, max (timestamp t.clusterTime) (highest (m :: pre)) =
        max (max (timestamp t.clusterTime) (timestamp m.clusterTime)) (highest pre) := by
      intro pre
      rw [max_assoc]
      rfl
    constructor
    · intro h
      have hm : timestamp (t.receive rt m).clusterTime =
          max (timestamp t.clusterTime) (timestamp m.clusterTime) := by
        have := h [m] (List.prefix_append [m] messages)
        rw [hstep] at this
        exact this.trans (max_bot_right _)
      refine ⟨(receive_max_iff rt t m).1 hm, ?_⟩
      rintro u ⟨⟩
      refine (tracks_iff_meets rt messages (t.receive rt m)).1 fun pre hpre => ?_
      have := h (m :: pre) (List.cons_prefix_cons.2 ⟨rfl, hpre⟩)
      rw [hstep, ← hm] at this
      exact this
    · rintro ⟨hin, hrest⟩ pre hpre
      have hm := (receive_max_iff rt t m).2 hin
      cases pre with
      | nil => exact (max_bot_right _).symm
      | cons m' pre =>
        obtain ⟨rfl, hpre'⟩ := List.cons_prefix_cons.1 hpre
        rw [hstep, ← hm]
        exact (tracks_iff_meets rt messages (t.receive rt m')).2 (hrest _ rfl) pre hpre'

/-- Over a run of heartbeats and responses the cluster time of the topology is the maximum received at every
point, and never decreases, exactly when every response carries a time not behind the topology's and every
heartbeat ahead of it is taken in. -/
theorem clusterTime_highest_iff (rt : Runtime) (t : Topology) (messages : List Message) :
    ((∀ pre, pre <+: messages → timestamp (pre.foldl (receive rt) t).clusterTime =
        max (timestamp t.clusterTime) (highest pre)) ∧
      ∀ pre m, pre ++ [m] <+: messages →
        timestamp (pre.foldl (receive rt) t).clusterTime ≤ timestamp ((pre ++ [m]).foldl (receive rt) t).clusterTime) ↔
    Run.Meets (fun t m => some (receive rt t m)) InOrder t messages := by
  rw [← tracks_iff_meets]
  constructor
  · exact fun h => h.1
  · intro h
    refine ⟨h, fun pre m hpre => ?_⟩
    rw [h pre ((List.prefix_append pre [m]).trans hpre), h (pre ++ [m]) hpre, highest_append, ← max_assoc]
    exact le_max_left _ _

def seedRuntime : Runtime := ⟨fun _ => none, some, id⟩

/-- A new topology with two seeds. -/
def seedTopology : Topology where
  description := initialDescription seedRuntime {} [.tcp "a" 27017 false, .tcp "b" 27017 false]
  servers := (initialDescription seedRuntime {} [.tcp "a" 27017 false, .tcp "b" 27017 false]).servers

/-- A response of a server whose clock is ahead, and then one of a server whose clock is behind: the topology
forgets the higher time. -/
theorem response_sets_back :
    ¬ ((∀ pre, pre <+: [Message.response "a:27017" 1 (some ⟨2⟩), .response "b:27017" 2 (some ⟨1⟩)] →
          timestamp (pre.foldl (receive seedRuntime) seedTopology).clusterTime =
            max (timestamp seedTopology.clusterTime) (highest pre)) ∧
        ∀ pre m, pre ++ [m] <+: [Message.response "a:27017" 1 (some ⟨2⟩), .response "b:27017" 2 (some ⟨1⟩)] →
          timestamp (pre.foldl (receive seedRuntime) seedTopology).clusterTime ≤
            timestamp ((pre ++ [m]).foldl (receive seedRuntime) seedTopology).clusterTime) := by
  rintro ⟨-, h⟩
  have hle : timestamp (some ⟨2⟩) ≤ timestamp (some ⟨1⟩) :=
    h [.response "a:27017" 1 (some ⟨2⟩)] (.response "b:27017" 2 (some ⟨1⟩)) (List.prefix_refl _)
  exact absurd (WithBot.coe_le_coe.1 hle) (by decide)

end Topology

end MongoDriver.Sdam
