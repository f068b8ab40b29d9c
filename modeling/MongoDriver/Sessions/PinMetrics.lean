/-
The metrics of the pool behind a load balancer. `ConnectionPoolMetrics` (`src/cmap/metrics.ts`) counts the pinned
connections by what they are pinned for, from the events `PINNED` and `UNPINNED` of the connections. The type is
computed from the transaction of the session, once by `pin` and once more by `maybeClearPinnedConnection`, and the
two do not ask the same question. The counters are right as long as both answers agree and no connection is let go
of in silence.
-/
import MongoDriver.Sessions.PinLedger
import Mathlib.Data.Set.Card

namespace MongoDriver.Sessions

/-! ## The counters -/

/-- `ConnectionPoolMetrics`. -/
structure ConnectionPoolMetrics where
  txnConnections : Int := 0
  cursorConnections : Int := 0
  otherConnections : Int := 0
deriving DecidableEq

namespace ConnectionPoolMetrics

def markPinned (m : ConnectionPoolMetrics) : PinType → ConnectionPoolMetrics
  | .txn => { m with txnConnections := m.txnConnections + 1 }
  | .cursor => { m with cursorConnections := m.cursorConnections + 1 }
  | .other => { m with otherConnections := m.otherConnections + 1 }

def markUnpinned (m : ConnectionPoolMetrics) : PinType → ConnectionPoolMetrics
  | .txn => { m with txnConnections := m.txnConnections - 1 }
  | .cursor => { m with cursorConnections := m.cursorConnections - 1 }
  | .other => { m with otherConnections := m.otherConnections - 1 }

/-- The counter for pins of a type. -/
def count (m : ConnectionPoolMetrics) : PinType → Int
  | .txn => m.txnConnections
  | .cursor => m.cursorConnections
  | .other => m.otherConnections

/-- The listeners the pool adds to each of its connections. -/
def listen (m : ConnectionPoolMetrics) : PinEmission → ConnectionPoolMetrics
  | .pinned _ pinType => m.markPinned pinType
  | .unpinned _ pinType => m.markUnpinned pinType

theorem count_markPinned (m : ConnectionPoolMetrics) (t t' : PinType) :
    (m.markPinned t).count t' = m.count t' + if t = t' then 1 else 0 := by
  cases t <;> cases t' <;> simp [markPinned, count]

theorem count_markUnpinned (m : ConnectionPoolMetrics) (t t' : PinType) :
    (m.markUnpinned t).count t' = m.count t' - if t = t' then 1 else 0 := by
  cases t <;> cases t' <;> simp [markUnpinned, count]

end ConnectionPoolMetrics

/-- What the connection was last pinned for. -/
def lastPinType (connection : Nat) (emitted : List PinEmission) : Option PinType :=
  emitted.foldl (fun last emission =>
    match emission with
    | .pinned c pinType => if c = connection then some pinType else last
    | .unpinned _ _ => last) none

section Emissions

variable (connection : Nat) (emitted : List PinEmission)

@[simp] theorem lastPinType_pinned (c : Nat) (t : PinType) : lastPinType connection (emitted ++ [.pinned c t]) =
    if c = connection then some t else lastPinType connection emitted := by
  simp [lastPinType]

@[simp] theorem lastPinType_unpinned (c : Nat) (t : PinType) :
    lastPinType connection (emitted ++ [.unpinned c t]) = lastPinType connection emitted := by
  simp [lastPinType]

end Emissions

/-- What a connection is pinned for is whether the session is in a transaction when it pins it. -/
theorem lastPinType_connected {w : PinWorld} {k c : Nat} (h : (w.sessions k).pinnedConnection = none) :
    lastPinType c (w.connected (.pin k) c).emitted =
      some (if (w.sessions k).state.isActive then .txn else .cursor) := by
  rw [(connected_of_unpinned h).2, lastPinType_pinned, if_pos rfl]
  rfl

/-- The metrics of the pool. -/
def PinWorld.metrics (w : PinWorld) : ConnectionPoolMetrics := w.emitted.foldl ConnectionPoolMetrics.listen {}

/-- The connections that are pinned, and were pinned for what the type says. -/
def PinWorld.pinnedFor (w : PinWorld) (t : PinType) : Set Nat :=
  {c | (∃ k, w.ledger.held k = some c) ∧ lastPinType c w.emitted = some t}

/-- The counters are the numbers of connections pinned for a transaction and for a cursor. -/
structure PinWorld.Metered (w : PinWorld) : Prop where
  txn : w.metrics.txnConnections = (w.pinnedFor .txn).ncard
  cursor : w.metrics.cursorConnections = (w.pinnedFor .cursor).ncard

/-- Every pinned connection was pinned for a transaction or for a cursor. -/
def PinWorld.Typed (w : PinWorld) : Prop :=
  ∀ k c, w.ledger.held k = some c → lastPinType c w.emitted = some .txn ∨ lastPinType c w.emitted = some .cursor

theorem pinnedFor_finite {w : PinWorld} (ha : w.ledger.Apart) (t : PinType) : (w.pinnedFor t).Finite := by
  refine (Set.finite_lt_nat w.created).subset ?_
  rintro c ⟨⟨k, hk⟩, -⟩
  exact (ha.outside k c hk).1

/-! ## A connection is let go of -/

/-- A pinned connection that its session lets go of. -/
structure Loss where
  session : Nat
  /-- of the transaction at that time -/
  state : TxnState
  /-- `UNPINNED` is emitted -/
  announced : Bool

/-- What the connection emits. -/
def Loss.emissions (l : Loss) (connection : Nat) : List PinEmission :=
  if l.announced then [.unpinned connection l.state.unpinnedAs] else []

/-- What a call does with the pins: it leaves them alone, or one session lets go of its connection. -/
inductive Loses (w w' : PinWorld) : Option Loss → Prop
  | nothing (held : w'.ledger.held = w.ledger.held) (emitted : w'.emitted = w.emitted) : Loses w w' none
  | lost {l : Loss} {c : Nat} (held : w.ledger.held l.session = some c)
      (after : w'.ledger.held = Function.update w.ledger.held l.session none)
      (emitted : w'.emitted = w.emitted ++ l.emissions c) : Loses w w' (some l)

/-- The loss is announced, with the type the connection was pinned with. -/
def PinWorld.Fair (w : PinWorld) (l : Loss) : Prop :=
  l.announced = true ∧
    ∀ c, w.ledger.held l.session = some c → (l.state ≠ .noTransaction ↔ lastPinType c w.emitted = some .txn)

section Loses

variable {w w' : PinWorld} {loss : Option Loss}

theorem Loses.same (h : w'.ledger = w.ledger) (he : w'.emitted = w.emitted) : Loses w w' none :=
  .nothing (by rw [h]) he

theorem Loses.congr {w₁ w₂ : PinWorld} (hl : Loses w w' loss) (h₁ : w₁.ledger = w.ledger) (h₂ : w₂.ledger = w'.ledger)
    (he₁ : w₁.emitted = w.emitted) (he₂ : w₂.emitted = w'.emitted) : Loses w₁ w₂ loss := by
  cases hl with
  | nothing held emitted => exact .nothing (by rw [h₂, held, h₁]) (by rw [he₂, emitted, he₁])
  | lost held after emitted =>
    exact .lost (by rw [h₁]; exact held) (by rw [h₂, after, h₁]) (by rw [he₂, emitted, he₁])

section Lost

variable {l : Loss} {c : Nat}

theorem metrics_append (h : w'.emitted = w.emitted ++ l.emissions c) (t : PinType) :
    w'.metrics.count t =
      w.metrics.count t - if l.announced = true ∧ l.state.unpinnedAs = t then 1 else 0 := by
  unfold PinWorld.metrics
  rw [h, List.foldl_append, Loss.emissions]
  cases l.announced with
  | true => simp [ConnectionPoolMetrics.listen, ConnectionPoolMetrics.count_markUnpinned]
  | false => simp

theorem lastPinType_append (h : w'.emitted = w.emitted ++ l.emissions c) (c' : Nat) :
    lastPinType c' w'.emitted = lastPinType c' w.emitted := by
  rw [h, Loss.emissions]
  cases l.announced with
  | true => exact lastPinType_unpinned ..
  | false => simp

/-- Only the connection that is let go of is not pinned any more. -/
theorem pinnedFor_lost (ha : w.ledger.Apart) (held : w.ledger.held l.session = some c)
    (after : w'.ledger.held = Function.update w.ledger.held l.session none)
    (emitted : w'.emitted = w.emitted ++ l.emissions c) (t : PinType) : w'.pinnedFor t = w.pinnedFor t \ {c} := by
  ext c'
  simp only [PinWorld.pinnedFor, Set.mem_sdiff, Set.mem_ofPred_eq, Set.mem_singleton_iff, lastPinType_append emitted,
    after]
  constructor
  · rintro ⟨⟨k, hk⟩, ht⟩
    have hne : k ≠ l.session := fun he => by rw [he, Function.update_self] at hk; cases hk
    rw [Function.update_of_ne hne] at hk
    refine ⟨⟨⟨k, hk⟩, ht⟩, fun he => hne (ha.unique k l.session c (he ▸ hk) held)⟩
  · rintro ⟨⟨⟨k, hk⟩, ht⟩, hc⟩
    have hne : k ≠ l.session := fun he => by rw [he, held] at hk; cases hk; exact hc rfl
    refine ⟨⟨k, ?_⟩, ht⟩
    rw [Function.update_of_ne hne]
    exact hk

theorem ncard_lost (ha : w.ledger.Apart) (held : w.ledger.held l.session = some c)
    (after : w'.ledger.held = Function.update w.ledger.held l.session none)
    (emitted : w'.emitted = w.emitted ++ l.emissions c) (t : PinType) :
    ((w'.pinnedFor t).ncard : Int) =
      (w.pinnedFor t).ncard - if lastPinType c w.emitted = some t then 1 else 0 := by
  rw [pinnedFor_lost ha held after emitted t]
  by_cases hc : lastPinType c w.emitted = some t
  · have hmem : c ∈ w.pinnedFor t := ⟨⟨_, held⟩, hc⟩
    have hcard := Set.ncard_sdiff_singleton_add_one hmem (pinnedFor_finite ha t)
    rw [if_pos hc]
    omega
  · have hnot : c ∉ w.pinnedFor t := fun h => hc h.2
    rw [if_neg hc, Set.sdiff_singleton_eq_self hnot]
    omega

end Lost

/-- After a call the counters are right when the connection it lets go of, if any, is announced as what it was pinned
for. -/
theorem Loses.metered_iff (ha : w.ledger.Apart) (ht : w.Typed) (hm : w.Metered) (hl : Loses w w' loss) :
    w'.Metered ↔ ∀ l ∈ loss, w.Fair l := by
  cases hl with
  | nothing held emitted =>
    have hpinned : ∀ t, w'.pinnedFor t = w.pinnedFor t := by
      intro t
      unfold PinWorld.pinnedFor
      rw [held, emitted]
    have hmetrics : w'.metrics = w.metrics := by
      unfold PinWorld.metrics
      rw [emitted]
    exact iff_of_true ⟨by rw [hmetrics, hpinned]; exact hm.txn, by rw [hmetrics, hpinned]; exact hm.cursor⟩ nofun
  | @lost l c held after emitted =>
    have htxn : w'.metrics.txnConnections = _ := metrics_append emitted .txn
    have hcursor : w'.metrics.cursorConnections = _ := metrics_append emitted .cursor
    have hntxn := ncard_lost ha held after emitted .txn
    have hncursor := ncard_lost ha held after emitted .cursor
    have hfair : (∀ l' ∈ some l, w.Fair l') ↔
        l.announced = true ∧ (l.state ≠ .noTransaction ↔ lastPinType c w.emitted = some .txn) := by
      simp [PinWorld.Fair, held]
    have hmetered : w'.Metered ↔ w'.metrics.txnConnections = (w'.pinnedFor .txn).ncard ∧
        w'.metrics.cursorConnections = (w'.pinnedFor .cursor).ncard :=
      ⟨fun h => ⟨h.txn, h.cursor⟩, fun h => ⟨h.1, h.2⟩⟩
    rw [hfair, hmetered, htxn, hcursor, hntxn, hncursor]
    simp only [ConnectionPoolMetrics.count, hm.txn, hm.cursor, TxnState.unpinnedAs]
    -- the counter that goes down and the set that gets smaller
    rcases ht _ c held with hlast | hlast <;> by_cases hstate : l.state = .noTransaction <;>
      cases l.announced <;> simp [hlast, hstate] <;> omega

theorem Loses.typed (ht : w.Typed) (hl : Loses w w' loss) : w'.Typed := by
  cases hl with
  | nothing held emitted =>
    unfold PinWorld.Typed
    rw [held, emitted]
    exact ht
  | @lost l c held after emitted =>
    intro k c' hk
    have hne : k ≠ l.session := fun he => by rw [he, after, Function.update_self] at hk; cases hk
    rw [after, Function.update_of_ne hne] at hk
    rw [lastPinType_append emitted]
    exact ht k c' hk

end Loses

/-! ## A connection is pinned -/

/-- A connection that no session holds is pinned to one that holds none. -/
structure Pins (w w' : PinWorld) (k c : Nat) (state : TxnState) : Prop where
  unheld : w.ledger.held k = none
  free : ∀ k', w.ledger.held k' ≠ some c
  held : w'.ledger.held = Function.update w.ledger.held k (some c)
  emitted : w'.emitted = w.emitted ++ [.pinned c state.pinnedAs]

section Pins

variable {w w' : PinWorld} {k c : Nat} {state : TxnState}

theorem pinnedAs_cases (state : TxnState) : state.pinnedAs = .txn ∨ state.pinnedAs = .cursor := by
  unfold TxnState.pinnedAs
  split
  · exact .inl rfl
  · exact .inr rfl

theorem Pins.typed (hp : Pins w w' k c state) (ht : w.Typed) : w'.Typed := by
  intro k' c' hk
  rw [hp.emitted, lastPinType_pinned]
  by_cases hc : c = c'
  · simpa [hc] using pinnedAs_cases state
  · rw [if_neg hc]
    have hne : k' ≠ k := by
      intro he
      rw [hp.held, he, Function.update_self] at hk
      exact hc (Option.some.inj hk)
    rw [hp.held, Function.update_of_ne hne] at hk
    exact ht k' c' hk

theorem Pins.pinnedFor (hp : Pins w w' k c state) (t : PinType) :
    w'.pinnedFor t = if state.pinnedAs = t then insert c (w.pinnedFor t) else w.pinnedFor t := by
  have hheld : ∀ c', (∃ k', w'.ledger.held k' = some c') ↔ c' = c ∨ ∃ k', w.ledger.held k' = some c' := by
    intro c'
    rw [hp.held]
    constructor
    · rintro ⟨k', hk⟩
      by_cases hkk : k' = k
      · rw [hkk, Function.update_self] at hk
        exact .inl (Option.some.inj hk).symm
      · rw [Function.update_of_ne hkk] at hk
        exact .inr ⟨k', hk⟩
    · rintro (rfl | ⟨k', hk⟩)
      · exact ⟨k, Function.update_self ..⟩
      · have hkk : k' ≠ k := fun he => by rw [he, hp.unheld] at hk; cases hk
        exact ⟨k', by rw [Function.update_of_ne hkk]; exact hk⟩
  have hmem : ∀ c', c' ∈ w'.pinnedFor t ↔ c' = c ∧ state.pinnedAs = t ∨ c' ∈ w.pinnedFor t := by
    intro c'
    simp only [PinWorld.pinnedFor, Set.mem_ofPred_eq, hheld, hp.emitted, lastPinType_pinned]
    by_cases hc : c' = c
    · subst hc
      simp [hp.free]
    · simp [hc, Ne.symm hc]
  ext c'
  rw [hmem]
  split
  · rename_i ht
    simp [ht]
  · rename_i ht
    simp [ht]

theorem Pins.metered (hp : Pins w w' k c state) (ha : w.ledger.Apart) (hm : w.Metered) : w'.Metered := by
  have hcount : ∀ t, w'.metrics.count t = w.metrics.count t + if state.pinnedAs = t then 1 else 0 := by
    intro t
    unfold PinWorld.metrics
    rw [hp.emitted, List.foldl_append]
    exact ConnectionPoolMetrics.count_markPinned _ _ t
  have hcard : ∀ t, ((w'.pinnedFor t).ncard : Int) = (w.pinnedFor t).ncard + if state.pinnedAs = t then 1 else 0 := by
    intro t
    have hnot : c ∉ w.pinnedFor t := fun ⟨⟨k', hk⟩, _⟩ => hp.free k' hk
    rw [hp.pinnedFor t]
    by_cases ht : state.pinnedAs = t
    · rw [if_pos ht, if_pos ht, Set.ncard_insert_of_notMem hnot (pinnedFor_finite ha t)]
      rfl
    · rw [if_neg ht, if_neg ht, Int.add_zero]
  constructor
  · rw [hcard, ← hm.txn]
    exact hcount .txn
  · rw [hcard, ← hm.cursor]
    exact hcount .cursor

end Pins

/-! ## The calls that let go of a connection -/

/-- What a session loses when its connection is cleared. -/
def Clearing.loss (c : Clearing) (s : PinSession) : Option Loss :=
  if s.isPinned && !(s.atClearing c).keepsPin c.options then
    some
      { session := c.session, state := c.state
        announced := c.options.error.isNone || c.options.force = some true }
  else none

/-- What an event makes a session let go of. -/
def PinWorld.loss (w : PinWorld) (e : PinWorld.PinEvent) : Option Loss :=
  (w.clearing e).bind fun c => c.loss (w.sessions c.session)

section Calls

variable {w w' : PinWorld}

theorem checkIn_emitted (w : PinWorld) (c : Nat) : (w.checkIn c).emitted = w.emitted := by
  unfold PinWorld.checkIn
  dsimp only
  split <;> rfl

theorem handOut_emitted {c : Nat} {handed : PinWorld.Handed} (h : w.handOut handed = some (c, w')) :
    w'.emitted = w.emitted := by
  cases handed with
  | created => cases h; rfl
  | available connection =>
    simp only [PinWorld.handOut] at h
    split at h
    · cases h; rfl
    · cases h

/-- The connection is checked in, and emits what its session is in. -/
theorem returned_emitted (w : PinWorld) (k c : Nat) (options : EndSessionOptions) (s : PinSession) (t : PinType) :
    ((if options.forceClear then ((w.checkIn c).emit (.unpinned c t)).note (.clear c)
      else (w.checkIn c).emit (.unpinned c t)).setSession k s).emitted = w.emitted ++ [.unpinned c t] := by
  cases options.forceClear with
  | true => exact congrArg (· ++ [PinEmission.unpinned c t]) (checkIn_emitted w c)
  | false => exact congrArg (· ++ [PinEmission.unpinned c t]) (checkIn_emitted w c)

theorem maybeClear_loses (w : PinWorld) (k : Nat) (options : EndSessionOptions) :
    Loses w (w.maybeClearPinnedConnection k options)
      ((Clearing.mk k (w.sessions k).state options).loss (w.sessions k)) := by
  have hat : (w.sessions k).atClearing ⟨k, (w.sessions k).state, options⟩ = w.sessions k := rfl
  unfold Clearing.loss
  rw [hat]
  cases hkeep : (w.sessions k).keepsPin options with
  | true =>
    rw [maybeClear_of_kept hkeep, if_neg (by simp)]
    exact .same rfl rfl
  | false =>
    cases hpin : (w.sessions k).pinnedConnection with
    | none =>
      rw [maybeClear_of_unpinned hpin, if_neg (by simp [PinSession.isPinned, hpin])]
      exact .same rfl rfl
    | some c =>
      rw [if_pos (by simp [PinSession.isPinned, hpin])]
      refine .lost hpin ((maybeClear_clears w k options).held_after hkeep) ?_
      unfold PinSession.keepsPin at hkeep
      unfold PinWorld.maybeClearPinnedConnection
      simp only [hkeep, Bool.false_eq_true, if_false, hpin, Loss.emissions]
      split
      · exact returned_emitted w k c options _ _
      · exact (List.append_nil _).symm

/-- What a call makes a session lose is what the clearing in it does. -/
theorem Gives.loses {clearing : Option Clearing} (h : Gives w w' clearing) :
    Loses w w' (clearing.bind fun c => c.loss (w.sessions c.session)) := by
  cases h with
  | nothing h => exact .same h.ledger h.emitted
  | @clears c w₁ h hs h' =>
    have hl := maybeClear_loses (w₁.setState c.session c.state) c.session c.options
    rw [setState_session, hs] at hl
    have hstate := setState_alike w₁ c.session c.state
    exact hl.congr (h.ledger.symm.trans hstate.ledger.symm) h'.ledger (h.emitted.symm.trans hstate.emitted.symm)
      h'.emitted

end Calls

/-! ## Runs -/

/-- The condition on an event: a connection that is let go of is announced, and the state of the transaction at that
time is not `NO_TRANSACTION` exactly when it was pinned for a transaction. -/
def PinWorld.Announces (w : PinWorld) (e : PinWorld.PinEvent) : Prop := ∀ l ∈ w.loss e, w.Fair l

section Runs

variable {w w' : PinWorld} {e : PinWorld.PinEvent}

theorem step_loses_or_pins (ha : w.ledger.Apart) (hstep : w.step e = some w') :
    Loses w w' (w.loss e) ∨ w.loss e = none ∧ ∃ k c state, Pins w w' k c state := by
  by_cases he : e.transfers = true
  · cases e with
    | handOut position handed =>
      simp only [PinWorld.step, Option.bind_eq_bind, Option.bind_eq_some_iff] at hstep
      obtain ⟨waiter, -, ⟨c, w₁⟩, hhand, hstep⟩ := hstep
      cases hstep
      obtain ⟨-, hf, hheld⟩ := handOut_free ha hhand
      have hemitted : w₁.emitted = w.emitted := handOut_emitted hhand
      cases waiter with
      | plain => exact .inl (.nothing hheld hemitted)
      | pin k =>
        let w₂ : PinWorld := { w₁ with waiting := w₁.waiting.eraseIdx position }
        by_cases hpinned : (w₁.sessions k).isPinned = true
        · have hsame : w₂.connected (.pin k) c = w₂ := connected_of_pinned hpinned
          left
          show Loses w (w₂.connected (.pin k) c) none
          rw [hsame]
          exact .nothing hheld hemitted
        · right
          have hnone : (w₁.sessions k).pinnedConnection = none := by simpa [PinSession.isPinned] using hpinned
          have hconn := connected_of_unpinned (w := w₂) (c := c) hnone
          refine ⟨rfl, k, c, (w₁.sessions k).state, ?_, ?_, ?_, ?_⟩
          · rw [← hheld]
            exact hnone
          · rw [← hheld]
            exact hf.held
          · rw [hconn.1, ← hheld]
            rfl
          · rw [hconn.2, ← hemitted]
    | checkIn connection =>
      simp only [PinWorld.step] at hstep
      split at hstep
      · cases hstep
        obtain ⟨hsessions, -⟩ := checkIn_frame { w with borrowed := w.borrowed.erase connection } connection
        exact .inl (.nothing (by simp only [PinWorld.ledger, hsessions]) (checkIn_emitted ..))
      · cases hstep
    | _ => cases he
  · exact .inl (step_gives (Bool.eq_false_iff.2 he) hstep).loses

theorem step_typed (ha : w.ledger.Apart) (hstep : w.step e = some w') (ht : w.Typed) : w'.Typed := by
  rcases step_loses_or_pins ha hstep with hl | ⟨-, k, c, state, hp⟩
  · exact hl.typed ht
  · exact hp.typed ht

theorem step_metered_iff (ha : w.ledger.Apart) (ht : w.Typed) (hm : w.Metered) (hstep : w.step e = some w') :
    w'.Metered ↔ w.Announces e := by
  unfold PinWorld.Announces
  rcases step_loses_or_pins ha hstep with hl | ⟨hnone, k, c, state, hp⟩
  · exact hl.metered_iff ha ht hm
  · rw [hnone]
    exact iff_of_true (hp.metered ha hm) nofun

end Runs

/-- Before any pin the counters are zero. -/
theorem start_metered : ({} : PinWorld).Typed ∧ ({} : PinWorld).Metered := by
  have hempty : ∀ t, ({} : PinWorld).pinnedFor t = ∅ := by
    intro t
    ext c
    simp [PinWorld.pinnedFor, PinWorld.ledger]
  refine ⟨fun k c hk => (by cases hk), ⟨?_, ?_⟩⟩
  · rw [hempty, Set.ncard_empty]
    rfl
  · rw [hempty, Set.ncard_empty]
    rfl

/-- Over every run of the sessions of a client behind a load balancer: in every state the counters of the pool are not
negative, and are the numbers of pinned connections that were pinned for a transaction and for a cursor, exactly when
every connection that is let go of is announced, and in a state of the transaction that tells what it was pinned
for. -/
theorem pin_metrics_iff (events : List PinWorld.PinEvent) (w : PinWorld)
    (hrun : Run.exec PinWorld.step {} events = some w) :
    Run.Meets PinWorld.step PinWorld.Announces {} events ↔
      ∀ es₁ es₂ v, events = es₁ ++ es₂ → Run.exec PinWorld.step {} es₁ = some v →
        0 ≤ v.metrics.txnConnections ∧ 0 ≤ v.metrics.cursorConnections ∧
          v.metrics.txnConnections = (v.pinnedFor .txn).ncard ∧
          v.metrics.cursorConnections = (v.pinnedFor .cursor).ncard := by
  have hinv : ∀ (u : PinWorld) (e : PinWorld.PinEvent) (v : PinWorld), u.ledger.Apart ∧ u.Typed → u.step e = some v →
      v.ledger.Apart ∧ v.Typed := by
    rintro u e v ⟨ha, ht⟩ hstep
    exact ⟨(step_does ha hstep).apart ha, step_typed ha hstep ht⟩
  have hgood : ∀ (u : PinWorld) (e : PinWorld.PinEvent) (v : PinWorld), (u.ledger.Apart ∧ u.Typed) ∧ u.Metered →
      u.step e = some v → ((v.ledger.Apart ∧ v.Typed) ∧ v.Metered ↔ u.Announces e) := by
    rintro u e v ⟨⟨ha, ht⟩, hm⟩ hstep
    rw [and_iff_right (hinv u e v ⟨ha, ht⟩ hstep)]
    exact step_metered_iff ha ht hm hstep
  have hstart : ({} : PinWorld).ledger.Apart ∧ ({} : PinWorld).Typed := ⟨start_apart, start_metered.1⟩
  rw [Run.meets_iff PinWorld.step hgood ⟨hstart, start_metered.2⟩ hrun]
  constructor
  · intro h es₁ es₂ v hes hv
    obtain ⟨-, htxn, hcursor⟩ := h es₁ es₂ v hes hv
    refine ⟨?_, ?_, htxn, hcursor⟩
    · rw [htxn]
      exact Int.natCast_nonneg _
    · rw [hcursor]
      exact Int.natCast_nonneg _
  · intro h es₁ es₂ v hes hv
    obtain ⟨-, -, htxn, hcursor⟩ := h es₁ es₂ v hes hv
    exact ⟨Run.exec_inv PinWorld.step hinv hstart hv, htxn, hcursor⟩

/-- The cursor is read to its end: its connection is counted while it is pinned. -/
theorem find_metered :
    (Run.exec PinWorld.step {} (pinsForFind ++ [.cleanupCursor 0 false none])).map
      (fun w => (w.emitted, w.metrics)) = some ([.pinned 0 .cursor, .unpinned 0 .cursor], {}) ∧
    ∀ es₁ es₂ v, pinsForFind ++ [.cleanupCursor 0 false none] = es₁ ++ es₂ →
      Run.exec PinWorld.step {} es₁ = some v →
        0 ≤ v.metrics.txnConnections ∧ 0 ≤ v.metrics.cursorConnections ∧
          v.metrics.txnConnections = (v.pinnedFor .txn).ncard ∧
          v.metrics.cursorConnections = (v.pinnedFor .cursor).ncard := by
  have hrun : (Run.exec PinWorld.step {} (pinsForFind ++ [.cleanupCursor 0 false none])).map
      (fun w => (w.emitted, w.metrics)) = some ([.pinned 0 .cursor, .unpinned 0 .cursor], {}) := by
    decide
  have hmeets : Run.Meets PinWorld.step PinWorld.Announces {} (pinsForFind ++ [.cleanupCursor 0 false none]) := by
    refine ⟨fun l hl => (by cases hl), fun t ht => ⟨fun l hl => (by cases hl), fun u hu => ⟨?_, fun _ _ => trivial⟩⟩⟩
    cases ht
    cases hu
    intro l hl
    cases hl
    refine ⟨rfl, fun c hc => ?_⟩
    cases hc
    decide
  obtain ⟨w, hw, -⟩ := Option.map_eq_some_iff.1 hrun
  exact ⟨hrun, (pin_metrics_iff _ w hw).1 hmeets⟩

/-- A transaction is begun and committed, empty, while a cursor is open. When the next one begins, the connection of the
cursor is let go of, and it is taken off the connections pinned for a transaction. -/
theorem cursor_unpinned_as_transaction :
    ∃ w, Run.exec PinWorld.step {} (pinsForFind ++
        [.startTransaction 0 false, .endTransaction 0 .commitTransaction, .startTransaction 0 false]) = some w ∧
      w.emitted = [.pinned 0 .cursor, .unpinned 0 .txn] ∧ (w.sessions 0).pinnedConnection = none ∧
      w.metrics.txnConnections = -1 ∧ w.metrics.cursorConnections = 1 ∧ ¬ 0 ≤ w.metrics.txnConnections := by
  have hrun : (Run.exec PinWorld.step {} (pinsForFind ++
      [.startTransaction 0 false, .endTransaction 0 .commitTransaction, .startTransaction 0 false])).map
        (fun w => (w.emitted, (w.sessions 0).pinnedConnection, w.metrics.txnConnections,
          w.metrics.cursorConnections)) = some ([.pinned 0 .cursor, .unpinned 0 .txn], none, -1, 1) := by
    decide
  obtain ⟨w, hw, hafter⟩ := Option.map_eq_some_iff.1 hrun
  simp only [Prod.mk.injEq] at hafter
  obtain ⟨hemitted, hpinned, htxn, hcursor⟩ := hafter
  refine ⟨w, hw, hemitted, hpinned, htxn, hcursor, ?_⟩
  rw [htxn]
  decide

end MongoDriver.Sessions
