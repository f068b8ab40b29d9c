/-
What becomes of pinned connections. A connection is in the pool, lent to a command, or pinned to one session, so that
while a session holds it no one checks it in. A session that lets go of its connection checks it in, except where
`maybeClearPinnedConnection` is called with an error and without force: then the connection is forgotten, and the
pool never gets it back.
-/
import MongoDriver.Base.Run
import MongoDriver.Sessions.Clearing
import Mathlib.Data.List.Nodup

namespace MongoDriver.Sessions

/-! ## The ledger -/

/-- How often the connection was checked in since it was last pinned. -/
def checkInsSincePin (connection : Nat) (uses : List PoolUse) : Nat :=
  uses.foldl (fun n use =>
    match use with
    | .pin _ c => if c = connection then 0 else n
    | .checkIn c => if c = connection then n + 1 else n
    | .checkOut _ | .clear _ => n) 0

section CheckIns

variable (connection : Nat) (uses : List PoolUse)

@[simp] theorem checkInsSincePin_checkIn (c : Nat) : checkInsSincePin connection (uses ++ [.checkIn c]) =
    if c = connection then checkInsSincePin connection uses + 1 else checkInsSincePin connection uses := by
  simp [checkInsSincePin]

@[simp] theorem checkInsSincePin_pin (k c : Nat) : checkInsSincePin connection (uses ++ [.pin k c]) =
    if c = connection then 0 else checkInsSincePin connection uses := by
  simp [checkInsSincePin]

@[simp] theorem checkInsSincePin_checkOut (c : Nat) :
    checkInsSincePin connection (uses ++ [.checkOut c]) = checkInsSincePin connection uses := by
  simp [checkInsSincePin]

@[simp] theorem checkInsSincePin_clear (c : Nat) :
    checkInsSincePin connection (uses ++ [.clear c]) = checkInsSincePin connection uses := by
  simp [checkInsSincePin]

/-- A connection that is checked in, and whose service is perhaps cleared. -/
theorem checkInsSincePin_returned {connection c : Nat} {uses uses' : List PoolUse}
    (h : uses' = uses ++ [.checkIn c] ∨ uses' = uses ++ [.checkIn c] ++ [.clear c]) :
      checkInsSincePin connection uses' =
      if c = connection then checkInsSincePin connection uses + 1 else checkInsSincePin connection uses := by
  rcases h with rfl | rfl
  · exact checkInsSincePin_checkIn connection uses c
  · rw [checkInsSincePin_clear, checkInsSincePin_checkIn]

end CheckIns

/-- Every connection is in one place, and one that is pinned has not been checked in since. -/
structure Ledger.Apart (l : Ledger) : Prop where
  unique : ∀ k k' c, l.held k = some c → l.held k' = some c → k = k'
  outside : ∀ k c, l.held k = some c → c < l.created ∧ c ∉ l.available ++ l.borrowed
  pool : (l.available ++ l.borrowed).Nodup
  known : ∀ c ∈ l.available ++ l.borrowed, c < l.created
  kept : ∀ k c, l.held k = some c → checkInsSincePin c l.uses = 0

/-- What a session let go of was checked in once since it was pinned. -/
def Ledger.Released (l l' : Ledger) : Prop :=
  ∀ k c, l.held k = some c → l'.held k ≠ some c → checkInsSincePin c l'.uses = 1

/-- What a session still holds was not checked in since it was pinned, by anyone. -/
def Ledger.Kept (l : Ledger) : Prop := ∀ k c, l.held k = some c → checkInsSincePin c l.uses = 0

/-- What a step does with the pins: they are kept, one is returned to the pool, or one is forgotten. -/
inductive Effect (l l' : Ledger) : (leaks : Bool) → Prop
  | keeps (held : ∀ k c, l.held k = some c → l'.held k = some c) : Effect l l' false
  | returned {k c : Nat} (held : l.held k = some c) (after : l'.held = Function.update l.held k none)
      (uses : checkInsSincePin c l'.uses = checkInsSincePin c l.uses + 1) : Effect l l' false
  | forgot {k c : Nat} (held : l.held k = some c) (after : l'.held = Function.update l.held k none)
      (uses : l'.uses = l.uses) : Effect l l' true

theorem Effect.released_iff {l l' : Ledger} {leaks : Bool} (ha : l.Apart) (he : Effect l l' leaks) :
    l.Released l' ↔ leaks = false := by
  cases he with
  | keeps held => exact iff_of_true (fun k c hk hne => absurd (held k c hk) hne) rfl
  | @returned k c held after uses =>
    refine iff_of_true (fun k' c' hk hne => ?_) rfl
    have hkk : k' = k := by
      by_contra hkk
      rw [after, Function.update_of_ne hkk] at hne
      exact hne hk
    subst hkk
    rw [held] at hk
    cases hk
    rw [uses, ha.kept k' c held]
  | @forgot k c held after uses =>
    refine iff_of_false (fun hr => ?_) nofun
    have hone := hr k c held (by rw [after, Function.update_self]; nofun)
    rw [uses, ha.kept k c held] at hone
    cases hone

/-! ## Giving up a connection -/

/-- The error leaves a session in its transaction pinned. -/
def PinSession.keepsPin (s : PinSession) (options : EndSessionOptions) : Bool :=
  s.inTransaction && options.error.any fun e => e.isMongoError && e.hasErrorLabel "TransientTransactionError"

/-- `maybeClearPinnedConnection` forgets the connection of the session: it has one, and there is an error and no
force. -/
def PinSession.forgets (s : PinSession) (options : EndSessionOptions) : Bool :=
  s.isPinned && !s.keepsPin options && options.error.isSome && options.force ≠ some true

section Clear

variable {w : PinWorld} {k : Nat} {options : EndSessionOptions}

/-- What `maybeClearPinnedConnection` does: nothing, or it returns the connection, or it forgets it. -/
inductive Clears (w : PinWorld) (k : Nat) (options : EndSessionOptions) (w' : PinWorld) : (leaks : Bool) → Prop
  | nothing (why : w.ledger.held k = none ∨ (w.sessions k).keepsPin options = true) (eq : w' = w) :
      Clears w k options w' false
  | returned {c : Nat} (held : w.ledger.held k = some c)
      (available : w'.available = w.available ∨ w'.available = c :: w.available)
      (uses : w'.uses = w.uses ++ [.checkIn c] ∨ w'.uses = w.uses ++ [.checkIn c] ++ [.clear c])
      (ledger : w'.ledger =
        { w.ledger with held := Function.update w.ledger.held k none, available := w'.available, uses := w'.uses }) :
      Clears w k options w' false
  | forgot {c : Nat} (held : w.ledger.held k = some c)
      (ledger : w'.ledger = { w.ledger with held := Function.update w.ledger.held k none }) : Clears w k options w' true

/-- Checking in a connection writes it down, and puts it back unless it is destroyed. -/
theorem checkIn_frame (w : PinWorld) (c : Nat) : (w.checkIn c).sessions = w.sessions ∧
    (w.checkIn c).borrowed = w.borrowed ∧ (w.checkIn c).created = w.created ∧ (w.checkIn c).uses =
      w.uses ++ [.checkIn c] ∧
    ((w.checkIn c).available = w.available ∨ (w.checkIn c).available = c :: w.available) := by
  unfold PinWorld.checkIn
  by_cases hs : (w.note (.checkIn c)).spoiled.contains c = true
  · simp only [hs, if_true]
    exact ⟨rfl, rfl, rfl, rfl, .inl rfl⟩
  · simp only [hs]
    exact ⟨rfl, rfl, rfl, rfl, .inr rfl⟩

theorem maybeClear_of_kept (h : (w.sessions k).keepsPin options = true) :
    w.maybeClearPinnedConnection k options = w := by
  unfold PinSession.keepsPin at h
  unfold PinWorld.maybeClearPinnedConnection
  rw [if_pos h]

theorem maybeClear_clears (w : PinWorld) (k : Nat) (options : EndSessionOptions) :
    Clears w k options (w.maybeClearPinnedConnection k options) ((w.sessions k).forgets options) := by
  cases hkeep : (w.sessions k).keepsPin options with
  | true =>
    rw [maybeClear_of_kept hkeep, show (w.sessions k).forgets options = false by simp [PinSession.forgets, hkeep]]
    exact .nothing (.inr hkeep) rfl
  | false =>
    have hgo : ¬ ((w.sessions k).inTransaction &&
        options.error.any fun e => e.isMongoError && e.hasErrorLabel "TransientTransactionError") = true := by
      unfold PinSession.keepsPin at hkeep
      simp [hkeep]
    unfold PinWorld.maybeClearPinnedConnection
    rw [if_neg hgo]
    cases hpin : (w.sessions k).pinnedConnection with
    | none =>
      rw [show (w.sessions k).forgets options = false by simp [PinSession.forgets, PinSession.isPinned, hpin]]
      exact .nothing (.inl hpin) rfl
    | some c =>
      by_cases hin : (options.error.isNone || options.force = some true) = true
      · have hforgets : (w.sessions k).forgets options = false := by
          simp only [Bool.or_eq_true, Option.isNone_iff_eq_none, decide_eq_true_eq] at hin
          rcases hin with hin | hin <;> simp [PinSession.forgets, hin]
        obtain ⟨hsessions, hborrowed, hcreated, huses, havailable⟩ := checkIn_frame w c
        have hledger : ∀ w₁ : PinWorld, w₁.sessions = w.sessions → w₁.borrowed = w.borrowed → w₁.created = w.created →
            (w₁.setSession k { w.sessions k with pinnedConnection := none }).ledger =
              { w.ledger with
                held := Function.update w.ledger.held k none, available := w₁.available, uses := w₁.uses } := by
          intro w₁ hs hb hc
          rw [ledger_setSession]
          refine Ledger.ext ?_ rfl hb hc rfl
          simp only [PinWorld.ledger, hs]
        simp only [if_pos hin]
        rw [hforgets]
        by_cases hclear : options.forceClear = true
        · simp only [hclear, if_true]
          exact .returned hpin havailable (.inr (by rw [← huses]; rfl)) (hledger _ hsessions hborrowed hcreated)
        · simp only [hclear]
          exact .returned hpin havailable (.inl huses) (hledger _ hsessions hborrowed hcreated)
      · have hforgets : (w.sessions k).forgets options = true := by
          simp only [Bool.or_eq_true, Option.isNone_iff_eq_none, decide_eq_true_eq, not_or] at hin
          simp [PinSession.forgets, PinSession.isPinned, hpin, hkeep, hin.2, Option.isSome_iff_ne_none, hin.1]
        simp only [if_neg hin]
        rw [hforgets]
        exact .forgot hpin (ledger_setSession w k _)

theorem Clears.effect {w' : PinWorld} {leaks : Bool} (hc : Clears w k options w' leaks) :
    Effect w.ledger w'.ledger leaks := by
  cases hc with
  | nothing _ eq => rw [eq]; exact .keeps fun _ _ h => h
  | @returned c held _ uses ledger =>
    have huses : checkInsSincePin c w'.uses = checkInsSincePin c w.uses + 1 := by
      rw [checkInsSincePin_returned uses, if_pos rfl]
    exact .returned held (by rw [ledger]) huses
  | forgot held ledger => exact .forgot held (by rw [ledger]) (by rw [ledger])

/-- A connection that no other session holds can be let go of. -/
theorem Ledger.Apart.unpin {l : Ledger} (ha : l.Apart) (k : Nat) :
    Ledger.Apart { l with held := Function.update l.held k none } := by
  have hold : ∀ k' c, Function.update l.held k none k' = some c → k' ≠ k ∧ l.held k' = some c := by
    intro k' c hk
    by_cases hkk : k' = k
    · rw [hkk, Function.update_self] at hk
      cases hk
    · rw [Function.update_of_ne hkk] at hk
      exact ⟨hkk, hk⟩
  refine ⟨?_, fun k' c hk => ha.outside k' c (hold k' c hk).2, ha.pool, ha.known,
    fun k' c hk => ha.kept k' c (hold k' c hk).2⟩
  intro k₁ k₂ c h₁ h₂
  exact ha.unique k₁ k₂ c (hold k₁ c h₁).2 (hold k₂ c h₂).2

/-- A connection that is in no one's hands can be checked in. -/
theorem Ledger.Apart.checkIn {l : Ledger} {c : Nat} {available : List Nat} {uses : List PoolUse} (ha : l.Apart)
    (hheld : ∀ k, l.held k ≠ some c) (hout : c ∉ l.available ++ l.borrowed) (hknown : c < l.created)
    (havailable : available = l.available ∨ available = c :: l.available)
    (huses : uses = l.uses ++ [.checkIn c] ∨ uses = l.uses ++ [.checkIn c] ++ [.clear c]) :
    Ledger.Apart { l with available, uses } := by
  have hother : ∀ k c', l.held k = some c' → c' ≠ c := fun k c' hk he => hheld k (he ▸ hk)
  have hmem : ∀ c' ∈ available ++ l.borrowed, c' = c ∨ c' ∈ l.available ++ l.borrowed := by
    rcases havailable with rfl | rfl
    · exact fun c' h => .inr h
    · exact fun c' h => List.mem_cons.1 h
  refine ⟨ha.unique, fun k c' hk => ⟨(ha.outside k c' hk).1, fun hin => ?_⟩, ?_, fun c' hc => ?_, fun k c' hk => ?_⟩
  · rcases hmem c' hin with he | hin
    · exact hother k c' hk he
    · exact (ha.outside k c' hk).2 hin
  · rcases havailable with rfl | rfl
    · exact ha.pool
    · exact List.nodup_cons.2 ⟨hout, ha.pool⟩
  · rcases hmem c' hc with rfl | hin
    · exact hknown
    · exact ha.known c' hin
  · have hne := (hother k c' hk).symm
    exact (checkInsSincePin_returned huses).trans ((if_neg hne).trans (ha.kept k c' hk))

theorem Clears.apart {w' : PinWorld} {leaks : Bool} (hc : Clears w k options w' leaks) (ha : w.ledger.Apart) :
    w'.ledger.Apart := by
  cases hc with
  | nothing _ eq => rw [eq]; exact ha
  | @returned c held available uses ledger =>
    rw [ledger]
    refine (ha.unpin k).checkIn (fun k' hk => ?_) (ha.outside k c held).2 (ha.outside k c held).1 available uses
    by_cases hkk : k' = k
    · rw [hkk] at hk
      simp at hk
    · have hk' : w.ledger.held k' = some c := by simpa [Function.update_of_ne hkk] using hk
      exact hkk (ha.unique k' k c hk' held)
  | forgot held ledger => rw [ledger]; exact ha.unpin k

/-- Whatever the options, a session lets go of its connection unless the error keeps it pinned. -/
theorem Clears.held_after {w' : PinWorld} {leaks : Bool} (hc : Clears w k options w' leaks)
    (hkeep : (w.sessions k).keepsPin options = false) : w'.ledger.held = Function.update w.ledger.held k none := by
  cases hc with
  | nothing why eq =>
    rcases why with hnone | hkeep'
    · rw [eq, ← hnone, Function.update_eq_self]
    · rw [hkeep] at hkeep'; cases hkeep'
  | returned _ _ _ ledger => rw [ledger]
  | forgot _ ledger => rw [ledger]

end Clear

/-! ## The calls that give up a connection -/

/-- What a call does with the connections. -/
structure Does (w w' : PinWorld) (leaks : Bool) : Prop where
  apart : w.ledger.Apart → w'.ledger.Apart
  effect : Effect w.ledger w'.ledger leaks

section Does

variable {w w' : PinWorld} {k : Nat} {options : EndSessionOptions} {leaks : Bool}

theorem Does.same (h : w'.ledger = w.ledger) : Does w w' false :=
  ⟨fun ha => by rw [h]; exact ha, .keeps fun k c hk => by rw [h]; exact hk⟩

theorem Does.congr {w₁ w₂ : PinWorld} (hd : Does w w' leaks) (h₁ : w₁.ledger = w.ledger) (h₂ : w₂.ledger = w'.ledger) :
    Does w₁ w₂ leaks := by
  refine ⟨fun ha => ?_, ?_⟩
  · rw [h₂]
    exact hd.apart (by rw [← h₁]; exact ha)
  · rw [h₁, h₂]
    exact hd.effect

theorem forgets_of_no_error (s : PinSession) (h : options.error = none) : s.forgets options = false := by
  simp [PinSession.forgets, h]

theorem forgets_of_force (s : PinSession) (h : options.force = some true) : s.forgets options = false := by
  simp [PinSession.forgets, h]

theorem maybeClear_does (w : PinWorld) (k : Nat) (options : EndSessionOptions) :
    Does w (w.maybeClearPinnedConnection k options) ((w.sessions k).forgets options) :=
  ⟨(maybeClear_clears w k options).apart, (maybeClear_clears w k options).effect⟩

/-- `endSession` forgets the connection: at once, or after the abort of a transaction that had not begun. -/
def PinSession.endForgets (s : PinSession) (options : EndSessionOptions) : Bool :=
  if s.hasEnded then s.forgets (PinWorld.finalOptions options)
  else if s.inTransaction then
    s.state = .startingTransaction && { s with state := .transactionAborted }.forgets (PinWorld.finalOptions options)
  else s.forgets (PinWorld.finalOptions options)

/-- The end of a commit forgets the connection: the session has one, and the error unpins it. -/
def PinSession.commitForgets (s : PinSession) (err : Option EndError) : Bool :=
  decide (TxnState.transactionCommitted ∈ s.state.stateMachine) &&
    { s with state := .transactionCommitted }.forgets { error := err.bind PinWorld.unpinsWith }

/-- What a call does with the connections is what the clearing in it does. -/
theorem Gives.does {clearing : Option Clearing} (h : Gives w w' clearing) :
    Does w w' (clearing.any fun c => ((w.sessions c.session).atClearing c).forgets c.options) := by
  cases h with
  | nothing h => exact .same h.ledger
  | @clears c w₁ h hs h' =>
    have hd := maybeClear_does (w₁.setState c.session c.state) c.session c.options
    rw [setState_session, hs] at hd
    exact hd.congr (h.ledger.symm.trans (setState_alike w₁ _ _).ledger.symm) h'.ledger

end Does

/-! ## Connections that are given out -/

/-- The connection is in no one's hands, nor in the pool. -/
structure Ledger.Free (l : Ledger) (c : Nat) : Prop where
  held : ∀ k, l.held k ≠ some c
  outside : c ∉ l.available ++ l.borrowed
  known : c < l.created

section HandOut

variable {w w' : PinWorld} {c : Nat}

theorem handOut_free {handed : PinWorld.Handed} (ha : w.ledger.Apart) (h : w.handOut handed = some (c, w')) :
    w'.ledger.Apart ∧ w'.ledger.Free c ∧ w'.ledger.held = w.ledger.held := by
  cases handed with
  | created =>
    cases h
    refine ⟨⟨ha.unique, ?_, ha.pool, ?_, ?_⟩, ⟨?_, ?_, Nat.lt_succ_self _⟩, rfl⟩
    · exact fun k c hk => ⟨Nat.lt_succ_of_lt (ha.outside k c hk).1, (ha.outside k c hk).2⟩
    · exact fun c hc => Nat.lt_succ_of_lt (ha.known c hc)
    · exact fun k c hk => (checkInsSincePin_checkOut c _ _).trans (ha.kept k c hk)
    · exact fun k hk => Nat.lt_irrefl _ (ha.outside k _ hk).1
    · exact fun hc => Nat.lt_irrefl _ (ha.known _ hc)
  | available connection =>
    simp only [PinWorld.handOut] at h
    split at h
    · rename_i hmem
      cases h
      have hpool : (w.available ++ w.borrowed).Nodup := ha.pool
      have herase : w.available.erase c ++ w.borrowed = (w.available ++ w.borrowed).erase c :=
        (List.erase_append_left _ hmem).symm
      have hsub : ∀ c' ∈ w.available.erase c ++ w.borrowed, c' ∈ w.available ++ w.borrowed := by
        rw [herase]
        exact fun c' hc => List.mem_of_mem_erase hc
      have hin : c ∈ w.available ++ w.borrowed := List.mem_append_left _ hmem
      refine ⟨⟨ha.unique, ?_, ?_, fun c hc => ha.known c (hsub c hc), ?_⟩, ⟨?_, ?_, ha.known _ hin⟩, rfl⟩
      · exact fun k c hk => ⟨(ha.outside k c hk).1, fun hc => (ha.outside k c hk).2 (hsub c hc)⟩
      · show (w.available.erase c ++ w.borrowed).Nodup
        rw [herase]
        exact hpool.erase _
      · exact fun k c hk => (checkInsSincePin_checkOut c _ _).trans (ha.kept k c hk)
      · exact fun k hk => (ha.outside k _ hk).2 hin
      · show c ∉ w.available.erase c ++ w.borrowed
        rw [herase]
        exact hpool.not_mem_erase
    · cases h

theorem Ledger.Apart.pin {l : Ledger} {k : Nat} (ha : l.Apart) (hf : l.Free c) :
    Ledger.Apart { l with held := Function.update l.held k (some c), uses := l.uses ++ [.pin k c] } := by
  have hcases : ∀ k' c', Function.update l.held k (some c) k' = some c' →
      k' = k ∧ c' = c ∨ k' ≠ k ∧ l.held k' = some c' := by
    intro k' c' hk
    by_cases hkk : k' = k
    · rw [hkk, Function.update_self] at hk
      cases hk
      exact .inl ⟨hkk, rfl⟩
    · rw [Function.update_of_ne hkk] at hk
      exact .inr ⟨hkk, hk⟩
  refine ⟨?_, ?_, ha.pool, ha.known, ?_⟩
  · intro k₁ k₂ c' h₁ h₂
    rcases hcases k₁ c' h₁ with ⟨hk₁, hc₁⟩ | ⟨-, hold₁⟩
    · rcases hcases k₂ c' h₂ with ⟨hk₂, -⟩ | ⟨-, hold₂⟩
      · rw [hk₁, hk₂]
      · exact absurd (by rw [← hc₁]; exact hold₂) (hf.held k₂)
    · rcases hcases k₂ c' h₂ with ⟨-, hc₂⟩ | ⟨-, hold₂⟩
      · exact absurd (by rw [← hc₂]; exact hold₁) (hf.held k₁)
      · exact ha.unique k₁ k₂ c' hold₁ hold₂
  · intro k' c' hk
    rcases hcases k' c' hk with ⟨-, hc⟩ | ⟨-, hold⟩
    · rw [hc]
      exact ⟨hf.known, hf.outside⟩
    · exact ha.outside k' c' hold
  · intro k' c' hk
    refine (checkInsSincePin_pin c' l.uses k c).trans ?_
    rcases hcases k' c' hk with ⟨-, hc⟩ | ⟨-, hold⟩
    · exact if_pos hc.symm
    · have hne : c ≠ c' := fun he => hf.held k' (by rw [he]; exact hold)
      rw [if_neg hne]
      exact ha.kept k' c' hold

/-- A session that has a connection keeps it, and the new one is lost. -/
theorem connected_of_pinned {k : Nat} (h : (w.sessions k).isPinned = true) : w.connected (.pin k) c = w := by
  simp only [PinWorld.connected, PinWorld.pin, h, if_true]

/-- A session that has none is pinned to the connection. -/
theorem connected_of_unpinned {k : Nat} (h : (w.sessions k).pinnedConnection = none) :
    (w.connected (.pin k) c).ledger =
        { w.ledger with held := Function.update w.ledger.held k (some c), uses := w.uses ++ [.pin k c] } ∧
      (w.connected (.pin k) c).emitted = w.emitted ++ [.pinned c (w.sessions k).state.pinnedAs] := by
  have hpinned : ¬ (w.sessions k).isPinned = true := by simp [PinSession.isPinned, h]
  have hheld := congrArg Ledger.held (ledger_setSession w k { w.sessions k with pinnedConnection := some c })
  simp only [PinWorld.connected, PinWorld.pin, if_neg hpinned]
  exact ⟨Ledger.ext hheld rfl rfl rfl rfl, rfl⟩

/-- A free connection is pinned to a session that has none, lent, or lost. -/
theorem connected_apart (waiter : Waiter) (ha : w.ledger.Apart) (hf : w.ledger.Free c) :
    (w.connected waiter c).ledger.Apart ∧
      ∀ k c', w.ledger.held k = some c' → (w.connected waiter c).ledger.held k = some c' := by
  cases waiter with
  | plain =>
    have hperm : ∀ c', c' ∈ w.available ++ c :: w.borrowed ↔ c' = c ∨ c' ∈ w.available ++ w.borrowed := by
      intro c'
      simp only [List.mem_append, List.mem_cons]
      tauto
    refine ⟨⟨ha.unique, ?_, ?_, ?_, ha.kept⟩, fun k c' hk => hk⟩
    · refine fun k c' hk => ⟨(ha.outside k c' hk).1, fun hc => ?_⟩
      rcases (hperm c').1 hc with rfl | hc
      · exact hf.held k hk
      · exact (ha.outside k c' hk).2 hc
    · exact List.nodup_middle.2 (List.nodup_cons.2 ⟨hf.outside, ha.pool⟩)
    · intro c' hc
      rcases (hperm c').1 hc with rfl | hc
      · exact hf.known
      · exact ha.known c' hc
  | pin k =>
    by_cases hpinned : (w.sessions k).isPinned = true
    · rw [connected_of_pinned hpinned]
      exact ⟨ha, fun _ _ hk => hk⟩
    · have hnone : (w.sessions k).pinnedConnection = none := by simpa [PinSession.isPinned] using hpinned
      rw [(connected_of_unpinned hnone).1]
      refine ⟨ha.pin hf, fun k' c' hk' => ?_⟩
      have hne : k' ≠ k := by
        rintro rfl
        have hheld : (w.sessions k').pinnedConnection = some c' := hk'
        rw [hnone] at hheld
        cases hheld
      simp only [Function.update_of_ne hne]
      exact hk'

/-- A connection that was lent comes back. -/
theorem lent_does (h : c ∈ w.borrowed) : Does w ({ w with borrowed := w.borrowed.erase c }.checkIn c) false := by
  obtain ⟨hsessions, hborrowed, hcreated, huses, havailable⟩ :=
    checkIn_frame { w with borrowed := w.borrowed.erase c } c
  have hledger : ({ w with borrowed := w.borrowed.erase c }.checkIn c).ledger =
      { ({ w.ledger with borrowed := w.borrowed.erase c } : Ledger) with
        available := ({ w with borrowed := w.borrowed.erase c }.checkIn c).available
        uses := ({ w with borrowed := w.borrowed.erase c }.checkIn c).uses } := by
    refine Ledger.ext ?_ rfl hborrowed hcreated rfl
    simp only [PinWorld.ledger, hsessions]
  refine ⟨fun ha => ?_, .keeps fun k c' hk => ?_⟩
  · have hin : c ∈ w.available ++ w.borrowed := List.mem_append_right _ h
    have hpool : (w.available ++ w.borrowed).Nodup := ha.pool
    have hnot : c ∉ w.available := fun ha' => (List.nodup_append.1 hpool).2.2 c ha' c h rfl
    have herase : w.available ++ w.borrowed.erase c = (w.available ++ w.borrowed).erase c :=
      (List.erase_append_right _ hnot).symm
    have hsub : ∀ c' ∈ w.available ++ w.borrowed.erase c, c' ∈ w.available ++ w.borrowed := by
      rw [herase]
      exact fun c' hc => List.mem_of_mem_erase hc
    have hwithout : Ledger.Apart { w.ledger with borrowed := w.borrowed.erase c } := by
      refine ⟨ha.unique, ?_, ?_, fun c' hc => ha.known c' (hsub c' hc), ha.kept⟩
      · exact fun k c' hk => ⟨(ha.outside k c' hk).1, fun hc => (ha.outside k c' hk).2 (hsub c' hc)⟩
      · show (w.available ++ w.borrowed.erase c).Nodup
        rw [herase]
        exact hpool.erase _
    have hout : c ∉ w.available ++ w.borrowed.erase c := by
      rw [herase]
      exact hpool.not_mem_erase
    rw [hledger]
    exact hwithout.checkIn (fun k hk => (ha.outside k c hk).2 hin) hout (ha.known c hin) havailable (.inl huses)
  · rw [hledger]
    exact hk

end HandOut

/-! ## Runs -/

/-- The event forgets a pinned connection: a cursor that does not own its session is cleaned up with an error outside a
transaction, a commit ends in an error that unpins the session, or `unpin` or `endSession` is called with an error and
without force. -/
def PinWorld.leaks (w : PinWorld) : PinWorld.PinEvent → Bool
  | .cleanupCursor k owner error => !owner && !(w.sessions k).inTransaction && (w.sessions k).forgets { error }
  | .endTransactionDone position err =>
    w.endings[position]?.any fun c =>
      c.name = .commitTransaction && (c.retried || !err.any (·.error.hasErrorLabel "RetryableWriteError")) &&
        (w.sessions c.session).commitForgets err
  | .unpin k options => (w.sessions k).forgets options
  | .endSession k options => (w.sessions k).endForgets options
  | _ => false

/-- The condition on an event. -/
def PinWorld.Returns (w : PinWorld) (e : PinWorld.PinEvent) : Prop := w.leaks e = false

section Runs

variable {w w' : PinWorld} {e : PinWorld.PinEvent}

/-- The connection that the clearing of an event forgets. -/
def PinWorld.forgotten (w : PinWorld) (e : PinWorld.PinEvent) : Bool :=
  (w.clearing e).any fun c => ((w.sessions c.session).atClearing c).forgets c.options

theorem endForgets_eq (k : Nat) (options : EndSessionOptions) : (w.sessions k).endForgets options =
    ((w.sessions k).endClearing k options).any fun c => ((w.sessions c.session).atClearing c).forgets c.options := by
  unfold PinSession.endForgets PinSession.endClearing
  split
  · rfl
  · split
    · by_cases hstate : (w.sessions k).state = .startingTransaction
      · rw [if_pos hstate, decide_eq_true hstate, Bool.true_and]
        rfl
      · rw [if_neg hstate, decide_eq_false hstate, Bool.false_and]
        rfl
    · rfl

/-- What `commandHandler` forgets: after an abort there is no error. -/
theorem handlerForgets_eq (c : EndingCommand) (err : Option EndError) :
    (decide (c.name = .commitTransaction) && (w.sessions c.session).commitForgets err) =
      ((w.sessions c.session).handlerClearing c err).any fun c =>
        ((w.sessions c.session).atClearing c).forgets c.options := by
  unfold PinSession.commitForgets PinSession.handlerClearing
  cases c.name with
  | abortTransaction =>
    simp only [reduceCtorEq, decide_false, Bool.false_and]
    split
    · exact (forgets_of_no_error _ rfl).symm
    · rfl
  | commitTransaction =>
    rw [decide_eq_true rfl, Bool.true_and]
    by_cases hstate : TxnState.transactionCommitted ∈ (w.sessions c.session).state.stateMachine
    · simp only [if_pos hstate, decide_eq_true hstate, Bool.true_and]
      cases err.bind PinWorld.unpinsWith with
      | none => exact forgets_of_no_error _ rfl
      | some e => rfl
    · simp only [if_neg hstate, decide_eq_false hstate, Bool.false_and]
      rfl

theorem doneForgets_eq (c : EndingCommand) (err : Option EndError) :
    (decide (c.name = .commitTransaction) && (c.retried || !err.any (·.error.hasErrorLabel "RetryableWriteError")) &&
        (w.sessions c.session).commitForgets err) =
      ((w.sessions c.session).doneClearing c err).any fun c =>
        ((w.sessions c.session).atClearing c).forgets c.options := by
  have hhandler := handlerForgets_eq (w := w) c err
  unfold PinSession.doneClearing
  by_cases hretried : c.retried = true
  · rw [if_pos hretried, ← hhandler, hretried, Bool.true_or, Bool.and_true]
  · rw [if_neg hretried, Bool.eq_false_iff.2 hretried, Bool.false_or]
    cases hname : c.name with
    | abortTransaction =>
      simp only [reduceCtorEq, decide_false, Bool.false_and]
      exact (forgets_of_no_error _ rfl).symm
    | commitTransaction =>
      rw [hname] at hhandler
      by_cases hretry : (err.any fun e => e.error.hasErrorLabel "RetryableWriteError") = true
      · simp only [hretry, if_true, Bool.not_true, Bool.and_false, Bool.false_and]
        exact (forgets_of_force _ rfl).symm
      · simp only [Bool.eq_false_iff.2 hretry, Bool.not_false, Bool.and_true]
        exact hhandler

theorem leaks_eq (w : PinWorld) (e : PinWorld.PinEvent) : w.leaks e = w.forgotten e := by
  cases e with
  | operationFailed k err | beforeRetry k err creating =>
    unfold PinWorld.leaks PinWorld.forgotten PinWorld.clearing
    dsimp only
    split
    · exact (forgets_of_force _ rfl).symm
    · rfl
  | beforeSelection k bypass | startTransaction k unacknowledged =>
    unfold PinWorld.leaks PinWorld.forgotten PinWorld.clearing
    dsimp only
    split
    · exact (forgets_of_no_error _ rfl).symm
    · rfl
  | cleanupCursor k owner error =>
    unfold PinWorld.leaks PinWorld.forgotten PinWorld.clearing PinSession.cursorClearing
    cases owner with
    | true =>
      -- the session of the cursor is ended with force
      have hforce : ∀ s : PinSession, s.forgets (PinWorld.finalOptions { error }) = false := fun s =>
        forgets_of_force s rfl
      have hno : (w.sessions k).endForgets { error } = false := by
        unfold PinSession.endForgets
        simp [hforce]
      exact hno.symm.trans (endForgets_eq k { error })
    | false =>
      cases hactive : (w.sessions k).inTransaction with
      | true => simp [hactive]
      | false => simp [hactive, PinSession.atClearing]
  | endTransactionDone position err =>
    unfold PinWorld.leaks PinWorld.forgotten PinWorld.clearing
    dsimp only
    cases w.endings[position]? with
    | none => rfl
    | some c => exact doneForgets_eq c err
  | unpin k options => rfl
  | endSession k options => exact endForgets_eq k options
  | command | handOut | checkOutFailed | checkIn | spoil | applySession | endTransaction => rfl

theorem step_does (ha : w.ledger.Apart) (hstep : w.step e = some w') : Does w w' (w.leaks e) := by
  by_cases he : e.transfers = true
  · cases e with
    | handOut position handed =>
      simp only [PinWorld.step, Option.bind_eq_bind, Option.bind_eq_some_iff] at hstep
      obtain ⟨waiter, -, ⟨c, w₁⟩, hhand, hstep⟩ := hstep
      cases hstep
      obtain ⟨ha₁, hf, hheld⟩ := handOut_free ha hhand
      have hconn := connected_apart waiter (w := { w₁ with waiting := w₁.waiting.eraseIdx position }) ha₁ hf
      refine ⟨fun _ => hconn.1, .keeps fun k c' hk => hconn.2 k c' ?_⟩
      rw [← hheld] at hk
      exact hk
    | checkIn connection =>
      simp only [PinWorld.step] at hstep
      split at hstep
      · rename_i hmem
        cases hstep
        exact lent_does hmem
      · cases hstep
    | _ => cases he
  · rw [leaks_eq]
    exact (step_gives (Bool.eq_false_iff.2 he) hstep).does

end Runs

theorem start_apart : (({} : PinWorld).ledger).Apart where
  unique := nofun
  outside := nofun
  pool := List.nodup_nil
  known := nofun
  kept := nofun

/-- Over every run of the sessions of a client behind a load balancer: each step checks in once what a session lets go
of, and nothing that a session still holds, exactly when no step forgets a connection. -/
theorem pinned_connections_returned_iff (events : List PinWorld.PinEvent) (w : PinWorld)
    (hrun : Run.exec PinWorld.step {} events = some w) :
    Run.Meets PinWorld.step PinWorld.Returns {} events ↔
      ∀ es₁ e es₂ u v, events = es₁ ++ e :: es₂ → Run.exec PinWorld.step {} es₁ = some u → u.step e = some v →
        u.ledger.Released v.ledger ∧ v.ledger.Kept := by
  have hinv : ∀ (u : PinWorld) (e : PinWorld.PinEvent) (v : PinWorld), u.ledger.Apart → u.step e = some v →
      v.ledger.Apart := fun u e v ha hstep => (step_does ha hstep).apart ha
  have hexact : ∀ (u : PinWorld) (e : PinWorld.PinEvent) (v : PinWorld), u.ledger.Apart → u.step e = some v →
      (u.Returns e ↔ u.ledger.Released v.ledger ∧ v.ledger.Kept) := by
    intro u e v ha hstep
    have hd := step_does ha hstep
    constructor
    · intro hr
      exact ⟨(hd.effect.released_iff ha).2 hr, (hd.apart ha).kept⟩
    · rintro ⟨hr, -⟩
      exact (hd.effect.released_iff ha).1 hr
  exact Run.meets_iff_steps_inv PinWorld.step hinv hexact start_apart hrun

/-- A `find` with a session of the application: the connection is pinned when it is given out. -/
def pinsForFind : List PinWorld.PinEvent := [.command 0 .find, .handOut 0 .created]

/-- The cursor is read to its end, and its connection goes back to the pool. -/
theorem find_returns_connection :
    (Run.exec PinWorld.step {} (pinsForFind ++ [.cleanupCursor 0 false none])).map
      (fun w => (w.uses, w.available, (w.sessions 0).isPinned)) =
        some ([.checkOut 0, .pin 0 0, .checkIn 0], [0], false) ∧
    ∀ es₁ e es₂ u v, pinsForFind ++ [.cleanupCursor 0 false none] = es₁ ++ e :: es₂ →
      Run.exec PinWorld.step {} es₁ = some u → u.step e = some v → u.ledger.Released v.ledger ∧ v.ledger.Kept := by
  have hrun : (Run.exec PinWorld.step {} (pinsForFind ++ [.cleanupCursor 0 false none])).map
      (fun w => (w.uses, w.available, (w.sessions 0).isPinned)) =
        some ([.checkOut 0, .pin 0 0, .checkIn 0], [0], false) := by
    decide
  have hmeets : Run.Meets PinWorld.step PinWorld.Returns {} (pinsForFind ++ [.cleanupCursor 0 false none]) := by
    refine ⟨rfl, fun t _ => ⟨rfl, fun u _ => ⟨?_, fun _ _ => trivial⟩⟩⟩
    show (!false && !(u.sessions 0).inTransaction && (u.sessions 0).forgets {}) = false
    rw [forgets_of_no_error _ rfl, Bool.and_false]
  obtain ⟨w, hw, -⟩ := Option.map_eq_some_iff.1 hrun
  exact ⟨hrun, (pinned_connections_returned_iff _ w hw).1 hmeets⟩

def getMoreFailed : AnyError := { cls := .mongoNetworkError, message := "connection 0 to 127.0.0.1:27017 closed" }

/-- A `getMore` fails: the session lets go of the connection, and it is not checked in. -/
theorem failed_cursor_forgets_connection :
    ∃ u v, Run.exec PinWorld.step {} pinsForFind = some u ∧
      u.step (.cleanupCursor 0 false (some getMoreFailed)) = some v ∧
      u.ledger.held 0 = some 0 ∧ v.ledger.held 0 = none ∧ v.uses = [.checkOut 0, .pin 0 0] ∧ v.available = [] ∧
      checkInsSincePin 0 v.uses = 0 ∧ ¬ u.ledger.Released v.ledger := by
  have hbefore : (Run.exec PinWorld.step {} pinsForFind).map (fun w => w.ledger.held 0) = some (some 0) := by
    decide
  have hrun : (Run.exec PinWorld.step {} (pinsForFind ++ [.cleanupCursor 0 false (some getMoreFailed)])).map
      (fun w => (w.ledger.held 0, w.uses, w.available)) = some (none, [.checkOut 0, .pin 0 0], []) := by
    decide
  obtain ⟨v, hv, hafter⟩ := Option.map_eq_some_iff.1 hrun
  obtain ⟨u, hu, hv⟩ := (Run.exec_append PinWorld.step).1 hv
  obtain ⟨v', hv', hend⟩ := (Run.exec_cons PinWorld.step).1 hv
  cases hend
  rw [hu, Option.map_some, Option.some.injEq] at hbefore
  simp only [Prod.mk.injEq] at hafter
  obtain ⟨hheld, huses, havailable⟩ := hafter
  have hnever : checkInsSincePin 0 v.uses = 0 := by rw [huses]; rfl
  refine ⟨u, v, hu, hv', hbefore, hheld, huses, havailable, hnever, fun hreleased => ?_⟩
  have hone : checkInsSincePin 0 v.uses = 1 := hreleased 0 0 hbefore (by rw [hheld]; nofun)
  rw [hnever] at hone
  cases hone

end MongoDriver.Sessions
