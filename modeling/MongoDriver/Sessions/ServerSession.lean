/-
Server sessions and the pool they are reused from (`ServerSession` and `ServerSessionPool` of
`src/sessions.ts`). A server session is shared by reference and its id is random, so the pool keeps all
server sessions created so far and a session is its position among them, which also stands for its id.
-/
import MongoDriver.Base.Heap
import Mathlib.Data.List.DropRight

namespace MongoDriver.Sessions

/-- `ServerSession`. -/
structure ServerSession where
  lastUse : Nat
  txnNumber : Nat := 0
  isDirty : Bool := false
deriving DecidableEq

/-- What the sessions read of the clock and of their topology at a call. -/
structure Env where
  now : Nat := 0
  logicalSessionTimeoutMinutes : Option Nat := some 30
  loadBalanced : Bool := false

def calculateDurationInMs (now started : Nat) : Nat := now - started

/-- `hasTimedOut`: `Math.round` of the minutes, of which an idle time has less than an hour. -/
def ServerSession.hasTimedOut (s : ServerSession) (now sessionTimeoutMinutes : Nat) : Bool :=
  let idleTimeMinutes := (calculateDurationInMs now s.lastUse % 86400000 % 3600000 + 30000) / 60000
  sessionTimeoutMinutes < idleTimeMinutes + 1

/-- `ServerSessionPool`, over the server sessions created so far. -/
structure ServerSessionPool where
  created : List ServerSession := []
  sessions : List Nat := []
deriving DecidableEq

namespace ServerSessionPool

variable (env : Env) (pool : ServerSessionPool)

def hasTimedOut (sessionTimeoutMinutes ref : Nat) : Bool :=
  pool.created[ref]?.any (·.hasTimedOut env.now sessionTimeoutMinutes)

/-- The loop of `acquire`: stale sessions are dropped from the front until one is found. -/
def shift (stale : Nat → Bool) : List Nat → List Nat × Option Nat
  | [] => ([], none)
  | ref :: refs => if stale ref then shift stale refs else (refs, some ref)

/-- `acquire()`. -/
def acquire : ServerSessionPool × Nat :=
  let sessionTimeoutMinutes := match env.logicalSessionTimeoutMinutes with
    | none | some 0 => 10
    | some minutes => minutes
  match shift (fun ref => !env.loadBalanced && pool.hasTimedOut env sessionTimeoutMinutes ref) pool.sessions with
  | (sessions, some ref) => ({ pool with sessions }, ref)
  | (sessions, none) => ({ created := pool.created ++ [{ lastUse := env.now }], sessions }, pool.created.length)

/-- `release(session)`. -/
def release (ref : Nat) : ServerSessionPool :=
  match env.logicalSessionTimeoutMinutes with
  | none | some 0 => if env.loadBalanced then { pool with sessions := ref :: pool.sessions } else pool
  | some minutes =>
    let sessions := pool.sessions.rdropWhile (pool.hasTimedOut env minutes)
    if pool.hasTimedOut env minutes ref || pool.created[ref]?.any (·.isDirty) then { pool with sessions }
    else { pool with sessions := ref :: sessions }

/-- A server session is updated where it is. -/
def modify (ref : Nat) (f : ServerSession → ServerSession) : ServerSessionPool :=
  { pool with created := pool.created.modify ref f }

/-! ## What they do to the pool -/

theorem shift_some {stale : Nat → Bool} : ∀ {refs rest : List Nat} {ref : Nat},
    shift stale refs = (rest, some ref) → ref :: rest <:+ refs
  | [], _, _, h => by cases h
  | r :: refs, rest, ref, h => by
    unfold shift at h
    split at h
    · exact (shift_some h).trans (List.suffix_cons r refs)
    · cases h; exact List.suffix_rfl

theorem shift_none {stale : Nat → Bool} : ∀ {refs rest : List Nat}, shift stale refs = (rest, none) → rest = []
  | [], _, h => by cases h; rfl
  | r :: refs, rest, h => by
    unfold shift at h
    split at h
    · exact shift_none h
    · cases h

/-- A session is taken out of the pool, or a new one is created when none is left. -/
theorem acquire_cases :
    ((pool.acquire env).1.created = pool.created ∧
        (pool.acquire env).2 :: (pool.acquire env).1.sessions <:+ pool.sessions) ∨
      ((pool.acquire env).1 = ⟨pool.created ++ [{ lastUse := env.now }], []⟩ ∧
        (pool.acquire env).2 = pool.created.length) := by
  unfold acquire
  simp only
  split
  · rename_i heq
    exact .inl ⟨rfl, shift_some heq⟩
  · rename_i heq
    obtain rfl := shift_none heq
    exact .inr ⟨rfl, rfl⟩

/-- A released session is put back in front or dropped, and others may be dropped. -/
theorem release_spec (ref : Nat) :
    (pool.release env ref).created = pool.created ∧ (pool.release env ref).sessions.Sublist (ref :: pool.sessions) := by
  have hrest : ∀ minutes : Nat,
      (pool.sessions.rdropWhile (pool.hasTimedOut env minutes)).Sublist pool.sessions :=
    fun minutes => (List.rdropWhile_prefix _ _).sublist
  unfold release
  split
  · split
    · exact ⟨rfl, List.Sublist.refl _⟩
    · exact ⟨rfl, List.sublist_cons_self ..⟩
  · split
    · exact ⟨rfl, List.Sublist.refl _⟩
    · exact ⟨rfl, List.sublist_cons_self ..⟩
  · simp only
    split
    · exact ⟨rfl, (hrest _).trans (List.sublist_cons_self ..)⟩
    · exact ⟨rfl, (hrest _).cons_cons ref⟩

end ServerSessionPool

end MongoDriver.Sessions
