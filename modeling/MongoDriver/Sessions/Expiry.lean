/-
Session expiry (`hasTimedOut` of `src/sessions.ts`). The idle time is reduced modulo a day and then modulo an hour
before it is rounded to minutes, so that only the time past the last full hour counts. A session that is idle for an
hour has not timed out, whatever the timeout, and one with a timeout above an hour never does.
-/
import Mathlib.Order.Basic
import MongoDriver.Sessions.ServerSession

namespace MongoDriver.Sessions

namespace ServerSession

variable {s : ServerSession} {now earlier sessionTimeoutMinutes : Nat}

/-- A session has timed out when its idle time past the last full hour is, rounded, at least the timeout. -/
theorem hasTimedOut_iff : s.hasTimedOut now sessionTimeoutMinutes = true ↔
    sessionTimeoutMinutes * 60000 ≤ calculateDurationInMs now s.lastUse % 3600000 + 30000 := by
  unfold hasTimedOut
  rw [decide_eq_true_iff]
  omega

/-- A session that is in use has not timed out. -/
theorem hasTimedOut_now (h : 0 < sessionTimeoutMinutes) (hnow : s.lastUse = now) :
    s.hasTimedOut now sessionTimeoutMinutes = false := by
  have hidle : calculateDurationInMs now s.lastUse = 0 := by rw [hnow]; exact Nat.sub_self _
  rw [← Bool.not_eq_true, hasTimedOut_iff, hidle, Nat.zero_mod]
  omega

/-- Before the timeout has passed a session that has timed out stays so: there are no full hours yet, or the timeout
is above an hour. -/
theorem hasTimedOut_mono (hidle : calculateDurationInMs now s.lastUse < sessionTimeoutMinutes * 60000)
    (hle : earlier ≤ now) (h : s.hasTimedOut earlier sessionTimeoutMinutes = true) :
    s.hasTimedOut now sessionTimeoutMinutes = true := by
  have hdur : calculateDurationInMs earlier s.lastUse ≤ calculateDurationInMs now s.lastUse :=
    Nat.sub_le_sub_right hle _
  rw [hasTimedOut_iff] at h ⊢
  omega

/-- A pooled session times out in time: once timed out it is so at any later moment, and it is timed out when its idle
time has reached the timeout. -/
def ExpiresAt (s : ServerSession) (now sessionTimeoutMinutes : Nat) : Prop :=
  (∀ earlier, earlier ≤ now → s.hasTimedOut earlier sessionTimeoutMinutes = true →
      s.hasTimedOut now sessionTimeoutMinutes = true) ∧
    (sessionTimeoutMinutes * 60000 ≤ calculateDurationInMs now s.lastUse →
      s.hasTimedOut now sessionTimeoutMinutes = true)

end ServerSession

/-- For every session, time and timeout: what has timed out is still timed out, and what has been idle for the timeout
is, exactly when the idle time is below the timeout or, past its last full hour, not more than half a minute below. -/
theorem session_expires_iff (s : ServerSession) (now sessionTimeoutMinutes : Nat) :
    s.ExpiresAt now sessionTimeoutMinutes ↔
      calculateDurationInMs now s.lastUse < sessionTimeoutMinutes * 60000 ∨
        sessionTimeoutMinutes * 60000 ≤ calculateDurationInMs now s.lastUse % 3600000 + 30000 := by
  constructor
  · rintro ⟨-, hreached⟩
    rcases Nat.lt_or_ge (calculateDurationInMs now s.lastUse) (sessionTimeoutMinutes * 60000) with hlt | hge
    · exact .inl hlt
    · exact .inr (ServerSession.hasTimedOut_iff.1 (hreached hge))
  · rintro (hlt | hpast)
    · refine ⟨fun earlier hle => ServerSession.hasTimedOut_mono hlt hle, fun hge => ?_⟩
      exact absurd hlt (Nat.not_lt.2 hge)
    · have hnow := ServerSession.hasTimedOut_iff.2 hpast
      exact ⟨fun _ _ _ => hnow, fun _ => hnow⟩

/-- With a timeout of 30 minutes a session is timed out after 59 minutes and no longer after an hour. -/
theorem hour_restarts : ¬ ∀ (s : ServerSession) (now sessionTimeoutMinutes : Nat), 1 ≤ sessionTimeoutMinutes →
    s.ExpiresAt now sessionTimeoutMinutes := by
  intro h
  have hlater := (h { lastUse := 0 } 3600000 30 (by decide)).1 3540000 (by decide) (by decide)
  exact absurd hlater (by decide)

end MongoDriver.Sessions
