/-
Whom `resume` resumes. The event reaches every command paused on the session of the current context,
so exactly the current command is resumed when it is the only one paused on its session. That is the
case along every run in which a command pauses only on a session with no paused command and a woken
`wait` does not take a context while another one is current.
-/
import MongoDriver.Querypie.Listeners
import Mathlib.Data.List.Perm.Basic

namespace MongoDriver.Querypie

namespace QpPause

variable {δ : Type} {env : Env δ} {outcome : Listener δ → Completion δ}

/-! ## Tickets of reachable states -/

/-- Every paused command has a ticket of its own that was given out, and its callback was not called. -/
structure Ticketed (s : QpPause δ) : Prop where
  issued : s.Issued s.listeners
  nodup : (s.listeners.map Listener.ticket).Nodup
  completed_issued : ∀ k ∈ s.completed, k.ticket < s.next
  completed_gone : ∀ k ∈ s.completed, ∀ l ∈ s.listeners, k.ticket ≠ l.ticket

theorem Ticketed.congr {s s' : QpPause δ} (hs : Ticketed s) (h₁ : s'.listeners = s.listeners)
    (h₂ : s'.completed = s.completed) (h₃ : s'.next = s.next) : Ticketed s' where
  issued := by unfold Issued; rw [h₁, h₃]; exact hs.issued
  nodup := by rw [h₁]; exact hs.nodup
  completed_issued := by rw [h₂, h₃]; exact hs.completed_issued
  completed_gone := by rw [h₁, h₂]; exact hs.completed_gone

/-- The outcome is that of the listener's own command. -/
def OwnOutcome (outcome : Listener δ → Completion δ) : Prop := ∀ l, (outcome l).ticket = l.ticket

theorem ownOutcome_onResume (doc : Option δ) : OwnOutcome (onResume doc) := fun _ => rfl

theorem ownOutcome_onAbort : OwnOutcome (@onAbort δ) := fun _ => rfl

theorem Emits.ticketed {ls : List (Listener δ)} {quiet : Prop} {s s' : QpPause δ} {new : List (QpPauseContext δ)}
    (h : Emits outcome ls quiet s s' new) (ho : OwnOutcome outcome) (hls : ∀ l ∈ ls, l ∈ s.listeners)
    (hs : Ticketed s) : Ticketed s' where
  issued := by
    intro l hl
    rw [h.listeners] at hl
    rcases List.mem_append.1 hl with hl | hl
    · exact Nat.lt_of_lt_of_le (hs.issued l (mem_dropTickets.1 hl).1) h.next_le
    · obtain ⟨c, hc, rfl⟩ := List.mem_map.1 hl
      exact (h.fresh c hc).2
  nodup := by
    rw [h.listeners, List.map_append, List.nodup_append, List.map_map]
    refine ⟨hs.nodup.sublist (List.filter_sublist.map _), h.nodup, ?_⟩
    -- a new ticket is above every one issued before
    intro a ha b hb hab
    obtain ⟨l, hl, rfl⟩ := List.mem_map.1 ha
    obtain ⟨c, hc, rfl⟩ := List.mem_map.1 hb
    have h1 := hs.issued l (mem_dropTickets.1 hl).1
    have h2 : l.ticket = c.ticket := hab
    have h3 := (h.fresh c hc).1
    omega
  completed_issued := by
    intro k hk
    have hle := h.next_le
    rw [h.completed] at hk
    rcases List.mem_append.1 hk with hk | hk
    · have := hs.completed_issued k hk; omega
    · obtain ⟨l, hl, rfl⟩ := List.mem_map.1 hk
      have := hs.issued l (hls l hl)
      rw [ho l]; omega
  completed_gone := by
    intro k hk l hl heq
    rw [h.completed] at hk
    rw [h.listeners] at hl
    have hk' : k.ticket < s.next := by
      rcases List.mem_append.1 hk with hk | hk
      · exact hs.completed_issued k hk
      · obtain ⟨l', hl', rfl⟩ := List.mem_map.1 hk
        rw [ho l']; exact hs.issued l' (hls l' hl')
    rcases List.mem_append.1 hl with hl | hl
    · obtain ⟨hl, hnot⟩ := mem_dropTickets.1 hl
      rcases List.mem_append.1 hk with hk | hk
      · exact hs.completed_gone k hk l hl heq
      · obtain ⟨l', hl', rfl⟩ := List.mem_map.1 hk
        rw [ho l'] at heq
        exact hnot (List.mem_map.2 ⟨l', hl', heq⟩)
    · obtain ⟨c, hc, rfl⟩ := List.mem_map.1 hl
      have h1 := (h.fresh c hc).1
      have h2 : k.ticket = c.ticket := heq
      omega

theorem emit_ticketed (ho : OwnOutcome outcome) (env : Env δ) (session : String) {s : QpPause δ}
    (hs : Ticketed s) : Ticketed (s.emit env outcome session) := by
  obtain ⟨new, h⟩ := emit_emits outcome env session hs.issued
  exact h.ticketed ho (fun l hl => (List.mem_filter.1 hl).1) hs

theorem drain_ticketed (ho : OwnOutcome outcome) :
    ∀ (n : Nat) {s : QpPause δ}, Ticketed s → Ticketed (s.drain env outcome n)
  | 0, _, hs => hs
  | n + 1, s, hs => by
    unfold drain
    split
    · exact hs
    · exact drain_ticketed ho n (emit_ticketed ho env _ (hs.congr rfl rfl rfl))

theorem shutdown_ticketed (ho : OwnOutcome outcome) {s : QpPause δ} (hs : Ticketed s) :
    Ticketed (s.shutdown env outcome) := by
  unfold shutdown
  refine drain_ticketed ho _ ?_
  simp only
  split
  · exact emit_ticketed ho env _ (hs.congr rfl rfl rfl)
  · exact hs.congr rfl rfl rfl

theorem waitOn_ticketed {s : QpPause δ} (hs : Ticketed s) (r : Request δ) : Ticketed (s.waitOn env r) := by
  obtain ⟨new, h, -⟩ := waitOn_emits (onResume none) True env s r
  exact h.ticketed (ownOutcome_onResume none) nofun hs

theorem take_ticketed {s : QpPause δ} (hs : Ticketed s) (w : Nat) : Ticketed (s.take w) :=
  (take_emits (onResume none) s w).ticketed (ownOutcome_onResume none) nofun hs

theorem wait_ticketed {s : QpPause δ} (hs : Ticketed s) (w : Nat) : Ticketed (s.wait w) := by
  unfold wait
  split
  · exact hs.congr rfl rfl rfl
  · exact take_ticketed hs w

theorem resume_ok {s : QpPause δ} {c : QpPauseContext δ} (hc : s.current = some c) (doc : Option δ) :
    s.resume env doc = .ok (tryRaisePause { s.emit env (onResume doc) c.session with current := none }) := by
  unfold resume; rw [hc]

/-- A `resume` that is accepted found a current context. -/
theorem resume_inv {s s' : QpPause δ} {doc : Option δ} (h : s.resume env doc = .ok s') :
    ∃ c, s.current = some c ∧ s' = tryRaisePause { s.emit env (onResume doc) c.session with current := none } := by
  cases hc : s.current with
  | none =>
    simp only [resume, hc] at h
    cases h
  | some c =>
    rw [resume_ok hc] at h
    cases h
    exact ⟨c, rfl, rfl⟩

end QpPause

open QpPause

variable {δ : Type} {env : Env δ}

/-- What an event does, with what it needs. -/
inductive Moves (env : Env δ) (s : QpPause δ) : Event δ → QpPause δ → Prop
  | start : Moves env s .start s.start
  | stop : Moves env s .stop (s.stop env)
  | abort : Moves env s .abort (s.abort env)
  | resume {doc : Option δ} {s' : QpPause δ} (accepted : s.resume env doc = .ok s') : Moves env s (.resume doc) s'
  /-- nothing is current -/
  | refused (doc : Option δ) : Moves env s (.resume doc) s
  | hook (r : Request δ) : Moves env s (.hook r) (s.waitOn env r)
  | wait (w : Nat) : Moves env s (.wait w) (s.wait w)
  | wake {w : Nat} (woken : w ∈ s.woken) :
      Moves env s (.wake w) (QpPause.take { s with woken := s.woken.erase w } w)
  | cancel (w : Nat) : Moves env s (.cancel w) { s with waiting := s.waiting.erase w }

theorem step_moves {s s' : QpPause δ} {e : Event δ} (h : step env s e = some s') : Moves env s e s' := by
  cases e with
  | start => cases h; exact .start
  | stop => cases h; exact .stop
  | abort => cases h; exact .abort
  | resume doc =>
    simp only [step] at h
    split at h
    · rename_i s₁ hr
      cases h
      exact .resume hr
    · cases h
      exact .refused doc
  | hook r => cases h; exact .hook r
  | wait w => cases h; exact .wait w
  | wake w =>
    simp only [step] at h
    split at h
    · rename_i hw
      cases h
      exact .wake hw
    · cases h
  | cancel w => cases h; exact .cancel w

theorem step_ticketed {s s' : QpPause δ} {e : Event δ} (hs : Ticketed s) (h : step env s e = some s') :
    Ticketed s' := by
  cases step_moves h with
  | start => exact hs.congr rfl rfl rfl
  | stop => exact shutdown_ticketed (ownOutcome_onResume none) hs
  | abort => exact shutdown_ticketed ownOutcome_onAbort hs
  | @resume doc _ hr =>
    obtain ⟨c, -, rfl⟩ := resume_inv hr
    exact (emit_ticketed (ownOutcome_onResume doc) env c.session hs).congr rfl rfl rfl
  | refused => exact hs
  | hook r => exact waitOn_ticketed hs r
  | wait w => exact wait_ticketed hs w
  | @wake w _ =>
    have hs' : Ticketed { s with woken := s.woken.erase w } := hs.congr rfl rfl rfl
    exact take_ticketed hs' w
  | cancel => exact hs.congr rfl rfl rfl

theorem ticketed_init : Ticketed ({} : QpPause δ) := by
  refine ⟨fun l hl => ?_, List.nodup_nil, fun k hk => ?_, fun k hk => ?_⟩
  · cases hl
  · cases hk
  · cases hk

theorem exec_ticketed {es : List (Event δ)} {s : QpPause δ} (h : Run.exec (step env) {} es = some s) : Ticketed s :=
  Run.exec_inv (step env) (fun _ _ _ hs hstep => step_ticketed hs hstep) ticketed_init h

/-! ## When a resume is right -/

/-- The resume called the command of the context, with the document or its original result, and no
other paused command, whose contexts are in the queue. -/
structure ResumesOnly (s : QpPause δ) (c : QpPauseContext δ) (doc : Option δ) (s' : QpPause δ) : Prop where
  called : ∃ l ∈ s.listeners, l.ticket = c.ticket ∧ s'.completed = s.completed ++ [onResume doc l]
  others : ∀ l ∈ s.listeners, l.ticket ≠ c.ticket → l ∈ s'.listeners ∧ ∃ c' ∈ s'.queue, c'.ticket = l.ticket

/-- The command of the context is the only one paused on its session, and all others are queued. -/
structure Alone (s : QpPause δ) (c : QpPauseContext δ) : Prop where
  only : ∃ l, s.onSession c.session = [l] ∧ l.ticket = c.ticket
  queued : ∀ l ∈ s.listeners, l.ticket ≠ c.ticket → ∃ c' ∈ s.queue, c'.ticket = l.ticket

theorem resumesOnly_iff (env : Env δ) {s : QpPause δ} {c : QpPauseContext δ} (hs : Ticketed s)
    (hc : s.current = some c) (doc : Option δ) : ∃ s', s.resume env doc = .ok s' ∧
      (ResumesOnly s c doc s' ↔ Alone s c) := by
  obtain ⟨new, h⟩ := emit_emits (onResume doc) env c.session hs.issued
  obtain ⟨hq, -⟩ := h.queue (quietAll_of_current _ _ _ (by rw [hc]; nofun))
  refine ⟨_, resume_ok hc doc, ?_⟩
  constructor
  · -- the emitter calls every listener of the session, so one completion means one listener
    rintro ⟨⟨l, hl, ht, hcomp⟩, hothers⟩
    refine ⟨?_, fun l' hl' hne => ?_⟩
    · have hmap : (s.onSession c.session).map (onResume doc) = [onResume doc l] :=
        List.append_cancel_left (h.completed.symm.trans hcomp)
      obtain ⟨l', hl', heq⟩ := List.map_eq_singleton_iff.1 hmap
      refine ⟨l', hl', ?_⟩
      have := congrArg Completion.ticket heq
      exact Eq.trans this ht
    · obtain ⟨-, c', hc', ht'⟩ := hothers l' hl' hne
      change c' ∈ (s.emit env (onResume doc) c.session).queue at hc'
      rw [hq] at hc'
      rcases List.mem_append.1 hc' with hc' | hc'
      · exact ⟨c', hc', ht'⟩
      · -- a command paused meanwhile has a later ticket
        have h1 := (h.fresh c' hc').1
        have h2 := hs.issued l' hl'
        omega
  · rintro ⟨⟨l, hl, ht⟩, hqueued⟩
    have hmem : l ∈ s.listeners := (List.mem_filter.1 (hl ▸ List.mem_singleton_self l)).1
    refine ⟨⟨l, hmem, ht, ?_⟩, fun l' hl' hne => ⟨?_, ?_⟩⟩
    · have := h.completed
      rw [hl] at this
      exact this
    · show l' ∈ (s.emit env (onResume doc) c.session).listeners
      rw [h.listeners, hl]
      refine List.mem_append_left _ (mem_dropTickets.2 ⟨hl', ?_⟩)
      simpa [ht] using hne
    · obtain ⟨c', hc', ht'⟩ := hqueued l' hl' hne
      refine ⟨c', ?_, ht'⟩
      show c' ∈ (s.emit env (onResume doc) c.session).queue
      rw [hq]
      exact List.mem_append_left _ hc'

/-! ## Runs in which every resume is right -/

/-- No command is paused on the session a command pauses on. -/
def CleanHook (env : Env δ) (s : QpPause δ) (r : Request δ) : Prop := s.Pauses env r → s.onSession r.session = []

def CleanCall (env : Env δ) (s : QpPause δ) : NestedCall δ → Prop
  | .hook r => CleanHook env s r
  | .wait _ => True

/-- A run of the calls a callback makes. -/
def CleanCalls (env : Env δ) (s : QpPause δ) (calls : List (NestedCall δ)) : Prop :=
  Run.Meets (fun s call => some (s.nested env call)) (CleanCall env) s calls

/-- Commands pause only on sessions with no paused command, also those paused by the callback of a
resumed command, and a woken `wait` finds nothing current or nothing queued. -/
def Clean (env : Env δ) (s : QpPause δ) : Event δ → Prop
  | .hook r => CleanHook env s r
  | .resume doc => ∀ c l, s.current = some c → s.onSession c.session = [l] →
      CleanCalls env (s.dispatch (onResume doc) l) (env.body l.ticket)
  | .wake _ => s.current = none ∨ s.queue = []
  | .stop | .abort => False
  | .start | .wait _ | .cancel _ => True

/-- The paused commands are those of the contexts, each on a session of its own. -/
structure Solitary (s : QpPause δ) : Prop where
  ticketed : Ticketed s
  sessions : (s.listeners.map Listener.session).Nodup
  contexts : s.listeners.Perm ((s.current.toList ++ s.queue).map QpPauseContext.listener)

theorem sessions_append {s : QpPause δ} {c : QpPauseContext δ} (h : (s.listeners.map Listener.session).Nodup)
    (hc : s.onSession c.session = []) : ((s.listeners ++ [c.listener]).map Listener.session).Nodup := by
  rw [List.map_append, List.nodup_append]
  refine ⟨h, by simp, ?_⟩
  intro a ha b hb hab
  obtain ⟨l, hl, rfl⟩ := List.mem_map.1 ha
  obtain rfl := List.mem_singleton.1 hb
  have hmem : l ∈ s.onSession c.session := List.mem_filter.2 ⟨hl, decide_eq_true hab⟩
  rw [hc] at hmem; cases hmem

theorem waitOn_sessions {s : QpPause δ} {r : Request δ} (h : (s.listeners.map Listener.session).Nodup)
    (hr : CleanHook env s r) : ((s.waitOn env r).listeners.map Listener.session).Nodup := by
  obtain ⟨new, hn, hnew⟩ := waitOn_emits (onResume none) True env s r
  rw [hn.listeners]
  simp only [List.map_nil, dropTickets_nil]
  rcases hnew with rfl | ⟨hp, c, rfl, hc⟩
  · simpa using h
  · exact sessions_append h (by rw [hc]; exact hr hp)

theorem nested_sessions {s : QpPause δ} {call : NestedCall δ} (h : (s.listeners.map Listener.session).Nodup)
    (hc : CleanCall env s call) : ((s.nested env call).listeners.map Listener.session).Nodup := by
  cases call with
  | hook r => exact waitOn_sessions h hc
  | wait w =>
    show ((s.wait w).listeners.map Listener.session).Nodup
    unfold wait take
    split
    · exact h
    · split <;> exact h

theorem foldl_nested_sessions :
    ∀ {calls : List (NestedCall δ)} {s : QpPause δ}, (s.listeners.map Listener.session).Nodup →
      CleanCalls env s calls → ((calls.foldl (nested env) s).listeners.map Listener.session).Nodup
  | [], _, h, _ => h
  | call :: calls, s, h, hc => by
    rw [List.foldl_cons]
    exact foldl_nested_sessions (nested_sessions h hc.1) (hc.2 _ rfl)

/-- In a solitary state the current command is the only one of its session. -/
theorem Solitary.onSession_current {s : QpPause δ} (hs : Solitary s) {c : QpPauseContext δ} (hc : s.current = some c) :
    s.onSession c.session = [c.listener] := by
  have hperm : s.listeners.Perm (c.listener :: s.queue.map QpPauseContext.listener) := by
    have := hs.contexts
    rw [hc] at this
    simpa using this
  have hnd : ((c.listener :: s.queue.map QpPauseContext.listener).map Listener.session).Nodup :=
    (hperm.map Listener.session).nodup_iff.1 hs.sessions
  rw [List.map_cons, List.nodup_cons] at hnd
  have hfilter : (c.listener :: s.queue.map QpPauseContext.listener).filter (·.session = c.session) =
      [c.listener] := by
    rw [List.filter_cons_of_pos (by simp [QpPauseContext.listener]), List.filter_eq_nil_iff.2]
    intro l hl
    have hne : l.session ≠ c.session := fun e => hnd.1 (List.mem_map.2 ⟨l, hl, e⟩)
    simpa using hne
  have := hperm.filter (fun l => decide (l.session = c.session))
  rw [hfilter] at this
  exact List.perm_singleton.1 this

theorem Solitary.alone {s : QpPause δ} (hs : Solitary s) {c : QpPauseContext δ} (hc : s.current = some c) :
    Alone s c := by
  refine ⟨⟨_, hs.onSession_current hc, rfl⟩, fun l hl hne => ?_⟩
  have hmem := hs.contexts.mem_iff.1 hl
  obtain ⟨c', hc', rfl⟩ := List.mem_map.1 hmem
  rcases List.mem_append.1 hc' with hcur | hq
  · rw [hc] at hcur
    obtain rfl : c' = c := by simpa using hcur
    exact absurd rfl hne
  · exact ⟨c', hq, rfl⟩

theorem dropTickets_perm {ls : List (Listener δ)} {l : Listener δ} {rest : List (Listener δ)}
    (hperm : ls.Perm (l :: rest)) (hnd : (ls.map Listener.ticket).Nodup) :
    (dropTickets [l.ticket] ls).Perm rest := by
  have hnd' := (hperm.map Listener.ticket).nodup_iff.1 hnd
  rw [List.map_cons, List.nodup_cons] at hnd'
  have hrest : dropTickets [l.ticket] (l :: rest) = rest := by
    unfold dropTickets
    rw [List.filter_cons_of_neg (by simp), List.filter_eq_self]
    intro x hx
    have hne : x.ticket ≠ l.ticket := fun e => hnd'.1 (List.mem_map.2 ⟨x, hx, e⟩)
    simpa using hne
  have := hperm.filter (fun x => decide (x.ticket ∉ [l.ticket]))
  unfold dropTickets at hrest ⊢
  rw [hrest] at this
  exact this

theorem Solitary.waitOn {s : QpPause δ} {r : Request δ} (hs : Solitary s) (hr : CleanHook env s r) :
    Solitary (s.waitOn env r) := by
  have hsess := waitOn_sessions hs.sessions hr
  obtain ⟨new, hn, -⟩ := waitOn_emits (onResume none) True env s r
  obtain ⟨hq, hc⟩ := hn.queue trivial
  refine ⟨waitOn_ticketed hs.ticketed r, hsess, ?_⟩
  rw [hn.listeners, hq, hc]
  simp only [List.map_nil, dropTickets_nil]
  rw [← List.append_assoc, List.map_append]
  exact hs.contexts.append_right _

/-- Taking the head of the queue while nothing is current keeps the contexts. -/
theorem Solitary.take {s : QpPause δ} (hs : Solitary s) (h : s.current = none ∨ s.queue = []) (w : Nat) :
    Solitary (s.take w) := by
  unfold QpPause.take
  split
  · rename_i c queue hq
    have hc : s.current = none := h.resolve_right (by rw [hq]; nofun)
    refine ⟨hs.ticketed.congr rfl rfl rfl, hs.sessions, ?_⟩
    have := hs.contexts
    rw [hc, hq] at this
    exact this
  · exact ⟨hs.ticketed.congr rfl rfl rfl, hs.sessions, hs.contexts⟩

theorem Solitary.wait {s : QpPause δ} (hs : Solitary s) (w : Nat) : Solitary (s.wait w) := by
  unfold QpPause.wait
  split
  · exact ⟨hs.ticketed.congr rfl rfl rfl, hs.sessions, hs.contexts⟩
  · rename_i hc
    exact hs.take (.inl hc) w

theorem Solitary.resume {s s' : QpPause δ} {doc : Option δ} (hs : Solitary s)
    (hclean : Clean env s (.resume doc)) (h : s.resume env doc = .ok s') : Solitary s' := by
  obtain ⟨c, hc, rfl⟩ := resume_inv h
  have honly := hs.onSession_current hc
  obtain ⟨new, he⟩ := emit_emits (onResume doc) env c.session hs.ticketed.issued
  obtain ⟨hq, -⟩ := he.queue (quietAll_of_current _ _ _ (by rw [hc]; nofun))
  have hsess : ((s.emit env (onResume doc) c.session).listeners.map Listener.session).Nodup := by
    have hemit : s.emit env (onResume doc) c.session =
        (env.body c.ticket).foldl (nested env) (s.dispatch (onResume doc) c.listener) := by
      unfold QpPause.emit
      have : s.listeners.filter (·.session = c.session) = [c.listener] := honly
      rw [this]; rfl
    rw [hemit]
    exact foldl_nested_sessions (hs.sessions.sublist (List.filter_sublist.map _)) (hclean c _ hc honly)
  have ht := emit_ticketed (ownOutcome_onResume doc) env c.session hs.ticketed
  refine ⟨ht.congr rfl rfl rfl, hsess, ?_⟩
  show (s.emit env (onResume doc) c.session).listeners.Perm
    ((s.emit env (onResume doc) c.session).queue.map QpPauseContext.listener)
  rw [he.listeners, hq, honly, List.map_append]
  refine List.Perm.append_right _ ?_
  refine dropTickets_perm ?_ hs.ticketed.nodup
  have := hs.contexts
  rw [hc] at this
  simpa using this

theorem step_solitary {s s' : QpPause δ} {e : Event δ} (hs : Solitary s) (hclean : Clean env s e)
    (h : step env s e = some s') : Solitary s' := by
  cases step_moves h with
  | start => exact ⟨hs.ticketed.congr rfl rfl rfl, hs.sessions, hs.contexts⟩
  | stop => exact hclean.elim
  | abort => exact hclean.elim
  | resume hr => exact hs.resume hclean hr
  | refused => exact hs
  | hook r => exact hs.waitOn hclean
  | wait w => exact hs.wait w
  | @wake w _ =>
    have hs' : Solitary { s with woken := s.woken.erase w } :=
      ⟨hs.ticketed.congr rfl rfl rfl, hs.sessions, hs.contexts⟩
    exact hs'.take hclean w
  | cancel => exact ⟨hs.ticketed.congr rfl rfl rfl, hs.sessions, hs.contexts⟩

/-- In every reachable state a resume is right exactly when the current command is the only one paused
on its session and all others are queued; and that is the case throughout every clean run. -/
theorem resume_targets_current (env : Env δ) (es : List (Event δ)) (s : QpPause δ) (c : QpPauseContext δ)
    (doc : Option δ) (hrun : Run.exec (step env) {} es = some s) (hc : s.current = some c) :
    ∃ s', s.resume env doc = .ok s' ∧ (ResumesOnly s c doc s' ↔ Alone s c) ∧
      (Run.Meets (step env) (Clean env) {} es → ResumesOnly s c doc s') := by
  obtain ⟨s', hr, hiff⟩ := resumesOnly_iff env (exec_ticketed hrun) hc doc
  refine ⟨s', hr, hiff, fun hclean => hiff.2 ?_⟩
  have hs : Solitary s := by
    refine Run.exec_inv_meets (step env) (fun _ _ _ h hcl hst => step_solitary h hcl hst) ?_ hclean hrun
    exact ⟨ticketed_init, List.nodup_nil, List.Perm.refl _⟩
  exact hs.alone hc

/-- Documents that are numbers, and callbacks that call nothing. -/
def idleEnv : Env Nat := { field := fun _ _ => none, body := fun _ => [] }

/-- A command, which is its own number, about to be sent in a session. -/
def sends (session : String) (n : Nat) : Event Nat :=
  .hook { hook := .waitOnCommand n, session, result := some n }

/-- Two commands pause on one session and the first is taken by a `wait`. -/
def sharedSession : List (Event Nat) := [.start, sends "s" 1, sends "s" 2, .wait 0]

/-- Two commands pause on sessions of their own. -/
def ownSessions : List (Event Nat) := [.start, sends "s" 1, sends "t" 2, .wait 0]

/-- Resuming the first command with a document also completes the second one, with that document, and
its context is still queued. -/
theorem resume_shared_session : ∃ s s' c, Run.exec (step idleEnv) {} sharedSession = some s ∧
    s.current = some c ∧ c.ticket = 0 ∧ s.resume idleEnv (some 7) = .ok s' ∧
    s'.completed = [⟨0, none, some 7⟩, ⟨1, none, some 7⟩] ∧ s'.queue.map QpPauseContext.ticket = [1] ∧
    ¬ ResumesOnly s c (some 7) s' := by
  refine ⟨_, _, _, rfl, rfl, rfl, rfl, rfl, rfl, ?_⟩
  rintro ⟨⟨l, -, -, hcomp⟩, -⟩
  have hlen : 2 = 1 := congrArg List.length hcomp
  omega

theorem resume_own_sessions : ∃ s s' c, Run.exec (step idleEnv) {} ownSessions = some s ∧ s.current = some c ∧
    s.resume idleEnv (some 7) = .ok s' ∧ ResumesOnly s c (some 7) s' := by
  obtain ⟨s', hr, -, hclean⟩ := resume_targets_current idleEnv ownSessions _ _ (some 7) rfl rfl
  refine ⟨_, s', _, rfl, rfl, hr, hclean ?_⟩
  refine ⟨trivial, fun _ h1 => ?_⟩
  cases h1
  refine ⟨fun _ => rfl, fun _ h2 => ?_⟩
  cases h2
  refine ⟨fun _ => rfl, fun _ h3 => ?_⟩
  cases h3
  exact ⟨trivial, fun _ _ => trivial⟩

end MongoDriver.Querypie
