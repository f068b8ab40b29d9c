/-
What `stop` and `abort` leave behind. They complete every paused command once, but keep the current
context, and a callback that waits while they walk the queue can take a context from it. When nothing
is current and no such call happens, everything is reset: a later `wait` or `resume` concerns commands
paused later only.
-/
import MongoDriver.Querypie.Resume

namespace MongoDriver.Querypie

open QpPause

namespace QpPause

variable {δ : Type} {env : Env δ} {outcome : Listener δ → Completion δ}

/-! ## The walk over the queue -/

/-- Every paused command has its context in the queue. -/
def Queued (s : QpPause δ) : Prop := ∀ l ∈ s.listeners, ∃ c ∈ s.queue, c.listener = l

/-- The callbacks that the walk calls take nothing from the queue. -/
def QuietDrain (env : Env δ) (outcome : Listener δ → Completion δ) : Nat → QpPause δ → Prop
  | 0, _ => True
  | n + 1, s =>
    match s.queue with
    | [] => True
    | c :: queue =>
      QuietAll env outcome { s with queue } (s.onSession c.session) ∧
        QuietDrain env outcome n (emit env outcome c.session { s with queue })

theorem dropTickets_onSession {s : QpPause δ} (hs : Ticketed s) (session : String) :
    dropTickets ((s.onSession session).map Listener.ticket) s.listeners =
      s.listeners.filter (fun l => !decide (l.session = session)) := by
  refine List.filter_congr fun l hl => ?_
  rw [← decide_not, decide_eq_decide, not_iff_not]
  constructor
  · intro h
    obtain ⟨l', hl', ht⟩ := List.mem_map.1 h
    obtain ⟨hl', hsess⟩ := List.mem_filter.1 hl'
    rw [← List.inj_on_of_nodup_map hs.nodup hl' hl ht]
    simpa using hsess
  · intro h
    exact List.mem_map.2 ⟨l, List.mem_filter.2 ⟨hl, by simpa using h⟩, rfl⟩

/-- The state after a shutdown in which nothing was taken: the commands were completed in some order. -/
structure Drained (outcome : Listener δ → Completion δ) (s s' : QpPause δ) : Prop where
  completed : ∃ ls : List (Listener δ), s'.completed = s.completed ++ ls.map outcome ∧ ls.Perm s.listeners
  listeners : s'.listeners = []
  queue : s'.queue = []
  current : s'.current = none

theorem drain_drained (ho : OwnOutcome outcome) :
    ∀ (n : Nat) {s : QpPause δ}, s.queue.length ≤ n → s.isCommandCapturing = false → s.current = none →
      Ticketed s → Queued s → QuietDrain env outcome n s → Drained outcome s (s.drain env outcome n)
  | n, s, hn, hcap, hcur, ht, hq, hquiet => by
    cases hqueue : s.queue with
    | nil =>
      have hnil : s.listeners = [] := by
        refine List.eq_nil_iff_forall_not_mem.2 fun l hl => ?_
        obtain ⟨c, hc, -⟩ := hq l hl
        rw [hqueue] at hc; cases hc
      have hdrain : s.drain env outcome n = s := by
        cases n with
        | zero => rfl
        | succ n => unfold drain; rw [hqueue]
      rw [hdrain]
      exact ⟨⟨[], by simp, by rw [hnil]⟩, hnil, hqueue, hcur⟩
    | cons c queue =>
      cases n with
      | zero => rw [hqueue] at hn; simp at hn
      | succ n =>
        unfold QuietDrain at hquiet
        unfold drain
        rw [hqueue] at hquiet ⊢
        simp only at hquiet ⊢
        have ht' : Ticketed { s with queue } := ht.congr rfl rfl rfl
        obtain ⟨new, h⟩ := emit_emits outcome env c.session ht'.issued
        -- capturing is off, so that the callbacks pause nothing
        obtain rfl := h.silent hcap
        obtain ⟨hqueue', hcur'⟩ := h.queue hquiet.1
        simp only [List.append_nil] at hqueue'
        have hls : (emit env outcome c.session { s with queue }).listeners =
            s.listeners.filter (fun l => !decide (l.session = c.session)) := by
          rw [h.listeners, ← dropTickets_onSession ht c.session]
          simp [onSession]
        have hq' : Queued (emit env outcome c.session { s with queue }) := by
          intro l hl
          rw [hls] at hl
          obtain ⟨hl, hne⟩ := List.mem_filter.1 hl
          obtain ⟨c', hc', rfl⟩ := hq l hl
          rw [hqueue] at hc'
          rw [hqueue']
          -- the head is on the session that was emitted on
          rcases List.mem_cons.1 hc' with rfl | hc'
          · simp [QpPauseContext.listener] at hne
          · exact ⟨c', hc', rfl⟩
        have hlen : (emit env outcome c.session { s with queue }).queue.length ≤ n := by
          rw [hqueue']; rw [hqueue] at hn; simpa using hn
        obtain ⟨⟨ls, hcomp, hperm⟩, hl, hq'', hc''⟩ := drain_drained ho n hlen (h.capturing.trans hcap)
          (hcur'.trans hcur) (emit_ticketed ho env _ ht') hq' hquiet.2
        refine ⟨⟨s.onSession c.session ++ ls, ?_, ?_⟩, hl, hq'', hc''⟩
        · rw [hcomp, h.completed, List.map_append, List.append_assoc]; rfl
        · rw [hls] at hperm
          exact (List.Perm.append_left _ hperm).trans (List.filter_append_perm _ _)

/-! ## A current context stays -/

theorem nested_current_none {s : QpPause δ} {call : NestedCall δ} (h : (s.nested env call).current = none) :
    s.current = none ∧ s.Undisturbed call := by
  have hcur : s.current = none := by
    by_contra hne
    rw [nested_current hne] at h
    exact hne h
  refine ⟨hcur, ?_⟩
  cases call with
  | hook r => trivial
  | wait w =>
    change (s.wait w).current = none at h
    unfold wait take at h
    rw [hcur] at h
    simp only at h
    split at h
    · cases h
    · rename_i hq; exact .inr hq

theorem foldl_nested_current_none :
    ∀ (calls : List (NestedCall δ)) {s : QpPause δ}, (calls.foldl (nested env) s).current = none →
      s.current = none ∧ s.Quiet env calls
  | [], _, h => ⟨h, trivial⟩
  | call :: calls, s, h => by
    obtain ⟨h1, h2⟩ := foldl_nested_current_none calls h
    obtain ⟨h3, h4⟩ := nested_current_none h1
    exact ⟨h3, h4, fun t ht => by cases ht; exact h2⟩

theorem foldl_complete_current_none :
    ∀ (ls : List (Listener δ)) {s : QpPause δ}, (ls.foldl (complete env outcome) s).current = none →
      s.current = none ∧ s.QuietAll env outcome ls
  | [], _, h => ⟨h, trivial⟩
  | l :: ls, s, h => by
    obtain ⟨h1, h2⟩ := foldl_complete_current_none ls h
    obtain ⟨h3, h4⟩ := foldl_nested_current_none _ h1
    exact ⟨h3, h4, fun t ht => by cases ht; exact h2⟩

theorem drain_current_none :
    ∀ (n : Nat) {s : QpPause δ}, (s.drain env outcome n).current = none →
      s.current = none ∧ QuietDrain env outcome n s
  | 0, _, h => ⟨h, trivial⟩
  | n + 1, s, h => by
    unfold drain at h
    unfold QuietDrain
    cases hq : s.queue with
    | nil => rw [hq] at h; exact ⟨h, trivial⟩
    | cons c queue =>
      rw [hq] at h
      obtain ⟨h1, h2⟩ := drain_current_none n h
      obtain ⟨h3, h4⟩ := foldl_complete_current_none _ h1
      exact ⟨h3, h4, h2⟩

/-! ## After a shutdown -/

/-- Only commands with a ticket from `n` on are current or queued, and were returned by a `wait` after
the returns of `old`. -/
structure Later (n : Nat) (old : List (Nat × QpPauseContext δ)) (s : QpPause δ) : Prop where
  next : n ≤ s.next
  contexts : ∀ c ∈ s.current.toList ++ s.queue, n ≤ c.ticket
  returned : ∃ later, s.returned = old ++ later ∧ ∀ r ∈ later, n ≤ r.2.ticket

section Later

variable {n : Nat} {old : List (Nat × QpPauseContext δ)} {s : QpPause δ}

theorem Later.congr {s' : QpPause δ} (h : Later n old s) (h₁ : s.next ≤ s'.next) (h₂ : s'.current = s.current)
    (h₃ : s'.queue = s.queue) (h₄ : s'.returned = s.returned) : Later n old s' :=
  ⟨Nat.le_trans h.next h₁, by rw [h₂, h₃]; exact h.contexts, by rw [h₄]; exact h.returned⟩

theorem Later.pause (h : Later n old s) (r : Request δ) (command : δ) : Later n old (s.pause r command) := by
  refine ⟨Nat.le_succ_of_le h.next, ?_, h.returned⟩
  intro c hc
  simp only [QpPause.pause, tryRaisePause, ← List.append_assoc] at hc
  rcases List.mem_append.1 hc with hc | hc
  · exact h.contexts c hc
  · obtain rfl := List.mem_singleton.1 hc
    exact h.next

theorem Later.waitOn (h : Later n old s) (r : Request δ) : Later n old (s.waitOn env r) := by
  have hpass : ∀ result, Later n old (s.pass result) := fun _ => h.congr (Nat.le_succ _) rfl rfl rfl
  unfold QpPause.waitOn
  split
  · split
    · exact hpass _
    · split
      · exact hpass _
      · exact hpass _
      · exact hpass _
      · exact h.pause r _
  · split
    · exact hpass _
    · exact h.pause r _

theorem Later.take (h : Later n old s) (w : Nat) : Later n old (s.take w) := by
  unfold QpPause.take
  split
  · rename_i c queue hq
    have hc : n ≤ c.ticket := h.contexts c (by rw [hq]; simp)
    refine ⟨h.next, fun c' hc' => ?_, ?_⟩
    · rcases List.mem_append.1 hc' with hc' | hc'
      · obtain rfl : c' = c := by simpa using hc'
        exact hc
      · exact h.contexts c' (by rw [hq]; simp [hc'])
    · obtain ⟨later, hl, hge⟩ := h.returned
      refine ⟨later ++ [(w, c)], by rw [← List.append_assoc, ← hl], fun r hr => ?_⟩
      rcases List.mem_append.1 hr with hr | hr
      · exact hge r hr
      · obtain rfl := List.mem_singleton.1 hr; exact hc
  · exact h.congr (le_refl _) rfl rfl rfl

theorem Later.wait (h : Later n old s) (w : Nat) : Later n old (s.wait w) := by
  unfold QpPause.wait
  split
  · rename_i c hcur
    refine ⟨h.next, h.contexts, ?_⟩
    obtain ⟨later, hl, hge⟩ := h.returned
    refine ⟨later ++ [(w, c)], by rw [← List.append_assoc, ← hl], fun r hr => ?_⟩
    rcases List.mem_append.1 hr with hr | hr
    · exact hge r hr
    · obtain rfl := List.mem_singleton.1 hr
      exact h.contexts c (by rw [hcur]; simp)
  · exact h.take w

theorem Later.complete (h : Later n old s) (l : Listener δ) : Later n old (s.complete env outcome l) := by
  refine List.foldlRecOn _ _ ?_ fun s hs call _ => ?_
  · exact h.congr (le_refl _) rfl rfl rfl
  · cases call with
    | hook r => exact hs.waitOn r
    | wait w => exact hs.wait w

theorem Later.emit (h : Later n old s) (env : Env δ) (outcome : Listener δ → Completion δ) (session : String) :
    Later n old (s.emit env outcome session) :=
  List.foldlRecOn _ _ h fun _ hs l _ => hs.complete l

theorem Later.drain : ∀ (k : Nat) {s : QpPause δ}, Later n old s → Later n old (s.drain env outcome k)
  | 0, _, h => h
  | k + 1, s, h => by
    unfold QpPause.drain
    split
    · exact h
    · rename_i c queue hq
      refine Later.drain k (Later.emit (s := { s with queue }) ⟨h.next, fun c' hc' => ?_, h.returned⟩ env outcome _)
      rcases List.mem_append.1 hc' with hc' | hc'
      · exact h.contexts c' (List.mem_append_left _ hc')
      · exact h.contexts c' (by rw [hq]; simp [hc'])

theorem Later.shutdown (h : Later n old s) : Later n old (s.shutdown env outcome) := by
  unfold QpPause.shutdown
  refine Later.drain _ ?_
  have h' : Later n old { s with isCommandCapturing := false } := h.congr (le_refl _) rfl rfl rfl
  simp only
  split
  · exact h'.emit env outcome _
  · exact h'

end Later

end QpPause

variable {δ : Type} {env : Env δ}

theorem step_later {n : Nat} {old : List (Nat × QpPauseContext δ)} {s s' : QpPause δ} {e : Event δ}
    (hs : Later n old s) (h : step env s e = some s') : Later n old s' := by
  cases step_moves h with
  | start => exact hs.congr (le_refl _) rfl rfl rfl
  | stop => exact hs.shutdown
  | abort => exact hs.shutdown
  | @resume doc _ hr =>
    obtain ⟨c, -, rfl⟩ := resume_inv hr
    have he := hs.emit env (onResume doc) c.session
    exact ⟨he.next, fun c' hc' => he.contexts c' (List.mem_append_right _ hc'), he.returned⟩
  | refused => exact hs
  | hook r => exact hs.waitOn r
  | wait w => exact hs.wait w
  | @wake w _ =>
    have hs' : Later n old { s with woken := s.woken.erase w } := hs.congr (le_refl _) rfl rfl rfl
    exact hs'.take w
  | cancel => exact hs.congr (le_refl _) rfl rfl rfl

/-! ## Orderly runs -/

/-- Nothing is current, and no callback the walk calls takes a context from the queue. -/
def OrderlyShutdown (env : Env δ) (outcome : Listener δ → Completion δ) (s : QpPause δ) : Prop :=
  s.current = none ∧ QuietDrain env outcome s.queue.length { s with isCommandCapturing := false }

/-- Shutdowns are orderly, and a woken `wait` finds nothing current or nothing queued. -/
def Orderly (env : Env δ) (s : QpPause δ) : Event δ → Prop
  | .stop => OrderlyShutdown env (onResume none) s
  | .abort => OrderlyShutdown env onAbort s
  | .wake _ => s.current = none ∨ s.queue = []
  | .start | .resume _ | .hook _ | .wait _ | .cancel _ => True

/-- The context of every paused command is current or queued. -/
structure Tracked (s : QpPause δ) : Prop where
  ticketed : Ticketed s
  covered : ∀ l ∈ s.listeners, ∃ c ∈ s.current.toList ++ s.queue, c.listener = l

theorem Tracked.congr {s s' : QpPause δ} (hs : Tracked s) (h₁ : s'.listeners = s.listeners)
    (h₂ : s'.completed = s.completed) (h₃ : s'.next = s.next)
    (h₄ : s'.current.toList ++ s'.queue = s.current.toList ++ s.queue) : Tracked s' :=
  ⟨hs.ticketed.congr h₁ h₂ h₃, by rw [h₁, h₄]; exact hs.covered⟩

theorem Tracked.waitOn {s : QpPause δ} (hs : Tracked s) (r : Request δ) : Tracked (s.waitOn env r) := by
  obtain ⟨new, h, -⟩ := waitOn_emits (onResume none) True env s r
  obtain ⟨hq, hc⟩ := h.queue trivial
  refine ⟨waitOn_ticketed hs.ticketed r, fun l hl => ?_⟩
  rw [h.listeners] at hl
  rw [hq, hc, ← List.append_assoc]
  rcases List.mem_append.1 hl with hl | hl
  · obtain ⟨c, hc, rfl⟩ := hs.covered l (mem_dropTickets.1 hl).1
    exact ⟨c, List.mem_append_left _ hc, rfl⟩
  · obtain ⟨c, hc, rfl⟩ := List.mem_map.1 hl
    exact ⟨c, List.mem_append_right _ hc, rfl⟩

theorem Tracked.take {s : QpPause δ} (hs : Tracked s) (h : s.current = none ∨ s.queue = []) (w : Nat) :
    Tracked (s.take w) := by
  unfold QpPause.take
  split
  · rename_i c queue hq
    have hc : s.current = none := h.resolve_right (by rw [hq]; nofun)
    exact hs.congr rfl rfl rfl (by rw [hc, hq]; rfl)
  · exact hs.congr rfl rfl rfl rfl

theorem Tracked.wait {s : QpPause δ} (hs : Tracked s) (w : Nat) : Tracked (s.wait w) := by
  unfold QpPause.wait
  split
  · exact hs.congr rfl rfl rfl rfl
  · rename_i hc
    exact hs.take (.inl hc) w

theorem Tracked.resume {s s' : QpPause δ} {doc : Option δ} (hs : Tracked s) (h : s.resume env doc = .ok s') :
    Tracked s' := by
  obtain ⟨c, hc, rfl⟩ := resume_inv h
  obtain ⟨new, he⟩ := emit_emits (onResume doc) env c.session hs.ticketed.issued
  obtain ⟨hq, -⟩ := he.queue (quietAll_of_current _ _ _ (by rw [hc]; exact Option.some_ne_none c))
  refine ⟨(emit_ticketed (ownOutcome_onResume doc) env c.session hs.ticketed).congr rfl rfl rfl, fun l hl => ?_⟩
  change l ∈ (s.emit env (onResume doc) c.session).listeners at hl
  show ∃ c' ∈ (s.emit env (onResume doc) c.session).queue, c'.listener = l
  rw [he.listeners, dropTickets_onSession hs.ticketed] at hl
  rw [hq]
  rcases List.mem_append.1 hl with hl | hl
  · obtain ⟨hl, hne⟩ := List.mem_filter.1 hl
    obtain ⟨c', hc', rfl⟩ := hs.covered l hl
    rw [hc] at hc'
    -- the current context is on the session that was emitted on
    rcases List.mem_append.1 hc' with hc' | hc'
    · obtain rfl : c' = c := by simpa using hc'
      simp [QpPauseContext.listener] at hne
    · exact ⟨c', List.mem_append_left _ hc', rfl⟩
  · obtain ⟨c', hc', rfl⟩ := List.mem_map.1 hl
    exact ⟨c', List.mem_append_right _ hc', rfl⟩

theorem Tracked.drained {outcome : Listener δ → Completion δ} (ho : OwnOutcome outcome) {s : QpPause δ}
    (hs : Tracked s) (h : OrderlyShutdown env outcome s) : Drained outcome s (s.shutdown env outcome) := by
  obtain ⟨hcur, hquiet⟩ := h
  have hq : Queued s := by
    intro l hl
    have := hs.covered l hl
    rw [hcur] at this
    exact this
  unfold QpPause.shutdown
  simp only [hcur]
  have hd := drain_drained ho s.queue.length (s := { s with isCommandCapturing := false, current := none }) (le_refl _)
    rfl rfl (hs.ticketed.congr rfl rfl rfl) hq (by rw [hcur] at hquiet; exact hquiet)
  exact ⟨hd.completed, hd.listeners, hd.queue, hd.current⟩

theorem step_tracked {s s' : QpPause δ} {e : Event δ} (hs : Tracked s) (hok : Orderly env s e)
    (h : step env s e = some s') : Tracked s' := by
  have ht := step_ticketed hs.ticketed h
  cases step_moves h with
  | start => exact hs.congr rfl rfl rfl rfl
  | stop =>
    have hd := hs.drained (ownOutcome_onResume none) hok
    exact ⟨ht, fun l hl => by rw [QpPause.stop, hd.listeners] at hl; cases hl⟩
  | abort =>
    have hd := hs.drained ownOutcome_onAbort hok
    exact ⟨ht, fun l hl => by rw [QpPause.abort, hd.listeners] at hl; cases hl⟩
  | resume hr => exact hs.resume hr
  | refused => exact hs
  | hook r => exact hs.waitOn r
  | wait w => exact hs.wait w
  | @wake w _ =>
    have hs' : Tracked { s with woken := s.woken.erase w } := hs.congr rfl rfl rfl rfl
    exact hs'.take hok w
  | cancel => exact hs.congr rfl rfl rfl rfl

/-! ## Shutdowns of orderly runs -/

/-- Every paused command was called exactly once, with the outcome; nothing is current or queued; and
whatever happens later, a `wait` returns and a `resume` finds only commands paused after. -/
structure ResetBy (env : Env δ) (outcome : Listener δ → Completion δ) (s s' : QpPause δ) : Prop where
  once : ∀ l ∈ s.listeners, s'.completed.filter (·.ticket = l.ticket) = [outcome l]
  queue : s'.queue = []
  current : s'.current = none
  later : ∀ es s'', Run.exec (step env) s' es = some s'' →
    (∃ later, s''.returned = s'.returned ++ later ∧ ∀ r ∈ later, s'.next ≤ r.2.ticket) ∧
    ∀ doc, s''.resume env doc = .error "Not paused currently" ∨ ∃ c, s''.current = some c ∧ s'.next ≤ c.ticket

theorem drained_once {outcome : Listener δ → Completion δ} (ho : OwnOutcome outcome) {s s' : QpPause δ}
    (hs : Ticketed s) (h : Drained outcome s s') {l : Listener δ} (hl : l ∈ s.listeners) :
    s'.completed.filter (·.ticket = l.ticket) = [outcome l] := by
  obtain ⟨ls, hcomp, hperm⟩ := h.completed
  have hold : s.completed.filter (·.ticket = l.ticket) = [] := by
    refine List.filter_eq_nil_iff.2 fun k hk => ?_
    simpa using hs.completed_gone k hk l hl
  have hmap : (ls.map outcome).filter (·.ticket = l.ticket) = (ls.filter (·.ticket = l.ticket)).map outcome := by
    rw [List.filter_map]
    congr 1
    refine List.filter_congr fun x _ => ?_
    simp [ho x]
  -- tickets are distinct: the completions of `l` are those of the one listener with its ticket
  have hone : s.listeners.filter (·.ticket = l.ticket) = [l] := by
    have hnd : (s.listeners.filter (·.ticket = l.ticket)).Nodup := (List.Nodup.of_map _ hs.nodup).filter _
    refine List.perm_singleton.1 ?_
    rw [List.perm_ext_iff_of_nodup hnd (List.nodup_singleton l)]
    intro x
    rw [List.mem_filter, List.mem_singleton]
    constructor
    · rintro ⟨hx, ht⟩
      exact List.inj_on_of_nodup_map hs.nodup hx hl (by simpa using ht)
    · rintro rfl
      exact ⟨hl, by simp⟩
  have hls : ls.filter (·.ticket = l.ticket) = [l] :=
    List.perm_singleton.1 ((hperm.filter _).trans (by rw [hone]))
  rw [hcomp, List.filter_append, hold, hmap, hls]
  rfl

theorem drained_resetBy {outcome : Listener δ → Completion δ} (ho : OwnOutcome outcome) {s s' : QpPause δ}
    (hs : Ticketed s) (h : Drained outcome s s') : ResetBy env outcome s s' where
  once := fun _ hl => drained_once ho hs h hl
  queue := h.queue
  current := h.current
  later := by
    intro es s'' hrun
    have hstart : Later s'.next s'.returned s' :=
      ⟨le_refl _, by rw [h.current, h.queue]; simp, [], by simp, by simp⟩
    have hlater := Run.exec_inv (step env) (fun _ _ _ hl hst => step_later hl hst) hstart hrun
    refine ⟨hlater.returned, fun doc => ?_⟩
    cases hc : s''.current with
    | none => exact .inl (by unfold QpPause.resume; rw [hc])
    | some c => exact .inr ⟨c, rfl, hlater.contexts c (by rw [hc]; simp)⟩

/-- A shutdown that leaves nothing current was orderly. -/
theorem orderly_of_current_none {outcome : Listener δ → Completion δ} {s : QpPause δ}
    (h : (s.shutdown env outcome).current = none) : OrderlyShutdown env outcome s := by
  unfold QpPause.shutdown at h
  obtain ⟨h1, h2⟩ := drain_current_none _ h
  cases hc : s.current with
  | none =>
    simp only [hc] at h2
    refine ⟨hc, ?_⟩
    rw [hc]; exact h2
  | some c =>
    simp only [hc] at h1
    obtain ⟨h3, -⟩ := foldl_complete_current_none _ h1
    cases h3

/-- Along an orderly run a `stop` or `abort` completes and resets everything exactly when it is
orderly itself: nothing is current, and no callback it calls takes a context from the queue. -/
theorem shutdown_resets (env : Env δ) (es : List (Event δ)) (s : QpPause δ)
    (hrun : Run.exec (step env) {} es = some s) (hok : Run.Meets (step env) (Orderly env) {} es) :
    (ResetBy env (onResume none) s (s.stop env) ↔ Orderly env s .stop) ∧
      (ResetBy env onAbort s (s.abort env) ↔ Orderly env s .abort) := by
  have hs : Tracked s := by
    refine Run.exec_inv_meets (step env) (fun _ _ _ h ho hst => step_tracked h ho hst) ?_ hok hrun
    exact ⟨ticketed_init, fun l hl => by cases hl⟩
  refine ⟨⟨fun h => orderly_of_current_none h.current, fun h => ?_⟩,
    ⟨fun h => orderly_of_current_none h.current, fun h => ?_⟩⟩
  · exact drained_resetBy (ownOutcome_onResume none) hs.ticketed (hs.drained (ownOutcome_onResume none) h)
  · exact drained_resetBy ownOutcome_onAbort hs.ticketed (hs.drained ownOutcome_onAbort h)

/-- One command is taken by a `wait`, a second one stays queued. -/
def oneTaken : List (Event Nat) := [.start, sends "s" 1, .wait 0, sends "t" 2]

/-- After the `stop` the first command is completed but still current: a `wait` returns its context
and a `resume` finds it. -/
theorem stop_keeps_current : ∃ s c, Run.exec (step idleEnv) {} oneTaken = some s ∧ c.ticket = 0 ∧
    (s.stop idleEnv).completed = [⟨0, none, some 1⟩, ⟨1, none, some 2⟩] ∧ (s.stop idleEnv).current = some c ∧
    ((s.stop idleEnv).wait 5).returned = [(0, c), (5, c)] ∧ ¬ ResetBy idleEnv (onResume none) s (s.stop idleEnv) := by
  refine ⟨_, _, rfl, rfl, rfl, rfl, rfl, fun h => ?_⟩
  have hcur := h.current
  cases hcur

/-- Two commands are queued and none was taken. -/
theorem shutdown_of_queued : ∃ s, Run.exec (step idleEnv) {} [.start, sends "s" 1, sends "s" 2] = some s ∧
    ResetBy idleEnv (onResume none) s (s.stop idleEnv) ∧ ResetBy idleEnv onAbort s (s.abort idleEnv) := by
  have hok : Run.Meets (step idleEnv) (Orderly idleEnv) {} [.start, sends "s" 1, sends "s" 2] :=
    ⟨trivial, fun _ _ => ⟨trivial, fun _ _ => ⟨trivial, fun _ _ => trivial⟩⟩⟩
  obtain ⟨hstop, habort⟩ := shutdown_resets idleEnv [.start, sends "s" 1, sends "s" 2] _ rfl hok
  refine ⟨_, rfl, hstop.2 ⟨rfl, ?_⟩, habort.2 ⟨rfl, ?_⟩⟩
  · exact ⟨⟨trivial, fun _ _ => ⟨trivial, fun _ _ => trivial⟩⟩, ⟨trivial, trivial⟩⟩
  · exact ⟨⟨trivial, fun _ _ => ⟨trivial, fun _ _ => trivial⟩⟩, ⟨trivial, trivial⟩⟩

end MongoDriver.Querypie
