/-
Concurrent `wait` calls. A `wait` looks at the current context when it is called and not again when it is woken:
a woken one that finds another command in the queue takes it, and what was current is lost. As long as every
woken `wait` finds nothing current or nothing queued, all of them agree on the current context. None stays
blocked in any case: a `wait` listens only while the queue is empty, and every context that is queued wakes all.
-/
import MongoDriver.Querypie.Resume

namespace MongoDriver.Querypie

namespace QpPause

variable {δ : Type} {env : Env δ} {outcome : Listener δ → Completion δ}

/-! ## What holds in every state -/

/-- A queued context is news to all who wait, and contexts are told apart by their tickets. -/
structure Attentive (s : QpPause δ) : Prop where
  awake : s.queue ≠ [] → s.waiting = []
  issued : ∀ c ∈ s.current.toList ++ s.queue, c.ticket < s.next
  apart : (s.queue.map QpPauseContext.ticket).Nodup
  untaken : ∀ c, s.current = some c → ∀ c' ∈ s.queue, c' ≠ c

namespace Attentive

variable {s s' : QpPause δ}

theorem init : Attentive ({} : QpPause δ) where
  awake h := absurd rfl h
  issued := by simp
  apart := .nil
  untaken _ h := nomatch h

theorem congr (h : Attentive s) (hqueue : s'.queue = s.queue) (hcurrent : s'.current = s.current)
    (hwaiting : ∀ w ∈ s'.waiting, w ∈ s.waiting) (hnext : s.next ≤ s'.next) : Attentive s' where
  awake hq := by
    rw [hqueue] at hq
    refine List.eq_nil_iff_forall_not_mem.2 fun w hw => ?_
    have hmem := hwaiting w hw
    rw [h.awake hq] at hmem
    cases hmem
  issued c hc := by
    rw [hcurrent, hqueue] at hc
    exact Nat.lt_of_lt_of_le (h.issued c hc) hnext
  apart := by
    rw [hqueue]
    exact h.apart
  untaken := by
    rw [hcurrent, hqueue]
    exact h.untaken

theorem pause (h : Attentive s) (r : Request δ) (command : δ) : Attentive (s.pause r command) where
  awake _ := rfl
  issued c hc := by
    simp only [QpPause.pause, tryRaisePause, ← List.append_assoc] at hc
    rcases List.mem_append.1 hc with hc | hc
    · exact Nat.lt_succ_of_lt (h.issued c hc)
    · obtain rfl := List.mem_singleton.1 hc
      exact Nat.lt_succ_self _
  apart := by
    simp only [QpPause.pause, tryRaisePause, List.map_append, List.map_singleton]
    refine List.nodup_append.2 ⟨h.apart, List.nodup_singleton _, ?_⟩
    intro t ht t' ht' heq
    obtain ⟨c, hc, rfl⟩ := List.mem_map.1 ht
    obtain rfl := List.mem_singleton.1 ht'
    exact absurd (h.issued c (List.mem_append_right _ hc)) (by omega)
  untaken c hc c' hc' := by
    simp only [QpPause.pause, tryRaisePause] at hc hc'
    rcases List.mem_append.1 hc' with hc' | hc'
    · exact h.untaken c hc c' hc'
    · obtain rfl := List.mem_singleton.1 hc'
      rintro rfl
      exact absurd (h.issued _ (List.mem_append_left _ (Option.mem_toList.2 hc))) (Nat.lt_irrefl _)

theorem waitOn (h : Attentive s) (r : Request δ) : Attentive (s.waitOn env r) := by
  have hpass : ∀ result, Attentive (s.pass result) := fun _ => h.congr rfl rfl (fun _ hw => hw) (Nat.le_succ _)
  unfold QpPause.waitOn
  split
  · split
    · exact hpass _
    · split
      · exact hpass _
      · exact hpass _
      · exact hpass _
      · exact h.pause r _
  · split
    · exact hpass _
    · exact h.pause r _

/-- The head of the queue becomes current. -/
theorem shift (h : Attentive s) {c : QpPauseContext δ} {queue : List (QpPauseContext δ)} (hq : s.queue = c :: queue)
    (hqueue : s'.queue = queue) (hcurrent : s'.current = some c ∨ s'.current = s.current)
    (hwaiting : s'.waiting = s.waiting) (hnext : s'.next = s.next) : Attentive s' where
  awake _ := by
    rw [hwaiting]
    exact h.awake (by rw [hq]; exact List.cons_ne_nil _ _)
  issued c' hc' := by
    rw [hnext]
    refine h.issued c' ?_
    rw [hqueue] at hc'
    rcases List.mem_append.1 hc' with hc' | hc'
    · rcases hcurrent with hcurrent | hcurrent
      · rw [hcurrent] at hc'
        obtain rfl := List.mem_singleton.1 hc'
        exact List.mem_append_right _ (hq ▸ List.mem_cons_self ..)
      · exact List.mem_append_left _ (hcurrent ▸ hc')
    · exact List.mem_append_right _ (hq ▸ List.mem_cons_of_mem _ hc')
  apart := by
    have hapart := h.apart
    rw [hq, List.map_cons] at hapart
    rw [hqueue]
    exact (List.nodup_cons.1 hapart).2
  untaken c' hc' c'' hc'' := by
    rw [hqueue] at hc''
    rcases hcurrent with hcurrent | hcurrent
    · rw [hcurrent] at hc'
      cases hc'
      have hapart := h.apart
      rw [hq, List.map_cons] at hapart
      rintro rfl
      exact (List.nodup_cons.1 hapart).1 (List.mem_map_of_mem hc'')
    · exact h.untaken c' (hcurrent ▸ hc') c'' (hq ▸ List.mem_cons_of_mem _ hc'')

theorem take (h : Attentive s) (w : Nat) : Attentive (s.take w) := by
  unfold QpPause.take
  split
  · rename_i c queue hq
    exact h.shift hq rfl (.inl rfl) rfl rfl
  · rename_i hq
    refine ⟨fun hne => absurd hq hne, h.issued, h.apart, h.untaken⟩

theorem wait (h : Attentive s) (w : Nat) : Attentive (s.wait w) := by
  unfold QpPause.wait
  split
  · exact h.congr rfl rfl (fun _ hw => hw) (Nat.le_refl _)
  · exact h.take w

theorem complete (h : Attentive s) (l : Listener δ) : Attentive (s.complete env outcome l) := by
  refine List.foldlRecOn _ _ ?_ fun s hs call _ => ?_
  · exact h.congr rfl rfl (fun _ hw => hw) (Nat.le_refl _)
  · cases call with
    | hook r => exact hs.waitOn r
    | wait w => exact hs.wait w

theorem emit (h : Attentive s) (env : Env δ) (outcome : Listener δ → Completion δ) (session : String) :
    Attentive (s.emit env outcome session) :=
  List.foldlRecOn _ _ h fun _ hs l _ => hs.complete l

theorem drain : ∀ (k : Nat) {s : QpPause δ}, Attentive s → Attentive (s.drain env outcome k)
  | 0, _, h => h
  | k + 1, s, h => by
    unfold QpPause.drain
    split
    · exact h
    · rename_i c queue hq
      have hshift : Attentive { s with queue } := h.shift hq rfl (.inr rfl) rfl rfl
      exact drain k (hshift.emit env outcome _)

theorem shutdown (h : Attentive s) : Attentive (s.shutdown env outcome) := by
  have h' : Attentive { s with isCommandCapturing := false } := h.congr rfl rfl (fun _ hw => hw) (Nat.le_refl _)
  unfold QpPause.shutdown
  refine drain _ ?_
  simp only
  split
  · exact h'.emit env outcome _
  · exact h'

theorem resume (h : Attentive s) {doc : Option δ} (hr : s.resume env doc = .ok s') : Attentive s' := by
  obtain ⟨c, -, rfl⟩ := resume_inv hr
  have he := h.emit env (onResume doc) c.session
  refine ⟨fun _ => rfl, fun c' hc' => he.issued c' (List.mem_append_right _ hc'), he.apart, fun _ hc' => (nomatch hc')⟩

end Attentive

/-! ## What is returned -/

/-- What is current stays so, and every `wait` that returns meanwhile returns what is current in the end. -/
structure Follows (s s' : QpPause δ) : Prop where
  kept : ∀ c, s.current = some c → s'.current = some c
  returned : ∃ new, s'.returned = s.returned ++ new ∧ ∀ r ∈ new, s'.current = some r.2

namespace Follows

variable {s s' t : QpPause δ}

theorem of_eq (hcurrent : s'.current = s.current) (hreturned : s'.returned = s.returned) : Follows s s' :=
  ⟨fun _ hc => hcurrent.trans hc, [], by rw [hreturned, List.append_nil], fun _ hr => (nomatch hr)⟩

theorem trans (h : Follows s t) (h' : Follows t s') : Follows s s' := by
  obtain ⟨new, hnew, hcurrent⟩ := h.returned
  obtain ⟨new', hnew', hcurrent'⟩ := h'.returned
  refine ⟨fun c hc => h'.kept c (h.kept c hc), new ++ new', by rw [hnew', hnew, List.append_assoc], fun r hr => ?_⟩
  rcases List.mem_append.1 hr with hr | hr
  · exact h'.kept _ (hcurrent r hr)
  · exact hcurrent' r hr

theorem waitOn (r : Request δ) : Follows s (s.waitOn env r) := by
  unfold QpPause.waitOn
  split
  · split
    · exact of_eq rfl rfl
    · split <;> exact of_eq rfl rfl
  · split <;> exact of_eq rfl rfl

theorem take (h : s.current = none ∨ s.queue = []) (w : Nat) : Follows s (s.take w) := by
  unfold QpPause.take
  split
  · rename_i c queue hq
    have hnone : s.current = none := h.resolve_right (by rw [hq]; exact List.cons_ne_nil _ _)
    refine ⟨fun c' hc' => ?_, [(w, c)], rfl, fun r hr => ?_⟩
    · rw [hnone] at hc'
      cases hc'
    · obtain rfl := List.mem_singleton.1 hr
      rfl
  · exact of_eq rfl rfl

/-- A `wait` that is called looks at what is current first. -/
theorem wait (w : Nat) : Follows s (s.wait w) := by
  unfold QpPause.wait
  split
  · rename_i c hc
    refine ⟨fun _ hc' => hc', [(w, c)], rfl, fun r hr => ?_⟩
    obtain rfl := List.mem_singleton.1 hr
    exact hc
  · rename_i hnone
    exact take (.inl hnone) w

theorem complete (l : Listener δ) : Follows s (s.complete env outcome l) := by
  have hstart : Follows s (s.dispatch outcome l) := of_eq rfl rfl
  refine List.foldlRecOn _ _ hstart fun t ht call _ => ?_
  cases call with
  | hook r => exact ht.trans (waitOn r)
  | wait w => exact ht.trans (wait w)

theorem emit (env : Env δ) (outcome : Listener δ → Completion δ) (session : String) (s : QpPause δ) :
    Follows s (s.emit env outcome session) :=
  List.foldlRecOn _ _ (of_eq rfl rfl) fun _ ht l _ => ht.trans (complete l)

theorem drain : ∀ (k : Nat) (s : QpPause δ), Follows s (s.drain env outcome k)
  | 0, _ => of_eq rfl rfl
  | k + 1, s => by
    unfold QpPause.drain
    split
    · exact of_eq rfl rfl
    · rename_i c queue hq
      have hshift : Follows s { s with queue } := of_eq rfl rfl
      exact (hshift.trans (emit env outcome _ _)).trans (drain k _)

theorem shutdown (env : Env δ) (outcome : Listener δ → Completion δ) (s : QpPause δ) :
    Follows s (s.shutdown env outcome) := by
  have hstart : Follows s { s with isCommandCapturing := false } := of_eq rfl rfl
  unfold QpPause.shutdown
  simp only
  split
  · exact (hstart.trans (emit env outcome _ _)).trans (drain _ _)
  · exact hstart.trans (drain _ _)

end Follows

end QpPause

open QpPause

variable {δ : Type} {env : Env δ}

/-! ## Steps and runs -/

/-- The command of a context was completed, which only `resume`, `stop` and `abort` do. -/
def QpPause.Settled (s : QpPause δ) (c : QpPauseContext δ) : Prop := ∃ r ∈ s.completed, r.ticket = c.ticket

/-- What one event does to the waiters: the current context is replaced by no one but `resume` until it is settled;
a `wait` that returns gives the context that was current or, if there was none, the one that is now; and while
something is queued and nothing current nobody is blocked. -/
structure WaitersAgree (s : QpPause δ) (e : Event δ) (s' : QpPause δ) : Prop where
  kept : (∀ doc, e ≠ .resume doc) → ∀ c, s.current = some c → ¬ s'.Settled c → s'.current = some c
  returned : ∃ new, s'.returned = s.returned ++ new ∧
    ∀ r ∈ new, (∃ c, s.current = some c ∧ s.Settled c) ∨ (s.current <|> s'.current) = some r.2
  awake : s'.queue ≠ [] → s'.current = none → s'.waiting = []

/-- A woken `wait` finds nothing queued, nothing current or what is current settled. -/
def FindsItsOwn (s : QpPause δ) : Event δ → Prop
  | .wake _ => s.queue = [] ∨ ∀ c, s.current = some c → s.Settled c
  | _ => True

theorem step_attentive {s s' : QpPause δ} {e : Event δ} (hs : Attentive s) (h : step env s e = some s') :
    Attentive s' := by
  cases step_moves h with
  | start => exact hs.congr rfl rfl (fun _ hw => hw) (Nat.le_refl _)
  | stop => exact hs.shutdown
  | abort => exact hs.shutdown
  | resume hr => exact hs.resume hr
  | refused => exact hs
  | hook r => exact hs.waitOn r
  | wait w => exact hs.wait w
  | @wake w _ =>
    have hs' : Attentive { s with woken := s.woken.erase w } := hs.congr rfl rfl (fun _ hw => hw) (Nat.le_refl _)
    exact hs'.take w
  | cancel => exact hs.congr rfl rfl (fun _ hw => List.mem_of_mem_erase hw) (Nat.le_refl _)

theorem QpPause.Follows.agree {s s' : QpPause δ} {e : Event δ} (h : Follows s s') (hs' : Attentive s') :
    WaitersAgree s e s' := by
  refine ⟨fun _ c hc _ => h.kept c hc, ?_, fun hq _ => hs'.awake hq⟩
  obtain ⟨new, hnew, hcurrent⟩ := h.returned
  refine ⟨new, hnew, fun r hr => .inr ?_⟩
  cases hc : s.current with
  | none => exact hcurrent r hr
  | some c =>
    rw [h.kept c hc] at hcurrent
    exact hcurrent r hr

/-- `resume` drops the current context after the callbacks ran, so they still find it. -/
theorem resume_agree {s s' : QpPause δ} {doc : Option δ} (hs' : Attentive s') (h : s.resume env doc = .ok s') :
    WaitersAgree s (.resume doc) s' := by
  obtain ⟨c, hc, rfl⟩ := resume_inv h
  have he := Follows.emit env (onResume doc) c.session s
  obtain ⟨new, hnew, hcurrent⟩ := he.returned
  refine ⟨fun hne => absurd rfl (hne doc), ⟨new, hnew, fun r hr => .inr ?_⟩, fun hq _ => hs'.awake hq⟩
  rw [he.kept c hc] at hcurrent
  rw [hc]
  exact hcurrent r hr

/-- A woken `wait` takes the head of the queue, which is not what is current. -/
theorem wake_agree_iff {s : QpPause δ} {w : Nat} (hs : Attentive s)
    (hs' : Attentive (QpPause.take { s with woken := s.woken.erase w } w)) :
    FindsItsOwn s (.wake w) ↔ WaitersAgree s (.wake w) (QpPause.take { s with woken := s.woken.erase w } w) := by
  by_cases hempty : s.queue = []
  · have hf : Follows s (QpPause.take { s with woken := s.woken.erase w } w) := by
      simp only [QpPause.take, hempty]
      exact Follows.of_eq rfl rfl
    exact iff_of_true (.inl hempty) (hf.agree hs')
  · obtain ⟨c', queue, hq⟩ := List.exists_cons_of_ne_nil hempty
    constructor
    · intro hfinds
      have hsettled := hfinds.resolve_left hempty
      refine ⟨fun _ c hc hopen => absurd ?_ hopen, ⟨[(w, c')], by simp only [QpPause.take, hq], fun r hr => ?_⟩,
        fun hq' _ => hs'.awake hq'⟩
      · simp only [QpPause.take, hq]
        exact hsettled c hc
      · obtain rfl := List.mem_singleton.1 hr
        cases hc : s.current with
        | none => exact .inr (by simp only [QpPause.take, hq]; rfl)
        | some c => exact .inl ⟨c, rfl, hsettled c hc⟩
    · intro hagree
      refine .inr fun c hc => Classical.byContradiction fun hopen => ?_
      have hkept := hagree.kept (fun _ heq => (nomatch heq)) c hc
      simp only [QpPause.take, hq] at hkept
      have hmem : c' ∈ s.queue := by
        rw [hq]
        exact List.mem_cons_self ..
      exact hs.untaken c hc c' hmem (Option.some.inj (hkept hopen))

/-- The exact condition on one event. -/
theorem agree_iff {s s' : QpPause δ} {e : Event δ} (hs : Attentive s) (h : step env s e = some s') :
    FindsItsOwn s e ↔ WaitersAgree s e s' := by
  have hs' := step_attentive hs h
  cases step_moves h with
  | start =>
    have hf : Follows s s.start := Follows.of_eq rfl rfl
    exact iff_of_true trivial (hf.agree hs')
  | stop => exact iff_of_true trivial ((Follows.shutdown env _ s).agree hs')
  | abort => exact iff_of_true trivial ((Follows.shutdown env _ s).agree hs')
  | resume hr => exact iff_of_true trivial (resume_agree hs' hr)
  | refused =>
    have hf : Follows s s := Follows.of_eq rfl rfl
    exact iff_of_true trivial (hf.agree hs')
  | hook r => exact iff_of_true trivial ((Follows.waitOn r).agree hs')
  | wait w => exact iff_of_true trivial ((Follows.wait w).agree hs')
  | wake => exact wake_agree_iff hs hs'
  | cancel w =>
    have hf : Follows s { s with waiting := s.waiting.erase w } := Follows.of_eq rfl rfl
    exact iff_of_true trivial (hf.agree hs')

/-- For every run of pauses, resumes, cancellations and wakes in any order: the waiters agree at each step, exactly
when every woken `wait` finds nothing queued, nothing current or what is current settled. -/
theorem waiters_agree_iff (env : Env δ) (es : List (Event δ)) (s : QpPause δ)
    (hrun : Run.exec (step env) {} es = some s) :
    (∀ es₁ e es₂ u v, es = es₁ ++ e :: es₂ → Run.exec (step env) {} es₁ = some u → step env u e = some v →
        WaitersAgree u e v) ↔
      Run.Meets (step env) FindsItsOwn {} es :=
  (Run.meets_iff_steps_inv (step env) (fun _ _ _ => step_attentive) (fun _ _ _ => agree_iff) Attentive.init hrun).symm

/-- One `wait` is woken by the one command that pauses. -/
def oneWaiter : List (Event Nat) := [.start, .wait 0, sends "a" 1, .wake 0]

theorem oneWaiter_agrees : ∃ s, Run.exec (step idleEnv) {} oneWaiter = some s ∧ s.returned.length = 1 ∧
    ∀ es₁ e es₂ u v, oneWaiter = es₁ ++ e :: es₂ → Run.exec (step idleEnv) {} es₁ = some u →
      step idleEnv u e = some v → WaitersAgree u e v := by
  refine ⟨_, rfl, rfl, (waiters_agree_iff idleEnv oneWaiter _ rfl).2 ?_⟩
  refine .cons trivial rfl (.cons trivial rfl (.cons trivial rfl (.cons (.inr fun c hc => ?_) rfl trivial)))
  cases hc

/-- Two `wait` calls are woken by one command; the first takes it, and the second listens until the next command
pauses. -/
def twoWaiters : List (Event Nat) := [.start, .wait 0, .wait 1, sends "a" 1, .wake 0, .wake 1, sends "b" 2]

/-- The second `wait` replaces what the first one returned before it was resumed. -/
theorem twoWaiters_overwrite : ∃ u v c c', Run.exec (step idleEnv) {} twoWaiters = some u ∧
    step idleEnv u (.wake 1) = some v ∧ u.returned = [(0, c)] ∧ u.current = some c ∧ c.ticket = 0 ∧
    v.returned = [(0, c), (1, c')] ∧ v.current = some c' ∧ c'.ticket = 1 ∧ v.completed = [] ∧
    ¬ WaitersAgree u (.wake 1) v := by
  refine ⟨_, _, _, _, rfl, rfl, rfl, rfl, rfl, rfl, rfl, rfl, rfl, fun hagree => ?_⟩
  have hkept := hagree.kept (fun _ heq => (nomatch heq)) _ rfl fun ⟨_, hr, _⟩ => (nomatch hr)
  exact absurd (congrArg QpPauseContext.ticket (Option.some.inj hkept)) (by decide)

end MongoDriver.Querypie
