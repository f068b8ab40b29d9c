/-
What emitting on a session does. The callbacks it runs can pause further commands and, while a
context is current or when they never wait, only append to the queue; the listeners left are the
ones of other sessions and those of the commands paused meanwhile.
-/
import MongoDriver.Querypie.Pause
import Mathlib.Data.Nat.Basic

namespace MongoDriver.Querypie

namespace QpPause

variable {δ : Type} {env : Env δ} {outcome : Listener δ → Completion δ}

/-- The listeners without those that have one of the tickets. -/
def dropTickets (tickets : List Nat) (ls : List (Listener δ)) : List (Listener δ) := ls.filter (·.ticket ∉ tickets)

@[simp] theorem mem_dropTickets {tickets : List Nat} {ls : List (Listener δ)} {l : Listener δ} :
    l ∈ dropTickets tickets ls ↔ l ∈ ls ∧ l.ticket ∉ tickets := by
  simp [dropTickets]

@[simp] theorem dropTickets_nil (ls : List (Listener δ)) : dropTickets [] ls = ls := by simp [dropTickets]

theorem dropTickets_append (tickets tickets' : List Nat) (ls : List (Listener δ)) :
    dropTickets tickets' (dropTickets tickets ls) = dropTickets (tickets ++ tickets') ls := by
  unfold dropTickets
  rw [List.filter_filter]
  refine List.filter_congr ?_
  intro x _
  simp only [List.mem_append, not_or, Bool.decide_and]
  rw [Bool.and_comm]

/-- All tickets of the listeners have been given out. -/
def Issued (s : QpPause δ) (ls : List (Listener δ)) : Prop := ∀ l ∈ ls, l.ticket < s.next

/-- What calling the listeners `ls` does: each is called once, in order, and removed; the commands of
`new` were paused meanwhile, under fresh tickets. When `quiet` holds nothing is taken from the queue. -/
structure Emits (outcome : Listener δ → Completion δ) (ls : List (Listener δ)) (quiet : Prop) (s s' : QpPause δ)
    (new : List (QpPauseContext δ)) : Prop where
  listeners : s'.listeners = dropTickets (ls.map Listener.ticket) s.listeners ++ new.map QpPauseContext.listener
  completed : s'.completed = s.completed ++ ls.map outcome
  capturing : s'.isCommandCapturing = s.isCommandCapturing
  next_le : s.next ≤ s'.next
  fresh : ∀ c ∈ new, s.next ≤ c.ticket ∧ c.ticket < s'.next
  nodup : (new.map QpPauseContext.ticket).Nodup
  silent : s.isCommandCapturing = false → new = []
  queue : quiet → s'.queue = s.queue ++ new ∧ s'.current = s.current

theorem Emits.weaken {ls : List (Listener δ)} {quiet quiet' : Prop} {s s' : QpPause δ}
    {new : List (QpPauseContext δ)} (h : Emits outcome ls quiet s s' new) (hq : quiet' → quiet) :
    Emits outcome ls quiet' s s' new :=
  ⟨h.listeners, h.completed, h.capturing, h.next_le, h.fresh, h.nodup, h.silent, fun hq' => h.queue (hq hq')⟩

/-- A step that touches no listener, nor the queue when `quiet` holds. -/
theorem Emits.of_eq {quiet : Prop} {s s' : QpPause δ} (h₁ : s'.listeners = s.listeners)
    (h₂ : s'.completed = s.completed) (h₃ : s'.isCommandCapturing = s.isCommandCapturing) (h₄ : s.next ≤ s'.next)
    (hq : quiet → s'.queue = s.queue ∧ s'.current = s.current) : Emits outcome [] quiet s s' [] where
  listeners := by simpa using h₁
  completed := by simpa using h₂
  capturing := h₃
  next_le := h₄
  fresh := by simp
  nodup := by simp
  silent := fun _ => rfl
  queue := by simpa using hq

theorem Emits.trans {ls ls' : List (Listener δ)} {quiet : Prop} {s s₁ s' : QpPause δ}
    {new new' : List (QpPauseContext δ)} (h₁ : Emits outcome ls quiet s s₁ new)
    (h₂ : Emits outcome ls' quiet s₁ s' new') (hi : s.Issued ls') :
    Emits outcome (ls ++ ls') quiet s s' (new ++ new') where
  listeners := by
    -- the commands paused first have tickets beyond those of the listeners called second
    have hkeep : dropTickets (ls'.map Listener.ticket) (new.map QpPauseContext.listener) =
        new.map QpPauseContext.listener := by
      refine List.filter_eq_self.2 ?_
      intro l hl
      obtain ⟨c, hc, rfl⟩ := List.mem_map.1 hl
      simp only [decide_eq_true_eq, List.mem_map, not_exists, not_and]
      intro l' hl' heq
      have hlt := hi l' hl'
      have hge := (h₁.fresh c hc).1
      have htick : l'.ticket = c.ticket := heq
      omega
    rw [h₂.listeners, h₁.listeners]
    unfold dropTickets at hkeep
    rw [List.map_append, List.map_append, ← dropTickets_append, ← List.append_assoc]
    congr 1
    unfold dropTickets
    rw [List.filter_append, hkeep]
  completed := by rw [h₂.completed, h₁.completed, List.map_append, List.append_assoc]
  capturing := h₂.capturing.trans h₁.capturing
  next_le := Nat.le_trans h₁.next_le h₂.next_le
  fresh := by
    intro c hc
    have hle := h₁.next_le
    have hle' := h₂.next_le
    rcases List.mem_append.1 hc with hc | hc
    · have := h₁.fresh c hc; omega
    · have := h₂.fresh c hc; omega
  nodup := by
    rw [List.map_append, List.nodup_append]
    refine ⟨h₁.nodup, h₂.nodup, ?_⟩
    intro a ha b hb hab
    obtain ⟨c, hc, rfl⟩ := List.mem_map.1 ha
    obtain ⟨c', hc', rfl⟩ := List.mem_map.1 hb
    have := h₁.fresh c hc
    have := h₂.fresh c' hc'
    omega
  silent := by
    intro h
    rw [h₁.silent h, h₂.silent (h₁.capturing.trans h), List.nil_append]
  queue := by
    intro hq
    obtain ⟨q₁, c₁⟩ := h₁.queue hq
    obtain ⟨q₂, c₂⟩ := h₂.queue hq
    exact ⟨by rw [q₂, q₁, List.append_assoc], c₂.trans c₁⟩

/-! ## Calls made by a callback -/

theorem pause_emits (outcome : Listener δ → Completion δ) (quiet : Prop) (s : QpPause δ) (r : Request δ) (command : δ)
    (h : s.isCommandCapturing = true) :
    Emits outcome [] quiet s (s.pause r command) [⟨s.next, r.id, r.session, r.phase, command, r.result⟩] := by
  refine ⟨by simp [pause, tryRaisePause], by simp [pause, tryRaisePause], rfl, Nat.le_succ _, ?_, by simp,
    fun hf => ?_, fun _ => ⟨rfl, rfl⟩⟩
  · intro c hc
    obtain rfl := List.mem_singleton.1 hc
    exact ⟨le_refl _, Nat.lt_succ_self _⟩
  · rw [h] at hf; cases hf

theorem pass_emits (outcome : Listener δ → Completion δ) (quiet : Prop) (s : QpPause δ) (result : Option δ) :
    Emits outcome [] quiet s (s.pass result) [] :=
  .of_eq rfl rfl rfl (Nat.le_succ _) fun _ => ⟨rfl, rfl⟩

/-- The hook pauses the command. -/
def Pauses (env : Env δ) (s : QpPause δ) (r : Request δ) : Prop :=
  r.noPause = false ∧ s.isCommandCapturing = true ∧
    match r.hook with
    | .waitOnProtocol (.msg _) => True
    | .waitOnProtocol _ => False
    | .waitOnCommand command => isCommandIgnorable env command = false

/-- A hook lets the command pass or pauses it on its session. -/
theorem waitOn_emits (outcome : Listener δ → Completion δ) (quiet : Prop) (env : Env δ) (s : QpPause δ)
    (r : Request δ) :
    ∃ new, Emits outcome [] quiet s (s.waitOn env r) new ∧
      (new = [] ∨ s.Pauses env r ∧ ∃ c, new = [c] ∧ c.session = r.session) := by
  unfold waitOn Pauses
  split
  · rename_i message hm
    split
    · exact ⟨[], pass_emits outcome quiet s _, .inl rfl⟩
    · rename_i h
      simp only [Bool.or_eq_true, Bool.not_eq_true', not_or, Bool.not_eq_true, Bool.not_eq_false] at h
      split
      · exact ⟨[], pass_emits outcome quiet s _, .inl rfl⟩
      · exact ⟨[], pass_emits outcome quiet s _, .inl rfl⟩
      · exact ⟨[], pass_emits outcome quiet s _, .inl rfl⟩
      · exact ⟨_, pause_emits outcome quiet s r _ h.2, .inr ⟨⟨h.1, h.2, by rw [hm]; trivial⟩, _, rfl, rfl⟩⟩
  · rename_i command hm
    split
    · exact ⟨[], pass_emits outcome quiet s _, .inl rfl⟩
    · rename_i h
      simp only [Bool.or_eq_true, Bool.not_eq_true', not_or, Bool.not_eq_true, Bool.not_eq_false] at h
      exact ⟨_, pause_emits outcome quiet s r _ h.1.2,
        .inr ⟨⟨h.1.1, h.1.2, by rw [hm]; exact h.2⟩, _, rfl, rfl⟩⟩

/-- Taking from the queue touches no listener. -/
theorem take_emits (outcome : Listener δ → Completion δ) (s : QpPause δ) (w : Nat) :
    Emits outcome [] False s (s.take w) [] := by
  unfold take
  split <;> exact .of_eq rfl rfl rfl (le_refl _) False.elim

/-- The call takes nothing from the queue: a `wait` finds a current context, or no other. -/
def Undisturbed (s : QpPause δ) : NestedCall δ → Prop
  | .hook _ => True
  | .wait _ => s.current ≠ none ∨ s.queue = []

/-- None of the calls takes anything from the queue. -/
def Quiet (env : Env δ) (s : QpPause δ) (calls : List (NestedCall δ)) : Prop :=
  Run.Meets (fun s call => some (s.nested env call)) Undisturbed s calls

theorem nested_emits (outcome : Listener δ → Completion δ) (env : Env δ) (s : QpPause δ) (call : NestedCall δ) :
    ∃ new, Emits outcome [] (s.Undisturbed call) s (s.nested env call) new := by
  cases call with
  | hook r =>
    obtain ⟨new, h, -⟩ := waitOn_emits outcome True env s r
    exact ⟨new, h⟩
  | wait w =>
    refine ⟨[], ?_⟩
    show Emits _ _ _ s (s.wait w) []
    unfold wait
    split
    · exact .of_eq rfl rfl rfl (le_refl _) fun _ => ⟨rfl, rfl⟩
    · rename_i hc
      have ht := take_emits outcome s w
      refine ⟨ht.listeners, ht.completed, ht.capturing, ht.next_le, ht.fresh, ht.nodup, ht.silent, ?_⟩
      rintro (hq | hq)
      · exact absurd hc hq
      · unfold take; rw [hq]; exact ⟨rfl, rfl⟩

theorem foldl_nested_emits (outcome : Listener δ → Completion δ) (env : Env δ) :
    ∀ (calls : List (NestedCall δ)) (s : QpPause δ),
      ∃ new, Emits outcome [] (s.Quiet env calls) s (calls.foldl (nested env) s) new
  | [], s => ⟨[], .of_eq rfl rfl rfl (le_refl _) fun _ => ⟨rfl, rfl⟩⟩
  | call :: calls, s => by
    obtain ⟨new, h⟩ := nested_emits outcome env s call
    obtain ⟨new', h'⟩ := foldl_nested_emits outcome env calls (s.nested env call)
    exact ⟨new ++ new', (h.weaken fun hq => hq.1).trans (h'.weaken fun hq => hq.2 _ rfl) nofun⟩

theorem nested_current {s : QpPause δ} (hc : s.current ≠ none) (env : Env δ) (call : NestedCall δ) :
    (s.nested env call).current = s.current := by
  obtain ⟨new, h⟩ := nested_emits (onResume none) env s call
  refine (h.queue ?_).2
  cases call with
  | hook r => trivial
  | wait w => exact .inl hc

/-- A current context keeps the queue from being taken from. -/
theorem quiet_of_current (env : Env δ) :
    ∀ (calls : List (NestedCall δ)) {s : QpPause δ}, s.current ≠ none → s.Quiet env calls
  | [], _, _ => trivial
  | call :: calls, s, hc => by
    refine ⟨?_, fun t ht => ?_⟩
    · cases call with
      | hook r => trivial
      | wait w => exact .inl hc
    · cases ht
      exact quiet_of_current env calls (by rw [nested_current hc]; exact hc)

/-! ## Emission -/

theorem complete_emits (outcome : Listener δ → Completion δ) (env : Env δ) (s : QpPause δ) (l : Listener δ) :
    ∃ new, Emits outcome [l] ((s.dispatch outcome l).Quiet env (env.body l.ticket)) s
      (s.complete env outcome l) new := by
  obtain ⟨new, h⟩ := foldl_nested_emits outcome env (env.body l.ticket) (s.dispatch outcome l)
  have hfirst : Emits outcome [l] ((s.dispatch outcome l).Quiet env (env.body l.ticket)) s
      (s.dispatch outcome l) [] :=
    ⟨by simp [dropTickets, dispatch], rfl, rfl, le_refl _, by simp, by simp, fun _ => rfl, fun _ => by simp [dispatch]⟩
  exact ⟨[] ++ new, hfirst.trans h nofun⟩

/-- The callbacks of the listeners, called in order, take nothing from the queue. -/
def QuietAll (env : Env δ) (outcome : Listener δ → Completion δ) (s : QpPause δ) (ls : List (Listener δ)) : Prop :=
  Run.Meets (fun s l => some (s.complete env outcome l))
    (fun s l => (s.dispatch outcome l).Quiet env (env.body l.ticket)) s ls

theorem foldl_complete_emits (outcome : Listener δ → Completion δ) (env : Env δ) :
    ∀ (ls : List (Listener δ)) (s : QpPause δ), s.Issued ls →
      ∃ new, Emits outcome ls (s.QuietAll env outcome ls) s (ls.foldl (complete env outcome) s) new
  | [], s, _ => ⟨[], .of_eq rfl rfl rfl (le_refl _) fun _ => ⟨rfl, rfl⟩⟩
  | l :: ls, s, hi => by
    obtain ⟨new, h⟩ := complete_emits outcome env s l
    have hls : s.Issued ls := fun l' hl' => hi l' (List.mem_cons_of_mem _ hl')
    obtain ⟨new', h'⟩ := foldl_complete_emits outcome env ls (s.complete env outcome l)
      fun l' hl' => Nat.lt_of_lt_of_le (hls l' hl') h.next_le
    exact ⟨new ++ new', (h.weaken fun hq => hq.1).trans (h'.weaken fun hq => hq.2 _ rfl) hls⟩

theorem complete_current {s : QpPause δ} (hc : s.current ≠ none) (outcome : Listener δ → Completion δ) (env : Env δ)
    (l : Listener δ) : (s.complete env outcome l).current = s.current := by
  obtain ⟨new, h⟩ := complete_emits outcome env s l
  exact (h.queue (quiet_of_current env _ hc)).2

theorem quietAll_of_current (outcome : Listener δ → Completion δ) (env : Env δ) :
    ∀ (ls : List (Listener δ)) {s : QpPause δ}, s.current ≠ none → s.QuietAll env outcome ls
  | [], _, _ => trivial
  | l :: ls, s, hc => by
    refine ⟨quiet_of_current env _ hc, fun t ht => ?_⟩
    cases ht
    exact quietAll_of_current outcome env ls (by rw [complete_current hc]; exact hc)

/-- The listeners of a session. -/
def onSession (s : QpPause δ) (session : String) : List (Listener δ) := s.listeners.filter (·.session = session)

theorem emit_emits (outcome : Listener δ → Completion δ) (env : Env δ) (session : String) {s : QpPause δ}
    (hi : s.Issued s.listeners) :
    ∃ new, Emits outcome (s.onSession session) (s.QuietAll env outcome (s.onSession session)) s
      (s.emit env outcome session) new :=
  foldl_complete_emits outcome env _ s fun l hl => hi l (List.mem_filter.1 hl).1

end QpPause

end MongoDriver.Querypie
