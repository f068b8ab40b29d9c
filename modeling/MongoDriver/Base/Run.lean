/-
Runs of deterministic machines, and the rules that carry a property of one step to a whole run.
A machine is a partial step function: `none` says that the event cannot happen in the state. A run
is a list of events, applied in order. The second half states the same rules for a fold in
`Except`, where a failing step aborts the run.
-/
import Mathlib.Logic.Basic

namespace Run

section Machine

variable {σ ε : Type*} (step : σ → ε → Option σ)

/-- The state after a list of events, `none` when one of them cannot happen. -/
def exec (s : σ) : List ε → Option σ
  | [] => some s
  | e :: es => (step s e).bind fun t => exec t es

/-- Every step of the run is taken in a state that meets the condition `C` on it. -/
def Meets (C : σ → ε → Prop) : σ → List ε → Prop
  | _, [] => True
  | s, e :: es => C s e ∧ ∀ t, step s e = some t → Meets C t es

theorem exec_cons {s u : σ} {e : ε} {es : List ε} :
    exec step s (e :: es) = some u ↔ ∃ t, step s e = some t ∧ exec step t es = some u := by
  simp only [exec, Option.bind_eq_some_iff]

theorem exec_append : ∀ {es es' : List ε} {s u : σ},
    exec step s (es ++ es') = some u ↔ ∃ t, exec step s es = some t ∧ exec step t es' = some u
  | [], es', s, u => by simp [exec]
  | e :: es, es', s, u => by
    simp only [List.cons_append, exec_cons, exec_append]
    constructor
    · rintro ⟨v, hv, t, ht, hu⟩
      exact ⟨t, ⟨v, hv, ht⟩, hu⟩
    · rintro ⟨t, ⟨v, hv, ht⟩, hu⟩
      exact ⟨v, hv, t, ht, hu⟩

/-- A machine that never gets stuck runs as a fold. -/
theorem exec_total (f : σ → ε → σ) :
    ∀ (es : List ε) (s : σ), exec (fun s e => some (f s e)) s es = some (es.foldl f s)
  | [], _ => rfl
  | e :: es, s => exec_total f es (f s e)

/-- An invariant of every step is an invariant of every run. -/
theorem exec_inv {P : σ → Prop} (hstep : ∀ s e t, P s → step s e = some t → P t) :
    ∀ {es : List ε} {s t : σ}, P s → exec step s es = some t → P t
  | [], s, t, h, hr => by cases hr; exact h
  | e :: es, s, t, h, hr => by
    obtain ⟨u, hu, hr⟩ := (exec_cons step).1 hr
    exact exec_inv hstep (hstep s e u h hu) hr

/-- An invariant that steps keep under a condition holds along every run that meets it. -/
theorem exec_inv_meets {P : σ → Prop} {C : σ → ε → Prop}
    (hstep : ∀ s e t, P s → C s e → step s e = some t → P t) :
    ∀ {es : List ε} {s t : σ}, P s → Meets step C s es → exec step s es = some t → P t
  | [], s, t, h, _, hr => by cases hr; exact h
  | e :: es, s, t, h, hm, hr => by
    obtain ⟨u, hu, hr⟩ := (exec_cons step).1 hr
    exact exec_inv_meets hstep (hstep s e u h hm.1 hu) (hm.2 u hu) hr

/-- An invariant that looks at the events so far. -/
theorem exec_inv_past {P : List ε → σ → Prop} {C : σ → ε → Prop}
    (hstep : ∀ past s e t, P past s → C s e → step s e = some t → P (past ++ [e]) t) :
    ∀ {es past : List ε} {s t : σ}, P past s → Meets step C s es → exec step s es = some t → P (past ++ es) t
  | [], past, s, t, h, _, hr => by
    cases hr
    rw [List.append_nil]
    exact h
  | e :: es, past, s, t, h, hm, hr => by
    obtain ⟨u, hu, hr⟩ := (exec_cons step).1 hr
    have hnext := exec_inv_past hstep (hstep past s e u h hm.1 hu) (hm.2 u hu) hr
    rw [List.append_assoc] at hnext
    exact hnext

variable {step} in
theorem Meets.cons {C : σ → ε → Prop} {s t : σ} {e : ε} {es : List ε} (hc : C s e) (ht : step s e = some t)
    (h : Meets step C t es) : Meets step C s (e :: es) := by
  refine ⟨hc, fun u hu => ?_⟩
  obtain rfl := Option.some.inj (ht.symm.trans hu)
  exact h

variable {step} in
/-- The first part of a run meets what the run meets. -/
theorem Meets.left {C : σ → ε → Prop} : ∀ {es es' : List ε} {s : σ}, Meets step C s (es ++ es') → Meets step C s es
  | [], _, _, _ => trivial
  | _ :: _, _, _, h => ⟨h.1, fun t ht => (h.2 t ht).left⟩

variable {step} in
/-- And so does the rest. -/
theorem Meets.right {C : σ → ε → Prop} : ∀ {es es' : List ε} {s t : σ}, Meets step C s (es ++ es') →
    exec step s es = some t → Meets step C t es'
  | [], _, _, _, h, ht => by cases ht; exact h
  | _ :: _, _, _, _, h, ht => by
    obtain ⟨u, hu, ht⟩ := (exec_cons step).1 ht
    exact (h.2 u hu).right ht

variable {step} in
/-- In a run that meets a condition it holds of each step. -/
theorem Meets.holds {C : σ → ε → Prop} : ∀ {es es' : List ε} {s t : σ} {e : ε}, Meets step C s (es ++ e :: es') →
    exec step s es = some t → C t e
  | [], _, _, _, _, h, ht => by cases ht; exact h.1
  | _ :: _, _, _, _, _, h, ht => by
    obtain ⟨u, hu, ht⟩ := (exec_cons step).1 ht
    exact (h.2 u hu).holds ht

theorem meets_true : ∀ (s : σ) (es : List ε), Meets step (fun _ _ => True) s es
  | _, [] => trivial
  | _, _ :: es => ⟨trivial, fun t _ => meets_true t es⟩

/-- A condition on the events alone. -/
theorem meets_of_forall {C : ε → Prop} :
    ∀ {es : List ε} (s : σ), (∀ e ∈ es, C e) → Meets step (fun _ e => C e) s es
  | [], _, _ => trivial
  | e :: _, _, h =>
    ⟨h e (List.mem_cons_self ..), fun t _ => meets_of_forall t fun e' he' => h e' (List.mem_cons_of_mem _ he')⟩

/-- When a condition says exactly which steps from a good state lead to a good state, the runs that meet
it are those that stay in good states. -/
theorem meets_iff {P : σ → Prop} {C : σ → ε → Prop}
    (hstep : ∀ s e t, P s → step s e = some t → (P t ↔ C s e)) :
    ∀ {es : List ε} {s t : σ}, P s → exec step s es = some t →
      (Meets step C s es ↔ ∀ es₁ es₂ u, es = es₁ ++ es₂ → exec step s es₁ = some u → P u)
  | [], s, t, hs, _ => by
    refine iff_of_true trivial ?_
    intro es₁ es₂ u hes hu
    obtain ⟨rfl, -⟩ := List.append_eq_nil_iff.1 hes.symm
    cases hu; exact hs
  | e :: es, s, t, hs, hr => by
    obtain ⟨v, hv, hr⟩ := (exec_cons step).1 hr
    constructor
    · rintro ⟨hc, hm⟩ es₁ es₂ u hes hu
      have hpv := (hstep s e v hs hv).2 hc
      cases es₁ with
      | nil => cases hu; exact hs
      | cons e' es₁ =>
        obtain ⟨rfl, rfl⟩ := List.cons.inj hes
        obtain ⟨v', hv', hu⟩ := (exec_cons step).1 hu
        obtain rfl := Option.some.inj (hv.symm.trans hv')
        exact (meets_iff hstep hpv hr).1 (hm v hv) es₁ es₂ u rfl hu
    · intro h
      have hpv : P v := h [e] es v rfl (by simp [exec, hv])
      refine ⟨(hstep s e v hs hv).1 hpv, fun v' hv' => ?_⟩
      obtain rfl := Option.some.inj (hv.symm.trans hv')
      refine (meets_iff hstep hpv hr).2 fun es₁ es₂ u hes hu => ?_
      exact h (e :: es₁) es₂ u (by rw [hes, List.cons_append]) ((exec_cons step).2 ⟨v, hv, hu⟩)

/-- In a run from a good state a condition is met when it holds of each of its steps; steps lead from good states
to good states. -/
theorem meets_iff_steps_inv {P : σ → Prop} {C : σ → ε → Prop} {D : σ → ε → σ → Prop}
    (hinv : ∀ s e t, P s → step s e = some t → P t) (hstep : ∀ s e t, P s → step s e = some t → (C s e ↔ D s e t)) :
    ∀ {es : List ε} {s t : σ}, P s → exec step s es = some t →
      (Meets step C s es ↔
        ∀ es₁ e es₂ u v, es = es₁ ++ e :: es₂ → exec step s es₁ = some u → step u e = some v → D u e v)
  | [], s, t, _, _ => by
    refine iff_of_true trivial ?_
    intro es₁ e es₂ u v hes
    cases es₁ with
    | nil => cases hes
    | cons => cases hes
  | e :: es, s, t, hs, hr => by
    obtain ⟨w, hw, hr⟩ := (exec_cons step).1 hr
    have ih := meets_iff_steps_inv hinv hstep (hinv s e w hs hw) hr
    constructor
    · rintro ⟨hc, hm⟩ es₁ e' es₂ u v hes hu hv
      cases es₁ with
      | nil =>
        cases hes
        cases hu
        exact (hstep _ _ v hs hv).1 hc
      | cons e₁ es₁ =>
        obtain ⟨rfl, rfl⟩ := List.cons.inj hes
        obtain ⟨w', hw', hu⟩ := (exec_cons step).1 hu
        obtain rfl := Option.some.inj (hw.symm.trans hw')
        exact ih.1 (hm w hw) es₁ e' es₂ u v rfl hu hv
    · intro h
      refine ⟨(hstep s e w hs hw).2 (h [] e es s w rfl rfl hw), fun w' hw' => ?_⟩
      obtain rfl := Option.some.inj (hw.symm.trans hw')
      refine ih.2 fun es₁ e' es₂ u v hes hu hv => ?_
      exact h (e :: es₁) e' es₂ u v (by rw [hes, List.cons_append]) ((exec_cons step).2 ⟨w, hw, hu⟩) hv

/-- In a run that happens a condition is met when it holds of each of its steps. -/
theorem meets_iff_steps {C : σ → ε → Prop} {D : σ → ε → σ → Prop}
    (hstep : ∀ s e t, step s e = some t → (C s e ↔ D s e t)) {es : List ε} {s t : σ} (hr : exec step s es = some t) :
    Meets step C s es ↔
      ∀ es₁ e es₂ u v, es = es₁ ++ e :: es₂ → exec step s es₁ = some u → step u e = some v → D u e v :=
  meets_iff_steps_inv step (fun _ _ _ _ _ => trivial) (fun s e t (_ : True) h => hstep s e t h) trivial hr

theorem meets_congr {C D : σ → ε → Prop} (h : ∀ s e, C s e ↔ D s e) (s : σ) (es : List ε) :
    Meets step C s es ↔ Meets step D s es := by
  have hCD : C = D := funext fun s => funext fun e => propext (h s e)
  rw [hCD]

/-- Along a run that meets a condition an invariant is kept, and with it another condition is met. -/
theorem meets_of_inv {P : σ → Prop} {C D : σ → ε → Prop} (hinv : ∀ s e t, P s → C s e → step s e = some t → P t)
    (hstep : ∀ s e, P s → C s e → D s e) : ∀ {es : List ε} {s : σ}, P s → Meets step C s es → Meets step D s es
  | [], _, _, _ => trivial
  | e :: _, s, hs, hm =>
    ⟨hstep s e hs hm.1, fun t ht => meets_of_inv hinv hstep (hinv s e t hs hm.1 ht) (hm.2 t ht)⟩

theorem meets_and {C D : σ → ε → Prop} :
    ∀ {es : List ε} {s : σ}, Meets step C s es → Meets step D s es → Meets step (fun s e => C s e ∧ D s e) s es
  | [], _, _, _ => trivial
  | _ :: _, _, hc, hd => ⟨⟨hc.1, hd.1⟩, fun t ht => meets_and (hc.2 t ht) (hd.2 t ht)⟩

end Machine

section Fold

/-- A computation that ends well is made of two that do. -/
theorem bind_ok {ε : Type*} {α β : Type _} {x : Except ε α} {f : α → Except ε β} {b : β} :
    (x >>= f) = .ok b ↔ ∃ a, x = .ok a ∧ f a = .ok b := by
  cases x with
  | error e => simp [bind, Except.bind]
  | ok a => simp [bind, Except.bind]

variable {σ α ε : Type*} {f : σ → α → Except ε σ}

theorem foldlM_cons_ok {a : α} {l : List α} {s u : σ} :
    (a :: l).foldlM f s = .ok u ↔ ∃ t, f s a = .ok t ∧ l.foldlM f t = .ok u := by
  rw [List.foldlM_cons, bind_ok]

/-- A property that every successful step with an element of the list keeps holds after a
successful fold. -/
theorem foldlM_inv_mem {P : σ → Prop} :
    ∀ {l : List α} {s t : σ}, (∀ s a t, a ∈ l → P s → f s a = .ok t → P t) → P s → l.foldlM f s = .ok t → P t
  | [], s, t, _, h, hr => by cases hr; exact h
  | a :: l, s, t, hstep, h, hr => by
    obtain ⟨u, hu, hr⟩ := foldlM_cons_ok.1 hr
    exact foldlM_inv_mem (fun s b t hb => hstep s b t (List.mem_cons_of_mem _ hb))
      (hstep s a u (List.mem_cons_self ..) h hu) hr

/-- When every step from a good state succeeds and leads to a good state, so does the fold. -/
theorem foldlM_total {P : σ → Prop} :
    ∀ {l : List α} {s : σ}, (∀ a ∈ l, ∀ s, P s → ∃ t, f s a = .ok t ∧ P t) → P s →
      ∃ t, l.foldlM f s = .ok t ∧ P t
  | [], s, _, h => ⟨s, rfl, h⟩
  | a :: l, s, hstep, h => by
    obtain ⟨u, hu, h⟩ := hstep a (List.mem_cons_self ..) s h
    obtain ⟨t, ht, h⟩ := foldlM_total (fun b hb => hstep b (List.mem_cons_of_mem _ hb)) h
    exact ⟨t, foldlM_cons_ok.2 ⟨u, hu, ht⟩, h⟩

end Fold

end Run
