/-
The moves keep `Sound`. All but two of them change one client session and what is in the air on it; what has
to be shown for one is stated once, for moves that change no flight, one in the air, or start one.
-/
import MongoDriver.Sessions.Moves

namespace MongoDriver.Sessions

/-! ## What fits a flight in the air -/

theorem ready_operation {x : Client} {f : Flight} (h : f.purpose = .operation) : Ready x f ↔ ReadyOperation x f := by
  unfold Ready
  rw [h]

theorem ready_end {x : Client} {f : Flight} {name : EndTransactionName} {command : Command} {retried endSession : Bool}
    (h : f.purpose = .endTransaction name command retried endSession) : Ready x f ↔ ReadyEnd x f name command := by
  unfold Ready
  rw [h]

theorem openTxn_congr {x y : Client} (h : y.started = x.started) : y.openTxn = x.openTxn := by
  unfold Client.openTxn
  rw [h]

theorem Ready.alike {x y : Client} {f : Flight} (h : Ready x f) (halike : x.session.Alike y.session)
    (hstarted : y.started = x.started) :
    Ready y f := by
  unfold Ready at h ⊢
  split at h
  · refine ⟨h.txn.trans (openTxn_congr hstarted).symm, ?_, ?_, h.checking, ?_⟩
    · rw [openTxn_congr hstarted, halike.inTransaction]
      exact h.isOpen
    · intro hflag
      obtain ⟨hsome, hout⟩ := h.flagged hflag
      obtain ⟨r, hr⟩ := Option.isSome_iff_exists.1 hsome
      refine ⟨?_, halike.inTransaction.trans hout⟩
      rw [halike.serverSession r hr]
      rfl
    · rw [halike.inTransaction]
      exact h.running
  · refine ⟨?_, ?_, h.bare, h.isTransactionCommand, h.options, h.checking, h.running⟩
    · rw [hstarted]
      exact h.closed
    · rw [halike.state]
      exact h.state

/-- The states in which a command of the transaction may still be sent. -/
def TxnState.isOpen (s : TxnState) : Bool :=
  s = .startingTransaction || s = .transactionInProgress || s = .transactionCommitted

theorem Ready.flagged {x : Client} {f : Flight} (h : Ready x f) (hflag : f.options.willRetryWrite = true) :
    x.session.serverSession.isSome ∧ f.txn = none ∧ x.session.inTransaction = false := by
  unfold Ready at h
  split at h
  · obtain ⟨hsome, hout⟩ := h.flagged hflag
    refine ⟨hsome, ?_, hout⟩
    have := h.isOpen
    rw [hout, ← h.txn] at this
    exact Option.not_isSome_iff_eq_none.1 (by rw [this]; exact Bool.false_ne_true)
  · rw [h.options] at hflag
    cases hflag

theorem Ready.inside {x : Client} {f : Flight} (h : Ready x f) (hsome : f.txn.isSome) :
    x.session.transaction.state.isOpen = true ∧ ∃ st, x.started = some st ∧ f.txn = some st.txn := by
  unfold Ready at h
  split at h
  · have hin := h.isOpen
    rw [← h.txn, hsome] at hin
    constructor
    · have hactive : x.session.transaction.state.isActive = true := hin.symm
      cases hstate : x.session.transaction.state with
      | startingTransaction | transactionInProgress => rfl
      | _ => rw [hstate] at hactive; cases hactive
    · obtain ⟨txn, htxn⟩ := Option.isSome_iff_exists.1 hsome
      have hopen := h.txn.symm.trans htxn
      unfold Client.openTxn at hopen
      obtain ⟨st, hst, hst'⟩ := Option.map_eq_some_iff.1 hopen
      exact ⟨st, (Option.filter_eq_some_iff.1 hst).1, htxn.trans (congrArg some hst'.symm)⟩
  · obtain ⟨st, hst, -, htxn⟩ := h.closed
    refine ⟨?_, st, hst, htxn⟩
    rcases h.state with hs | ⟨hs, -⟩
    · rw [hs]; rfl
    · rw [hs]; rfl

/-- The decoration of a command keeps the session in its transaction or out of it. -/
theorem Ready.decorated {x : Client} {f : Flight} {r n : Nat} {command : Command} {t : Transaction} (h : Ready x f)
    (hd : Decorated x.session r n f command t.state) : Ready (x.setTransaction t) f := by
  unfold Ready at h ⊢
  split at h
  · have hin : (x.setTransaction t).session.inTransaction = x.session.inTransaction := by
      show t.state.isActive = x.session.transaction.state.isActive
      have hactive : f.txn.isSome = x.session.transaction.state.isActive := by rw [h.txn]; exact h.isOpen
      cases htxn : f.txn with
      | none =>
        rw [htxn] at hactive
        rw [(hd.outside htxn).2.2.1, ← hactive]
        rfl
      | some txn =>
        have hsome : f.txn.isSome = true := by rw [htxn]; rfl
        by_cases hstart : x.session.transaction.state = .startingTransaction
        · rw [(hd.first hsome hstart).2, hstart]
          rfl
        · rw [(hd.later hsome hstart).2]
    refine ⟨h.txn, h.isOpen.trans hin.symm, ?_, h.checking, ?_⟩
    · intro hflag
      exact ⟨(h.flagged hflag).1, hin.trans (h.flagged hflag).2⟩
    · rw [hin]
      exact h.running
  · refine ⟨h.closed, ?_, h.bare, h.isTransactionCommand, h.options, h.checking, h.running⟩
    obtain ⟨st, -, -, htxn⟩ := h.closed
    have hsome : f.txn.isSome = true := by rw [htxn]; rfl
    have hstart : x.session.transaction.state ≠ .startingTransaction := by
      rcases h.state with hs | ⟨hs, -⟩
      · rw [hs]; decide
      · rw [hs]; decide
    show t.state = _ ∨ t.state = _ ∧ _
    rw [(hd.later hsome hstart).2]
    exact h.state

/-! ## A client session among others -/

namespace World

variable {w w' : World} {c i : Nat} {x x' : Client} {f g : Flight}

theorem Air.of_set {j : Nat} {h : Flight} (hflights : w'.flights = w.flights.set i g) (hair : w'.Air j h) :
    (j = i ∧ h = g) ∨ (j ≠ i ∧ w.Air j h) := by
  have hj := hair.1
  rw [hflights] at hj
  rcases Heap.get_set_cases hj with ⟨hj, hh⟩ | ⟨hj, hh⟩
  · exact .inl ⟨hj, hh⟩
  · exact .inr ⟨hj, hh, hair.2⟩

theorem Air.of_concat {j : Nat} {h : Flight} (hflights : w'.flights = w.flights ++ [g]) (hair : w'.Air j h) :
    (j = w.flights.length ∧ h = g) ∨ w.Air j h := by
  have hj := hair.1
  rw [hflights] at hj
  rcases Heap.get_alloc_cases hj with ⟨hj, hh⟩ | hh
  · exact .inl ⟨hj, hh⟩
  · exact .inr ⟨hh, hair.2⟩

theorem Air.others_of_set {j : Nat} {h : Flight} (hair : w'.Air j h) (hflights : w'.flights = w.flights.set i g)
    (hclient : g.client = c) (hne : h.client ≠ c) : w.Air j h := by
  rcases hair.of_set hflights with ⟨-, rfl⟩ | ⟨-, hair⟩
  · exact absurd hclient hne
  · exact hair

theorem Air.others_of_concat {j : Nat} {h : Flight} (hair : w'.Air j h) (hflights : w'.flights = w.flights ++ [g])
    (hclient : g.client = c) (hne : h.client ≠ c) : w.Air j h := by
  rcases hair.of_concat hflights with ⟨-, rfl⟩ | hair
  · exact absurd hclient hne
  · exact hair

/-- Once the flight of a client session has landed, none is in the air on it. -/
theorem Sound.grounded (h : w.Sound) (hf : w.Air i f) (hflights : w'.flights = w.flights.set i g)
    (hlanded : g.landed = true) {j : Nat} {k : Flight} (hk : w'.Air j k) : k.client ≠ f.client := by
  intro hclient
  rcases hk.of_set hflights with ⟨-, rfl⟩ | ⟨hne, hold⟩
  · cases hlanded.symm.trans hk.2
  · exact hne (h.single j i k f hold hf hclient)

/-- A client session changes with what is in the air on it; nothing else does. -/
theorem Sound.change (h : w.Sound) (hclients : w'.clients = w.clients.set c x')
    (haccounted : w'.Accounted False) (hothers : ∀ j g, g.client ≠ c → w'.Air j g → w.Air j g)
    (hidle : ∀ d, d ≠ c → w'.idle d = true → w.idle d = true)
    (hsingle : ∀ i j f g, f.client = c → g.client = c → w'.Air i f → w'.Air j g → i = j)
    (hx : w.clients[c]? = some x) (hready : ∀ j g, g.client = c → w'.Air j g → Ready x' g)
    (hopen : w'.idle c = true → x'.openTxn.isSome = x'.session.inTransaction)
    (hheld : x'.session.hasEnded = false → x'.session.serverSession = none → x'.started = none)
    (hbegan : x'.session.transaction.state ≠ .noTransaction → x'.started.isSome)
    (hlogged : ∀ a ∈ w'.sent, a.flight < w'.flights.length) : w'.Sound := by
  refine ⟨haccounted, ?_, ?_, ?_, ?_, ?_, hlogged⟩
  · intro i j f g hf hg heq
    by_cases hc : f.client = c
    · exact hsingle i j f g hc (heq ▸ hc) hf hg
    · exact h.single i j f g (hothers i f hc hf) (hothers j g (heq ▸ hc) hg) heq
  · intro j g hg
    by_cases hc : g.client = c
    · refine ⟨x', ?_, hready j g hc hg⟩
      rw [hclients, hc]
      exact Heap.get_set_self hx
    · obtain ⟨y, hy, hready⟩ := h.ready j g (hothers j g hc hg)
      refine ⟨y, ?_, hready⟩
      rw [hclients, List.getElem?_set_ne (Ne.symm hc)]
      exact hy
  · intro d y hy hd
    rw [hclients] at hy
    rcases Heap.get_set_cases hy with ⟨rfl, rfl⟩ | ⟨hne, hy⟩
    · exact hopen hd
    · exact h.isOpen d y hy (hidle d hne hd)
  · intro d y hy
    rw [hclients] at hy
    rcases Heap.get_set_cases hy with ⟨rfl, rfl⟩ | ⟨hne, hy⟩
    · exact hheld
    · exact h.held d y hy
  · intro d y hy
    rw [hclients] at hy
    rcases Heap.get_set_cases hy with ⟨rfl, rfl⟩ | ⟨hne, hy⟩
    · exact hbegan
    · exact h.began d y hy

/-- The same, where no flight changes. -/
theorem Sound.client (h : w.Sound) (hclients : w'.clients = w.clients.set c x') (hflights : w'.flights = w.flights)
    (haccounted : w'.Accounted False) (hx : w.clients[c]? = some x)
    (hready : ∀ j g, g.client = c → w.Air j g → Ready x' g)
    (hopen : w.idle c = true → x'.openTxn.isSome = x'.session.inTransaction)
    (hheld : x'.session.hasEnded = false → x'.session.serverSession = none → x'.started = none)
    (hbegan : x'.session.transaction.state ≠ .noTransaction → x'.started.isSome)
    (hlogged : ∀ a ∈ w'.sent, a.flight < w'.flights.length) : w'.Sound := by
  have hair : ∀ j g, w'.Air j g → w.Air j g := fun j g hg => ⟨hflights ▸ hg.1, hg.2⟩
  have hidle : ∀ d, w'.idle d = w.idle d := by
    intro d
    unfold idle
    rw [hflights]
  refine h.change hclients haccounted (fun j g _ => hair j g) (fun d _ hd => hidle d ▸ hd) ?_ hx
    (fun j g hc hg => hready j g hc (hair j g hg)) (fun hd => hopen (hidle c ▸ hd)) hheld hbegan hlogged
  intro i j f g hf hg hi hj
  exact h.single i j f g (hair i f hi) (hair j g hj) (hf.trans hg.symm)

/-- The same, where nothing is in the air on the client session. -/
theorem Sound.idleClient (h : w.Sound) (hidle : w.idle c = true) (hclients : w'.clients = w.clients.set c x')
    (hflights : w'.flights = w.flights) (haccounted : w'.Accounted False) (hx : w.clients[c]? = some x)
    (hopen : x'.openTxn.isSome = x'.session.inTransaction)
    (hheld : x'.session.hasEnded = false → x'.session.serverSession = none → x'.started = none)
    (hbegan : x'.session.transaction.state ≠ .noTransaction → x'.started.isSome)
    (hlogged : ∀ a ∈ w'.sent, a.flight < w'.flights.length) : w'.Sound := by
  refine h.client hclients hflights haccounted hx ?_ (fun _ => hopen) hheld hbegan hlogged
  intro j g hc hg
  exact absurd hidle (hg.not_idle hc)

/-- The same, where the flight in the air on the client session goes on or lands. -/
theorem Sound.flight (h : w.Sound) (hf : w.Air i f) (hclients : w'.clients = w.clients.set f.client x')
    (hflights : w'.flights = w.flights.set i g) (hclient : g.client = f.client) (haccounted : w'.Accounted False)
    (hx : w.clients[f.client]? = some x) (hready : g.landed = false → Ready x' g)
    (hopen : g.landed = true → x'.openTxn.isSome = x'.session.inTransaction)
    (hheld : x'.session.hasEnded = false → x'.session.serverSession = none → x'.started = none)
    (hbegan : x'.session.transaction.state ≠ .noTransaction → x'.started.isSome) (hsent : w'.sent = w.sent) :
    w'.Sound := by
  have hair : ∀ j k, w'.Air j k → (j = i ∧ k = g) ∨ (j ≠ i ∧ w.Air j k) := fun j k hk => hk.of_set hflights
  have hnew : w'.flights[i]? = some g := by
    rw [hflights]
    exact Heap.get_set_self hf.1
  refine h.change hclients haccounted
    (fun _ _ hk hj => hj.others_of_set hflights hclient hk) ?_ ?_ hx ?_ ?_ hheld hbegan ?_
  · intro d hd hidle
    refine idle_iff.2 fun j k hk hkd => ?_
    by_cases hj : j = i
    · subst hj
      obtain rfl := Option.some.inj (hf.1.symm.trans hk.1)
      exact hd hkd.symm
    · refine idle_iff.1 hidle j k ⟨?_, hk.2⟩ hkd
      rw [hflights, List.getElem?_set_ne (Ne.symm hj)]
      exact hk.1
  · intro j l k m hk hm hj hl
    rcases hair j k hj with ⟨rfl, -⟩ | ⟨hne, hj⟩
    · rcases hair l m hl with ⟨rfl, -⟩ | ⟨hne, hl⟩
      · rfl
      · exact absurd (h.single l j m f hl hf hm) hne
    · exact absurd (h.single j i k f hj hf hk) hne
  · intro j k hk hj
    rcases hair j k hj with ⟨rfl, rfl⟩ | ⟨hne, hj⟩
    · exact hready hj.2
    · exact absurd (h.single j i k f hj hf hk) hne
  · intro hidle
    refine hopen ?_
    cases hg : g.landed with
    | true => rfl
    | false => exact absurd hclient (idle_iff.1 hidle i g ⟨hnew, hg⟩)
  · rw [hsent, hflights, List.length_set]
    exact h.logged

/-- The same, where a flight starts. -/
theorem Sound.launched (h : w.Sound) (hidle : w.idle g.client = true)
    (hclients : w'.clients = w.clients.set g.client x')
    (hflights : w'.flights = w.flights ++ [g]) (hair : g.landed = false) (haccounted : w'.Accounted False)
    (hx : w.clients[g.client]? = some x) (hready : Ready x' g)
    (hheld : x'.session.hasEnded = false → x'.session.serverSession = none → x'.started = none)
    (hbegan : x'.session.transaction.state ≠ .noTransaction → x'.started.isSome) (hsent : w'.sent = w.sent) :
    w'.Sound := by
  have hcases : ∀ j k, w'.Air j k → (j = w.flights.length ∧ k = g) ∨ w.Air j k := fun j k hk => hk.of_concat hflights
  have hnew : w'.Air w.flights.length g := by
    refine ⟨?_, hair⟩
    rw [hflights, List.getElem?_append_right le_rfl, Nat.sub_self]
    rfl
  refine h.change hclients haccounted
    (fun _ _ hk hj => hj.others_of_concat hflights rfl hk) ?_ ?_ hx ?_ ?_ hheld hbegan ?_
  · intro d hd hidle'
    refine idle_iff.2 fun j k hk hkd => idle_iff.1 hidle' j k ⟨?_, hk.2⟩ hkd
    rw [hflights, List.getElem?_append_left (List.getElem?_eq_some_iff.1 hk.1).1]
    exact hk.1
  · intro j l k m hk hm hj hl
    rcases hcases j k hj with ⟨rfl, -⟩ | hj
    · rcases hcases l m hl with ⟨rfl, -⟩ | hl
      · rfl
      · exact absurd hm (idle_iff.1 hidle l m hl)
    · exact absurd hk (idle_iff.1 hidle j k hj)
  · intro j k hk hj
    rcases hcases j k hj with ⟨-, rfl⟩ | hj
    · exact hready
    · exact absurd hk (idle_iff.1 hidle j k hj)
  · intro hidle'
    exact absurd hidle' (hnew.not_idle rfl)
  · intro a ha
    rw [hsent] at ha
    rw [hflights, List.length_append]
    exact Nat.lt_add_right _ (h.logged a ha)

theorem sessions_some {d : Nat} {y : ClientSession} :
    w.sessions[d]? = some y ↔ ∃ x, w.clients[d]? = some x ∧ x.session = y := by
  unfold sessions
  rw [List.getElem?_map, Option.map_eq_some_iff]

/-- The pool has the same server sessions, and no client session takes or returns one. -/
theorem Accounted.set (h : w.Accounted False) (hpool : w'.pool.sessions = w.pool.sessions)
    (hlen : w'.pool.created.length = w.pool.created.length) (hclients : w'.clients = w.clients.set c x')
    (hx : w.clients[c]? = some x) (hsame : x'.session.serverSession = x.session.serverSession) :
      w'.Accounted False := by
  have hheld : ∀ (d : Nat) (y : ClientSession), w'.sessions[d]? = some y →
      ∃ z, w.sessions[d]? = some z ∧ z.serverSession = y.serverSession := by
    intro d y hd
    obtain ⟨z, hz, rfl⟩ := sessions_some.1 hd
    rw [hclients] at hz
    rcases Heap.get_set_cases hz with ⟨rfl, rfl⟩ | ⟨-, hz⟩
    · exact ⟨x.session, sessions_some.2 ⟨x, hx, rfl⟩, hsame.symm⟩
    · exact ⟨z.session, sessions_some.2 ⟨z, hz, rfl⟩, rfl⟩
  refine ⟨?_, ?_, ?_, False.elim, False.elim, ?_, ?_⟩
  · rw [hpool]; exact h.once
  · intro d y r hd hy
    obtain ⟨z, hz, heq⟩ := hheld d y hd
    rw [hpool]
    exact h.apart d z r hz (heq.trans hy)
  · intro d e y y' r hd he hy hy'
    obtain ⟨z, hz, heq⟩ := hheld d y hd
    obtain ⟨z', hz', heq'⟩ := hheld e y' he
    exact h.one d e z z' r hz hz' (heq.trans hy) (heq'.trans hy')
  · rw [hpool, hlen]; exact h.pooled
  · intro d y r hd hy
    obtain ⟨z, hz, heq⟩ := hheld d y hd
    rw [hlen]
    exact h.held d z r hz (heq.trans hy)

theorem Sound.fits (h : w.Sound) (hf : w.Air i f) (hx : w.clients[f.client]? = some x) : Ready x f := by
  obtain ⟨y, hy, hready⟩ := h.ready i f hf
  obtain rfl := Option.some.inj (hx.symm.trans hy)
  exact hready

/-- Two client sessions have different server sessions. -/
theorem Sound.apart (h : w.Sound) {d r : Nat} {y : Client} (hx : w.clients[c]? = some x) (hy : w.clients[d]? = some y)
    (hr : x.session.serverSession = some r) (hr' : y.session.serverSession = some r) : d = c :=
  h.accounted.one d c y.session x.session r (sessions_some.2 ⟨y, hy, rfl⟩) (sessions_some.2 ⟨x, hx, rfl⟩) hr' hr

/-- The server session of a client session exists. -/
theorem Sound.created (h : w.Sound) {r : Nat} (hx : w.clients[c]? = some x) (hr : x.session.serverSession = some r) :
    r < w.pool.created.length :=
  h.accounted.held c x.session r (sessions_some.2 ⟨x, hx, rfl⟩) hr

theorem Still.back (h : w.Still w') {d : Nat} {y : Client} (hy : w'.clients[d]? = some y) :
    ∃ x, w.clients[d]? = some x ∧ x.session.Alike y.session ∧ y.started = x.started := by
  have hrel := h.clients d
  rw [hy] at hrel
  cases hx : w.clients[d]? with
  | none => rw [hx] at hrel; cases hrel
  | some x =>
    rw [hx] at hrel
    cases hrel with
    | some hrel => exact ⟨x, rfl, hrel⟩

theorem Still.forth (h : w.Still w') {d : Nat} (hx : w.clients[d]? = some x) :
    ∃ y, w'.clients[d]? = some y ∧ x.session.Alike y.session ∧ y.started = x.started := by
  have hrel := h.clients d
  rw [hx] at hrel
  cases hy : w'.clients[d]? with
  | none => rw [hy] at hrel; cases hrel
  | some y =>
    rw [hy] at hrel
    cases hrel with
    | some hrel => exact ⟨y, rfl, hrel⟩

theorem Still.air (h : w.Still w') {j : Nat} (hg : w'.Air j g) : w.Air j g := ⟨h.flights ▸ hg.1, hg.2⟩

theorem Sound.still (h : w.Sound) (hstill : w.Still w') : w'.Sound := by
  refine ⟨hstill.accounted, ?_, ?_, ?_, ?_, ?_, ?_⟩
  · intro i j f g hf hg
    exact h.single i j f g (hstill.air hf) (hstill.air hg)
  · intro i f hf
    obtain ⟨x, hx, hready⟩ := h.ready i f (hstill.air hf)
    obtain ⟨y, hy, halike, hstarted⟩ := hstill.forth hx
    exact ⟨y, hy, hready.alike halike hstarted⟩
  · intro d y hy hidle
    obtain ⟨x, hx, halike, hstarted⟩ := hstill.back hy
    unfold idle at hidle
    rw [hstill.flights] at hidle
    rw [openTxn_congr hstarted, halike.inTransaction]
    exact h.isOpen d x hx hidle
  · intro d y hy hlive hnone
    obtain ⟨x, hx, halike, hstarted⟩ := hstill.back hy
    rw [hstarted]
    refine h.held d x hx (halike.hasEnded ▸ hlive) ?_
    cases hr : x.session.serverSession with
    | none => rfl
    | some r =>
      rw [halike.serverSession r hr] at hnone
      cases hnone
  · intro d y hy hstate
    obtain ⟨x, hx, halike, hstarted⟩ := hstill.back hy
    rw [hstarted]
    exact h.began d x hx (halike.state ▸ hstate)
  · rw [hstill.sent, hstill.flights]
    exact h.logged

theorem Sound.startSession (h : w.Sound) {session : ClientSession} (hnone : session.serverSession = none)
    (hlive : session.hasEnded = false) (ht : session.transaction = {}) :
    ({ w with clients := w.clients ++ [{ session }] } : World).Sound := by
  refine ⟨h.accounted.startSession hnone hlive, h.single, ?_, ?_, ?_, ?_, h.logged⟩
  · intro i f hf
    obtain ⟨x, hx, hready⟩ := h.ready i f hf
    refine ⟨x, ?_, hready⟩
    show (w.clients ++ [_])[f.client]? = some x
    rw [List.getElem?_append_left (List.getElem?_eq_some_iff.1 hx).1]
    exact hx
  · intro d y hy hidle
    rcases Heap.get_alloc_cases hy with ⟨-, rfl⟩ | hy
    · unfold ClientSession.inTransaction
      rw [ht]
      rfl
    · exact h.isOpen d y hy hidle
  · intro d y hy
    rcases Heap.get_alloc_cases hy with ⟨-, rfl⟩ | hy
    · exact fun _ _ => rfl
    · exact h.held d y hy
  · intro d y hy
    rcases Heap.get_alloc_cases hy with ⟨-, rfl⟩ | hy
    · intro hstate
      exact absurd (congrArg Transaction.state ht) hstate
    · exact h.began d y hy

theorem length_increment (pool : ServerSessionPool) (r : Nat) :
    (pool.increment r).created.length = pool.created.length := List.length_modify ..

end World

/-! ## Moves -/

open World in
/-- One move. -/
theorem Move.sound {k : Prop} {w w' : World} (h : w.Sound) (hmove : Move k w w') : w'.Sound := by
  cases hmove with
  | still hstill => exact h.still hstill
  | startSession hnone hlive ht => exact h.startSession hnone hlive ht
  | @bump c x r hx hr hidle hout =>
    refine h.idleClient hidle (Heap.set_get hx) rfl ?_ hx (h.isOpen c x hx hidle) (h.held c x hx) (h.began c x hx)
      h.logged
    exact h.accounted.set rfl (length_increment ..) (Heap.set_get hx) hx rfl
  | @start c x r t hx hr hidle hout ht =>
    refine h.idleClient hidle rfl rfl ?_ hx ?_ ?_ (fun _ => rfl) h.logged
    · exact h.accounted.set rfl (length_increment ..) rfl hx rfl
    · show true = t.state.isActive
      rw [ht]
      rfl
    · intro _ hnone
      cases hr.symm.trans hnone
  | @settle c x t hx hidle hstate ht =>
    have hbegan : x.started.isSome := by
      refine h.began c x hx ?_
      rcases hstate with hs | hs
      · rw [hs]; decide
      · rw [hs]; decide
    refine h.idleClient hidle rfl rfl ?_ hx ?_ ?_ ?_ h.logged
    · exact h.accounted.set rfl rfl rfl hx rfl
    · obtain ⟨st, hst⟩ := Option.isSome_iff_exists.1 hbegan
      show (Option.map _ (Option.filter _ (x.started.map _))).isSome = t.state.isActive
      rw [hst, TxnState.not_active_of_isCommitted (TxnState.isCommitted_of_settled ht)]
      rfl
    · intro hlive hnone
      show x.started.map _ = none
      rw [h.held c x hx hlive hnone]
      rfl
    · intro _
      show (x.started.map _).isSome
      rw [Option.isSome_map]
      exact hbegan
  | @endSession c x pool hx hidle hout hnumber ha =>
    exact h.idleClient hidle rfl rfl ha hx (h.isOpen c x hx hidle) (fun hlive => (nomatch hlive)) (h.began c x hx)
      h.logged
  | @launch x f hx hidle hair hpurpose hready hflag =>
    refine h.launched hidle (Heap.set_get hx) rfl hair ?_ hx hready (h.held _ x hx) (h.began _ x hx) rfl
    exact h.accounted.set rfl rfl (Heap.set_get hx) hx rfl
  | @launchEnd x f name command retried endSession hx hidle hair hpurpose hready hk =>
    refine h.launched hidle rfl rfl hair ?_ hx hready ?_ ?_ rfl
    · exact h.accounted.set rfl rfl rfl hx rfl
    · intro hlive hnone
      show x.started.map _ = none
      rw [h.held _ x hx hlive hnone]
      rfl
    · intro hstate
      show (x.started.map _).isSome
      rw [Option.isSome_map]
      exact h.began _ x hx hstate
  | @turn i x f g hf hx hair hready hclient htxn hoptions =>
    refine h.flight hf (Heap.set_get hx) rfl hclient ?_ hx (fun _ => hready) ?_ (h.held _ x hx) (h.began _ x hx) rfl
    · exact h.accounted.set rfl rfl (Heap.set_get hx) hx rfl
    · intro hlanded
      rw [hair] at hlanded
      cases hlanded
  | @retry i x f r p hf hpurpose hx hr hout hflag hp =>
    refine h.flight hf (Heap.set_get hx) rfl rfl ?_ hx ?_ ?_ (h.held _ x hx) (h.began _ x hx) rfl
    · exact h.accounted.set rfl (length_increment ..) (Heap.set_get hx) hx rfl
    · intro _
      have hready := (ready_operation hpurpose).1 (h.fits hf hx)
      refine (ready_operation (f := { f with options := _, stage := .running p }) hpurpose).2 ?_
      refine ⟨hready.txn, hready.isOpen, fun _ => ⟨?_, hout⟩, fun op hop => (nomatch hop), ?_⟩
      · rw [hr]; rfl
      · intro q hq
        cases hq
        simpa using hp
    · intro hlanded
      rw [Flight.landed_running hp rfl] at hlanded
      cases hlanded
  | @decorate i x f r t command written hf hx hlive hr hack hd hk =>
    have hready := h.fits hf hx
    refine h.client rfl rfl ?_ hx ?_ ?_ ?_ ?_ ?_
    · exact h.accounted.set rfl rfl rfl hx rfl
    · intro j g hc hg
      obtain rfl := h.single j i g f hg hf hc
      obtain rfl := Option.some.inj (hf.1.symm.trans hg.1)
      exact hready.decorated hd
    · intro hidle
      exact absurd hidle (hf.not_idle rfl)
    · intro _ hnone
      cases hr.symm.trans hnone
    · intro hstate
      refine h.began _ x hx ?_
      intro hno
      cases htxn : f.txn with
      | none => exact hstate (hd.outside htxn).2.2.1
      | some txn =>
        have hsome : f.txn.isSome = true := by rw [htxn]; rfl
        have hstart : x.session.transaction.state ≠ .startingTransaction := by rw [hno]; decide
        exact hstate ((hd.later hsome hstart).2.trans hno)
    · intro a ha
      rcases List.mem_append.1 ha with ha | ha
      · exact h.logged a ha
      · cases written with
        | false => cases ha
        | true =>
          obtain rfl := List.mem_singleton.1 ha
          exact (List.getElem?_eq_some_iff.1 hf.1).1
  | @bare i f command supported hf hbare hsupported hk =>
    obtain ⟨x, hx, hready⟩ := h.ready i f hf
    refine h.client (Heap.set_get hx) rfl ?_ hx ?_ (h.isOpen _ x hx) (h.held _ x hx) (h.began _ x hx) ?_
    · exact h.accounted.set rfl rfl (Heap.set_get hx) hx rfl
    · intro j g hc hg
      exact h.fits hg (hc ▸ hx)
    · intro a ha
      rcases List.mem_append.1 ha with ha | ha
      · exact h.logged a ha
      · obtain rfl := List.mem_singleton.1 ha
        exact (List.getElem?_eq_some_iff.1 hf.1).1
  | @land i f hf hpurpose =>
    obtain ⟨x, hx, hready⟩ := h.ready i f hf
    refine h.flight hf (Heap.set_get hx) rfl rfl ?_ hx (fun hair => (nomatch hair)) ?_ (h.held _ x hx)
      (h.began _ x hx) rfl
    · exact h.accounted.set rfl rfl (Heap.set_get hx) hx rfl
    · intro _
      exact ((ready_operation hpurpose).1 hready).isOpen
  | @finish i x f t name command retried endSession hf hpurpose hx ht =>
    have hready := (ready_end hpurpose).1 (h.fits hf hx)
    obtain ⟨st, hst, hclosed, -⟩ := hready.closed
    refine h.flight hf rfl rfl rfl ?_ hx (fun hair => (nomatch hair)) ?_ (h.held _ x hx) ?_ rfl
    · exact h.accounted.set rfl rfl rfl hx rfl
    · intro _
      show (Option.map _ (Option.filter _ x.started)).isSome = t.state.isActive
      rw [hst, Option.filter_some, hclosed, TxnState.not_active_of_isCommitted (TxnState.isCommitted_of_finished ht)]
      rfl
    · intro _
      show x.started.isSome
      rw [hst]
      rfl

end MongoDriver.Sessions
