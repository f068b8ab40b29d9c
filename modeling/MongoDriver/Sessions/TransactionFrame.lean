/-
The frame of a transaction. The state of a transaction changes when a command is decorated, its number when
an operation starts; so a command that is decorated and not written takes `startTransaction` with it, and a
commit repeated after another operation has incremented the number carries that number. Where neither
happens, all commands of a transaction carry `autocommit: false`, one session and one number, exactly the
first of them `startTransaction: true`, and no other command has either field. The invariant says, for the
transaction that was started last on a client session, what has been sent for it.
-/
import MongoDriver.Sessions.Serial
import MongoDriver.Sessions.Numbers

namespace MongoDriver.Sessions

/-! ## Statements -/

/-- The commands sent for a transaction. -/
def sentFor (sent : List Sent) (txn : Nat) : List Sent := sent.filter (·.txn = some txn)

/-- What the commands sent say about transactions. -/
structure TransactionsFramed (sent : List Sent) : Prop where
  /-- a command outside transactions carries neither field -/
  outside : ∀ a ∈ sent, a.txn = none → a.command.autocommit = none ∧ a.command.startTransaction = none
  /-- a command of a transaction carries `autocommit: false`, a session and a number -/
  inside : ∀ a ∈ sent, a.txn.isSome → a.command.autocommit = some false ∧ ∃ r n, a.At r n
  /-- which are the same for all of them -/
  same : ∀ a ∈ sent, ∀ b ∈ sent, a.txn.isSome → a.txn = b.txn →
    a.command.lsid = b.command.lsid ∧ a.command.txnNumber = b.command.txnNumber
  /-- and exactly the first one carries `startTransaction: true` -/
  first : ∀ txn a rest, sentFor sent txn = a :: rest → a.command.startTransaction = some true ∧
    ∀ b ∈ rest, b.command.startTransaction = none

/-- What was sent for the transaction started last on a client session that has the server session `r`. -/
structure Opened (sent : List Sent) (state : TxnState) (st : Started) (r : Nat) : Prop where
  numbered : ∀ a ∈ sent, a.txn = some st.txn → a.At r st.txnNumber
  pos : 0 < st.txnNumber
  starting : state = .startingTransaction → ∀ a ∈ sent, a.txn ≠ some st.txn
  later : state = .transactionInProgress ∨ state = .transactionCommitted → ∃ a ∈ sent, a.txn = some st.txn

structure InFrame (w : World) : Prop where
  framed : TransactionsFramed w.sent
  fresh : ∀ a ∈ w.sent, ∀ txn, a.txn = some txn → txn < w.txns
  begun : ∀ (c : Nat) (x : Client) (st : Started), w.clients[c]? = some x → x.started = some st → st.txn < w.txns
  distinct : ∀ (c d : Nat) (x y : Client) (st st' : Started), w.clients[c]? = some x → w.clients[d]? = some y →
    x.started = some st → y.started = some st' → st.txn = st'.txn → c = d
  opened : ∀ (c : Nat) (x : Client) (st : Started), w.clients[c]? = some x → x.started = some st →
    x.session.hasEnded = false → ∃ r, x.session.serverSession = some r ∧ Opened w.sent x.session.transaction.state st r
  /-- while a command may be sent for the transaction its number is that of the server session -/
  current : ∀ (c : Nat) (x : Client) (st : Started) (r : Nat), w.clients[c]? = some x → x.started = some st →
    x.session.hasEnded = false → x.session.serverSession = some r →
    (x.session.inTransaction = true ∨ ∃ i f, w.Air i f ∧ f.client = c ∧ f.txn.isSome) → w.pool.number r = st.txnNumber

/-! ## The moves keep it -/

section Moves

open World

variable {w w' : World} {c i : Nat} {x x' : Client} {f : Flight}

theorem InFrame.still (h : InFrame w) (hs : w.Sound) (hstill : w.Still w') : InFrame w' := by
  have hsame : ∀ {d : Nat} {x y : Client} {st : Started}, w.clients[d]? = some x → x.started = some st →
      x.session.hasEnded = false → x.session.Alike y.session → y.session.serverSession = x.session.serverSession := by
    intro d x y st hx hst hlive halike
    cases hr : x.session.serverSession with
    | none => cases (hs.held d x hx hlive hr).symm.trans hst
    | some r => exact halike.serverSession r hr
  refine ⟨hstill.sent ▸ h.framed, ?_, ?_, ?_, ?_, ?_⟩
  · rw [hstill.sent, hstill.txns]
    exact h.fresh
  · intro d y st hy hst
    obtain ⟨x, hx, -, hstarted⟩ := hstill.back hy
    rw [hstill.txns]
    exact h.begun d x st hx (hstarted ▸ hst)
  · intro d e y z st st' hy hz hst hst'
    obtain ⟨x, hx, -, hstarted⟩ := hstill.back hy
    obtain ⟨x', hx', -, hstarted'⟩ := hstill.back hz
    exact h.distinct d e x x' st st' hx hx' (hstarted ▸ hst) (hstarted' ▸ hst')
  · intro d y st hy hst hlive
    obtain ⟨x, hx, halike, hstarted⟩ := hstill.back hy
    have hlive' : x.session.hasEnded = false := halike.hasEnded ▸ hlive
    rw [hstarted] at hst
    rw [hsame hx hst hlive' halike, halike.state, hstill.sent]
    exact h.opened d x st hx hst hlive'
  · intro d y st r hy hst hlive hr hsending
    obtain ⟨x, hx, halike, hstarted⟩ := hstill.back hy
    have hlive' : x.session.hasEnded = false := halike.hasEnded ▸ hlive
    rw [hstarted] at hst
    rw [hstill.number]
    refine h.current d x st r hx hst hlive' ((hsame hx hst hlive' halike).symm.trans hr) ?_
    rcases hsending with hin | ⟨i, f, hf, hc, hsome⟩
    · exact .inl (halike.inTransaction ▸ hin)
    · exact .inr ⟨i, f, hstill.air hf, hc, hsome⟩

theorem InFrame.startSession (h : InFrame w) {session : ClientSession} :
    InFrame { w with clients := w.clients ++ [{ session }] } := by
  have hback : ∀ {d : Nat} {y : Client} {st : Started}, (w.clients ++ [({ session } : Client)])[d]? = some y →
      y.started = some st → w.clients[d]? = some y := by
    intro d y st hy hst
    rcases Heap.get_alloc_cases hy with ⟨-, rfl⟩ | hy
    · cases hst
    · exact hy
  refine ⟨h.framed, h.fresh, ?_, ?_, ?_, ?_⟩
  · intro d y st hy hst
    exact h.begun d y st (hback hy hst) hst
  · intro d e y z st st' hy hz hst hst'
    exact h.distinct d e y z st st' (hback hy hst) (hback hz hst') hst hst'
  · intro d y st hy hst
    exact h.opened d y st (hback hy hst) hst
  · intro d y st r hy hst
    exact h.current d y st r (hback hy hst) hst

/-- A client session and its flight change, and neither a number nor what was sent does. -/
theorem InFrame.local (h : InFrame w) (hx : w.clients[c]? = some x)
    (hclients : w'.clients = w.clients.set c x') (hnumber : w'.pool.number = w.pool.number) (hsent : w'.sent = w.sent)
    (htxns : w'.txns = w.txns) (hothers : ∀ j g, g.client ≠ c → w'.Air j g → w.Air j g)
    (hstarted : ∀ st', x'.started = some st' → ∃ st, x.started = some st ∧ st'.txn = st.txn ∧
      st'.txnNumber = st.txnNumber)
    (hlive : x'.session.hasEnded = false →
      x.session.hasEnded = false ∧ x'.session.serverSession = x.session.serverSession)
    (hstarting : x'.session.hasEnded = false → x'.session.transaction.state = .startingTransaction →
      x.session.transaction.state = .startingTransaction)
    (hlater : x'.session.hasEnded = false → x'.session.transaction.state = .transactionInProgress ∨
        x'.session.transaction.state = .transactionCommitted →
      x.session.transaction.state = .transactionInProgress ∨ x.session.transaction.state = .transactionCommitted)
    (hcurrent : x'.session.hasEnded = false →
      (x'.session.inTransaction = true ∨ ∃ j g, w'.Air j g ∧ g.client = c ∧ g.txn.isSome) →
      ∀ st r, x.started = some st → x.session.serverSession = some r → w.pool.number r = st.txnNumber) :
        InFrame w' := by
  -- the client session has the transaction it had before
  have hback : ∀ {d : Nat} {y : Client} {st : Started}, w'.clients[d]? = some y → y.started = some st →
      ∃ z st', w.clients[d]? = some z ∧ z.started = some st' ∧ st.txn = st'.txn := by
    intro d y st hy hst
    rcases clients_set_cases hclients hy with ⟨rfl, rfl⟩ | ⟨-, hy⟩
    · obtain ⟨st', hst', htxn, -⟩ := hstarted st hst
      exact ⟨x, st', hx, hst', htxn⟩
    · exact ⟨y, st, hy, hst, rfl⟩
  refine ⟨hsent ▸ h.framed, ?_, ?_, ?_, ?_, ?_⟩
  · rw [hsent, htxns]
    exact h.fresh
  · intro d y st hy hst
    obtain ⟨z, st', hz, hst', htxn⟩ := hback hy hst
    rw [htxn, htxns]
    exact h.begun d z st' hz hst'
  · intro d e y y' st st' hy hy' hst hst' heq
    obtain ⟨z, s, hz, hs, htxn⟩ := hback hy hst
    obtain ⟨z', s', hz', hs', htxn'⟩ := hback hy' hst'
    exact h.distinct d e z z' s s' hz hz' hs hs' (htxn.symm.trans (heq.trans htxn'))
  · intro d y st hy hst hl
    rw [hsent]
    rcases clients_set_cases hclients hy with ⟨rfl, rfl⟩ | ⟨-, hy⟩
    · obtain ⟨st', hst', htxn, hn⟩ := hstarted st hst
      obtain ⟨hl', hserver⟩ := hlive hl
      obtain ⟨r, hr, hopened⟩ := h.opened d x st' hx hst' hl'
      refine ⟨r, hserver.trans hr, ?_, hn ▸ hopened.pos, ?_, ?_⟩
      · rw [htxn, hn]
        exact hopened.numbered
      · intro hstart
        rw [htxn]
        exact hopened.starting (hstarting hl hstart)
      · intro hstate
        rw [htxn]
        exact hopened.later (hlater hl hstate)
    · exact h.opened d y st hy hst hl
  · intro d y st r hy hst hl hr hsending
    rw [hnumber]
    rcases clients_set_cases hclients hy with ⟨rfl, rfl⟩ | ⟨hd, hy⟩
    · obtain ⟨st', hst', -, hn⟩ := hstarted st hst
      rw [hn]
      exact hcurrent hl hsending st' r hst' ((hlive hl).2 ▸ hr)
    · refine h.current d y st r hy hst hl hr ?_
      rcases hsending with hin | ⟨j, g, hg, hc, hsome⟩
      · exact .inl hin
      · exact .inr ⟨j, g, hothers j g (hc ▸ hd) hg, hc, hsome⟩

/-- The number of a server session is incremented while its client session is in no transaction. -/
theorem InFrame.bumped {r : Nat} (h : InFrame w) (hs : w.Sound) (hx : w.clients[c]? = some x)
    (hr : x.session.serverSession = some r) (hout : x.session.inTransaction = false) (hclients : w'.clients = w.clients)
    (hnumber : ∀ q, w'.pool.number q = if q = r then w.pool.number r + 1 else w.pool.number q)
    (hsent : w'.sent = w.sent)
    (htxns : w'.txns = w.txns) (hair : ∀ j g, w'.Air j g → g.txn.isSome → g.client ≠ c ∧ w.Air j g) : InFrame w' := by
  refine ⟨hsent ▸ h.framed, ?_, ?_, ?_, ?_, ?_⟩
  · rw [hsent, htxns]
    exact h.fresh
  · rw [hclients, htxns]
    exact h.begun
  · rw [hclients]
    exact h.distinct
  · rw [hclients, hsent]
    exact h.opened
  · intro d y st q hy hst hlive hq hsending
    rw [hclients] at hy
    have hd : d ≠ c := by
      rintro rfl
      obtain rfl := Option.some.inj (hx.symm.trans hy)
      rcases hsending with hin | ⟨j, g, hg, hc, hsome⟩
      · cases hout.symm.trans hin
      · exact (hair j g hg hsome).1 hc
    have hne : q ≠ r := by
      rintro rfl
      exact hd (hs.apart hx hy hr hq)
    rw [hnumber, if_neg hne]
    refine h.current d y st q hy hst hlive hq ?_
    rcases hsending with hin | ⟨j, g, hg, hc, hsome⟩
    · exact .inl hin
    · exact .inr ⟨j, g, (hair j g hg hsome).2, hc, hsome⟩

/-- A transaction is started. Nothing has been sent for it. -/
theorem InFrame.start {r : Nat} {t : Transaction} (h : InFrame w) (hs : w.Sound) (hx : w.clients[c]? = some x)
    (hr : x.session.serverSession = some r) (ht : t.state = .startingTransaction) :
    InFrame { w with
      pool := w.pool.increment r
      clients := w.clients.set c
        { x.setTransaction t with started := some { txn := w.txns, txnNumber := w.pool.number r + 1 } }
      txns := w.txns + 1 } := by
  have hlt := hs.created hx hr
  have hnone : ∀ a ∈ w.sent, a.txn ≠ some w.txns := by
    intro a ha htxn
    exact absurd (h.fresh a ha w.txns htxn) (Nat.lt_irrefl _)
  refine ⟨h.framed, ?_, ?_, ?_, ?_, ?_⟩
  · intro a ha txn htxn
    exact Nat.lt_succ_of_lt (h.fresh a ha txn htxn)
  · intro d y st hy hst
    rcases Heap.get_set_cases hy with ⟨-, rfl⟩ | ⟨-, hy⟩
    · cases hst
      exact Nat.lt_succ_self _
    · exact Nat.lt_succ_of_lt (h.begun d y st hy hst)
  · intro d e y z st st' hy hz hst hst' heq
    rcases Heap.get_set_cases hy with ⟨hd, rfl⟩ | ⟨hd, hy⟩
    · cases hst
      rcases Heap.get_set_cases hz with ⟨he, -⟩ | ⟨-, hz⟩
      · exact hd.trans he.symm
      · exact absurd (h.begun e z st' hz hst') (by rw [← heq]; exact Nat.lt_irrefl _)
    · rcases Heap.get_set_cases hz with ⟨-, rfl⟩ | ⟨-, hz⟩
      · cases hst'
        exact absurd (h.begun d y st hy hst) (by rw [heq]; exact Nat.lt_irrefl _)
      · exact h.distinct d e y z st st' hy hz hst hst' heq
  · intro d y st hy hst hlive
    rcases Heap.get_set_cases hy with ⟨-, rfl⟩ | ⟨-, hy⟩
    · cases hst
      refine ⟨r, hr, fun a ha htxn => absurd htxn (hnone a ha), Nat.succ_pos _, fun _ => hnone, ?_⟩
      intro hstate
      have hstate : t.state = .transactionInProgress ∨ t.state = .transactionCommitted := hstate
      rw [ht] at hstate
      rcases hstate with hstate | hstate
      · cases hstate
      · cases hstate
    · exact h.opened d y st hy hst hlive
  · intro d y st q hy hst hlive hq hsending
    show (w.pool.increment r).number q = _
    rw [w.pool.number_increment hlt]
    rcases Heap.get_set_cases hy with ⟨-, rfl⟩ | ⟨hd, hy'⟩
    · cases hst
      obtain rfl := Option.some.inj (hr.symm.trans hq)
      rw [if_pos rfl]
    · rw [if_neg]
      · exact h.current d y st q hy' hst hlive hq hsending
      · rintro rfl
        exact hd (hs.apart hx hy' hr hq)

theorem sentFor_append (sent : List Sent) (a : Sent) (txn : Nat) :
    sentFor (sent ++ [a]) txn = sentFor sent txn ++ if a.txn = some txn then [a] else [] := by
  unfold sentFor
  rw [List.filter_append, List.filter_singleton]
  simp

/-- The commands sent stay framed when one outside transactions is added. -/
theorem TransactionsFramed.outside_append {sent : List Sent} {a : Sent} (h : TransactionsFramed sent)
    (htxn : a.txn = none)
    (hauto : a.command.autocommit = none) (hstart : a.command.startTransaction = none) :
    TransactionsFramed (sent ++ [a]) := by
  have hmem : ∀ {b : Sent}, b ∈ sent ++ [a] → b.txn.isSome → b ∈ sent := by
    intro b hb hsome
    rcases Heap.mem_alloc.1 hb with hb | rfl
    · exact hb
    · rw [htxn] at hsome
      cases hsome
  refine ⟨?_, ?_, ?_, ?_⟩
  · intro b hb hnone
    rcases Heap.mem_alloc.1 hb with hb | rfl
    · exact h.outside b hb hnone
    · exact ⟨hauto, hstart⟩
  · intro b hb hsome
    exact h.inside b (hmem hb hsome) hsome
  · intro b hb b' hb' hsome heq
    exact h.same b (hmem hb hsome) b' (hmem hb' (heq ▸ hsome)) hsome heq
  · intro txn b rest hfor
    rw [sentFor_append, htxn, if_neg (fun h => (nomatch h)), List.append_nil] at hfor
    exact h.first txn b rest hfor

/-- They stay so when a command of a transaction is added that has its number, and starts it exactly when it
is the first one. -/
theorem TransactionsFramed.inside_append {sent : List Sent} {a : Sent} {txn r n : Nat} (h : TransactionsFramed sent)
    (htxn : a.txn = some txn) (hauto : a.command.autocommit = some false) (hat : a.At r n)
    (hall : ∀ b ∈ sent, b.txn = some txn → b.At r n)
    (hstart : (∀ b ∈ sent, b.txn ≠ some txn) ∧ a.command.startTransaction = some true ∨
      (∃ b ∈ sent, b.txn = some txn) ∧ a.command.startTransaction = none) : TransactionsFramed (sent ++ [a]) := by
  have hall' : ∀ b ∈ sent ++ [a], b.txn = some txn → b.At r n := by
    intro b hb hbt
    rcases Heap.mem_alloc.1 hb with hb | rfl
    · exact hall b hb hbt
    · exact hat
  refine ⟨?_, ?_, ?_, ?_⟩
  · intro b hb hnone
    rcases Heap.mem_alloc.1 hb with hb | rfl
    · exact h.outside b hb hnone
    · cases htxn.symm.trans hnone
  · intro b hb hsome
    rcases Heap.mem_alloc.1 hb with hb | rfl
    · exact h.inside b hb hsome
    · exact ⟨hauto, r, n, hat⟩
  · intro b hb b' hb' hsome heq
    by_cases hb₀ : b.txn = some txn
    · have hb₁ := hall' b hb hb₀
      have hb₂ := hall' b' hb' (heq ▸ hb₀)
      exact ⟨hb₁.1.trans hb₂.1.symm, hb₁.2.trans hb₂.2.symm⟩
    · have hb₁ : b ∈ sent := (Heap.mem_alloc.1 hb).resolve_right fun hba => hb₀ (hba ▸ htxn)
      have hb₂ : b' ∈ sent := (Heap.mem_alloc.1 hb').resolve_right fun hba => hb₀ (heq.trans (hba ▸ htxn))
      exact h.same b hb₁ b' hb₂ hsome heq
  · intro txn' b rest hfor
    rw [sentFor_append, htxn] at hfor
    by_cases heq : txn = txn'
    · subst heq
      rw [if_pos rfl] at hfor
      rcases hstart with ⟨hnone, hstart⟩ | ⟨⟨b₀, hb₀, htxn₀⟩, hstart⟩
      · have hnil : sentFor sent txn = [] := List.filter_eq_nil_iff.2 fun b hb => by simpa using hnone b hb
        rw [hnil] at hfor
        cases hfor
        exact ⟨hstart, fun _ hb => (nomatch hb)⟩
      · cases hold : sentFor sent txn with
        | nil => exact absurd htxn₀ (by simpa using List.filter_eq_nil_iff.1 hold b₀ hb₀)
        | cons b₁ rest₁ =>
          rw [hold] at hfor
          cases hfor
          obtain ⟨hfirst, hrest⟩ := h.first txn b rest₁ hold
          refine ⟨hfirst, fun b' hb' => ?_⟩
          rcases Heap.mem_alloc.1 hb' with hb' | rfl
          · exact hrest b' hb'
          · exact hstart
    · rw [if_neg (fun h => heq (Option.some.inj h)), List.append_nil] at hfor
      exact h.first txn' b rest hfor

/-- What is known of a transaction stays so when a command is added that is not of it. -/
theorem Opened.other {sent : List Sent} {state : TxnState} {st : Started} {r : Nat} {a : Sent}
    (h : Opened sent state st r) (htxn : a.txn ≠ some st.txn) : Opened (sent ++ [a]) state st r := by
  have hold : ∀ {b : Sent}, b ∈ sent ++ [a] → b.txn = some st.txn → b ∈ sent := by
    intro b hb hbt
    rcases Heap.mem_alloc.1 hb with hb | rfl
    · exact hb
    · exact absurd hbt htxn
  refine ⟨?_, h.pos, ?_, ?_⟩
  · intro b hb hbt
    exact h.numbered b (hold hb hbt) hbt
  · intro hstate b hb hbt
    exact h.starting hstate b (hold hb hbt) hbt
  · intro hstate
    obtain ⟨b, hb, hbt⟩ := h.later hstate
    exact ⟨b, List.mem_append_left _ hb, hbt⟩

/-- A command outside transactions is sent. -/
theorem InFrame.outside (h : InFrame w) {a : Sent} (htxn : a.txn = none) (hauto : a.command.autocommit = none)
    (hstart : a.command.startTransaction = none) : InFrame { w with sent := w.sent ++ [a] } := by
  have hother : ∀ txn, a.txn ≠ some txn := by
    intro txn hsome
    cases htxn.symm.trans hsome
  refine ⟨h.framed.outside_append htxn hauto hstart, ?_, h.begun, h.distinct, ?_, h.current⟩
  · intro b hb txn hbt
    rcases Heap.mem_alloc.1 hb with hb | rfl
    · exact h.fresh b hb txn hbt
    · exact absurd hbt (hother txn)
  · intro d y st hy hst hlive
    obtain ⟨r, hr, hopened⟩ := h.opened d y st hy hst hlive
    exact ⟨r, hr, hopened.other (hother st.txn)⟩

/-- A command is decorated that is not sent, or not yet. -/
theorem InFrame.decorated {t : Transaction} (h : InFrame w) (hx : w.clients[c]? = some x)
    (ht : t.state = x.session.transaction.state ∨ t.state = .noTransaction) :
    InFrame { w with clients := w.clients.set c (x.setTransaction t) } := by
  have hstate : ∀ {state : TxnState}, state ≠ .noTransaction → t.state = state →
      x.session.transaction.state = state := by
    intro state hne heq
    rcases ht with ht | ht
    · exact ht.symm.trans heq
    · exact absurd (heq.symm.trans ht) hne
  refine h.local hx rfl rfl rfl rfl (fun _ _ _ hg => hg) (fun st hst => ⟨st, hst, rfl, rfl⟩) (fun hlive => ⟨hlive, rfl⟩)
    (fun _ hstart => hstate (by decide) hstart) (fun _ hlater => ?_) ?_
  · exact hlater.imp (hstate (by decide)) (hstate (by decide))
  · intro hlive hsending st r hst hr
    refine h.current c x st r hx hst hlive hr (hsending.imp (fun hin => ?_) id)
    have hin : t.state.isActive = true := hin
    show x.session.transaction.state.isActive = true
    rcases ht with ht | ht
    · rw [← ht]
      exact hin
    · rw [ht] at hin
      cases hin

/-- A command of a transaction is decorated and sent. -/
theorem InFrame.inside {r : Nat} {t : Transaction} {command : Command} (h : InFrame w) (hs : w.Sound) (hf : w.Air i f)
    (hx : w.clients[f.client]? = some x) (hlive : x.session.hasEnded = false) (hr : x.session.serverSession = some r)
    (hd : Decorated x.session r (w.pool.number r) f command t.state) (hsome : f.txn.isSome) :
    InFrame { w with
      clients := w.clients.set f.client (x.setTransaction t)
      sent := w.sent ++ [⟨f.client, i, f.txn, f.options, true, command⟩] } := by
  have hready := hs.fits hf hx
  obtain ⟨hopen, st, hst, htxn⟩ := hready.inside hsome
  obtain ⟨q, hq, hopened⟩ := h.opened f.client x st hx hst hlive
  obtain rfl := Option.some.inj (hr.symm.trans hq)
  have hnumber : w.pool.number r = st.txnNumber := h.current f.client x st r hx hst hlive hr
    (.inr ⟨i, f, hf, rfl, hsome⟩)
  obtain ⟨hauto, hcommand⟩ := hd.inside hsome
  have hat : Sent.At ⟨f.client, i, f.txn, f.options, true, command⟩ r st.txnNumber :=
    ⟨hd.lsid, hnumber ▸ hcommand (by rw [hnumber]; exact Nat.pos_iff_ne_zero.1 hopened.pos)⟩
  have hlater : x.session.transaction.state ≠ .startingTransaction →
      x.session.transaction.state = .transactionInProgress ∨
      x.session.transaction.state = .transactionCommitted := by
    intro hne
    cases hstate : x.session.transaction.state with
    | startingTransaction => exact absurd hstate hne
    | transactionInProgress => exact .inl rfl
    | transactionCommitted => exact .inr rfl
    | _ => rw [hstate] at hopen; cases hopen
  have hframed : TransactionsFramed (w.sent ++ [⟨f.client, i, f.txn, f.options, true, command⟩]) := by
    refine h.framed.inside_append htxn hauto hat hopened.numbered ?_
    by_cases hstart : x.session.transaction.state = .startingTransaction
    · exact .inl ⟨hopened.starting hstart, (hd.first hsome hstart).1⟩
    · exact .inr ⟨hopened.later (hlater hstart), (hd.later hsome hstart).1⟩
  have hstate : t.state ≠ .startingTransaction := by
    by_cases hstart : x.session.transaction.state = .startingTransaction
    · rw [(hd.first hsome hstart).2]
      decide
    · rw [(hd.later hsome hstart).2]
      exact hstart
  -- the transaction of another client session is another one
  have hother : ∀ {d : Nat} {z : Client} {st' : Started}, d ≠ f.client → w.clients[d]? = some z → z.started = some st' →
      f.txn ≠ some st'.txn := by
    intro d z st' hne hz hst' heq
    have heq := Option.some.inj (htxn.symm.trans heq)
    exact hne (h.distinct d f.client z x st' st hz hx hst' hst heq.symm)
  refine ⟨hframed, ?_, ?_, ?_, ?_, ?_⟩
  · intro b hb txn hbt
    rcases Heap.mem_alloc.1 hb with hb | rfl
    · exact h.fresh b hb txn hbt
    · obtain rfl := Option.some.inj (htxn.symm.trans hbt)
      exact h.begun f.client x st hx hst
  · intro d z st' hz hst'
    rcases Heap.get_set_cases hz with ⟨rfl, rfl⟩ | ⟨-, hz⟩
    · exact h.begun _ x st' hx hst'
    · exact h.begun d z st' hz hst'
  · intro d e z z' s s' hz hz' hs₁ hs₂
    have hback : ∀ {d : Nat} {z : Client}, (w.clients.set f.client (x.setTransaction t))[d]? = some z →
        ∃ z₀, w.clients[d]? = some z₀ ∧ z₀.started = z.started := by
      intro d z hz
      rcases Heap.get_set_cases hz with ⟨rfl, rfl⟩ | ⟨-, hz⟩
      · exact ⟨x, hx, rfl⟩
      · exact ⟨z, hz, rfl⟩
    obtain ⟨z₁, hz₁, heq₁⟩ := hback hz
    obtain ⟨z₂, hz₂, heq₂⟩ := hback hz'
    exact h.distinct d e z₁ z₂ s s' hz₁ hz₂ (heq₁.trans hs₁) (heq₂.trans hs₂)
  · intro d z st' hz hst' hlive'
    rcases Heap.get_set_cases hz with ⟨rfl, rfl⟩ | ⟨hne, hz⟩
    · obtain rfl := Option.some.inj (hst.symm.trans hst')
      refine ⟨r, hr, ?_, hopened.pos, fun hstart => absurd hstart hstate, fun _ => ?_⟩
      · intro b hb hbt
        rcases Heap.mem_alloc.1 hb with hb | rfl
        · exact hopened.numbered b hb hbt
        · exact hat
      · exact ⟨_, List.mem_append_right _ (List.mem_singleton_self _), htxn⟩
    · obtain ⟨q, hq, hopened'⟩ := h.opened d z st' hz hst' hlive'
      exact ⟨q, hq, hopened'.other (hother hne hz hst')⟩
  · intro d z st' q hz hst' hlive' hq' hsending
    rcases Heap.get_set_cases hz with ⟨rfl, rfl⟩ | ⟨-, hz⟩
    · exact h.current _ x st' q hx hst' hlive' hq' (.inr ⟨i, f, hf, rfl, hsome⟩)
    · exact h.current d z st' q hz hst' hlive' hq' hsending

end Moves

open World in
/-- One move, under the conditions that the frame needs. -/
theorem Move.inFrame {w w' : World} (hs : w.Sound) (hmove : Move True w w') (h : InFrame w) : InFrame w' := by
  cases hmove with
  | still hstill => exact h.still hs hstill
  | startSession hnone hlive ht => exact h.startSession
  | @bump c x r hx hr hidle hout =>
    have hlt := hs.created hx hr
    refine h.bumped hs hx hr hout rfl (w.pool.number_increment hlt) rfl rfl fun j g hg _ => ⟨fun hc => ?_, hg⟩
    exact World.Air.not_idle (w := w) hg hc hidle
  | @start c x r t hx hr hidle hout ht => exact h.start hs hx hr ht
  | @settle c x t hx hidle hstate ht =>
    refine h.local hx rfl rfl rfl rfl (fun _ _ _ hg => hg) ?_ (fun hlive => ⟨hlive, rfl⟩) ?_ ?_ ?_
    · intro st' hst'
      obtain ⟨st, hst, rfl⟩ := Option.map_eq_some_iff.1 hst'
      exact ⟨st, hst, rfl, rfl⟩
    · intro _ hstart
      exact absurd hstart (TxnState.ne_starting_of_isCommitted (TxnState.isCommitted_of_settled ht))
    · intro _ hlater
      have hlater : t.state = .transactionInProgress ∨ t.state = .transactionCommitted := hlater
      rcases ht with ht | ht
      · rw [ht] at hlater
        rcases hlater with hlater | hlater <;> cases hlater
      · rw [ht] at hlater
        rcases hlater with hlater | hlater <;> cases hlater
    · rintro _ (hin | ⟨j, g, hg, hc, -⟩)
      · cases (TxnState.not_active_of_isCommitted (TxnState.isCommitted_of_settled ht)).symm.trans hin
      · exact absurd hidle (World.Air.not_idle (w := w) hg hc)
  | @endSession c x pool hx hidle hout hnumber ha =>
    exact h.local hx rfl hnumber rfl rfl (fun _ _ _ hg => hg) (fun st hst => ⟨st, hst, rfl, rfl⟩)
      (fun hlive => (nomatch hlive)) (fun hlive => (nomatch hlive)) (fun hlive => (nomatch hlive))
      (fun hlive => (nomatch hlive))
  | @launch x f hx hidle hair hpurpose hready hflag =>
    refine h.local hx (Heap.set_get hx) rfl rfl rfl (fun _ _ hc hg => hg.others_of_concat rfl rfl hc)
      (fun st hst => ⟨st, hst, rfl, rfl⟩) (fun hlive => ⟨hlive, rfl⟩)
      (fun _ hstart => hstart) (fun _ hlater => hlater) ?_
    · rintro hlive hsending st r hst hr
      refine h.current _ x st r hx hst hlive hr (.inl ?_)
      rcases hsending with hin | ⟨j, g, hg, hc, hsome⟩
      · exact hin
      · rcases hg.of_concat rfl with ⟨-, rfl⟩ | hg
        · have hready := (ready_operation hpurpose).1 hready
          rw [← hready.isOpen, ← hready.txn]
          exact hsome
        · exact absurd hidle (hg.not_idle hc)
  | @launchEnd x f name command retried endSession hx hidle hair hpurpose hready hk =>
    refine h.local hx rfl rfl rfl rfl (fun _ _ hc hg => hg.others_of_concat rfl rfl hc) ?_
      (fun hlive => ⟨hlive, rfl⟩) (fun _ hstart => hstart) (fun _ hlater => hlater) ?_
    · intro st' hst'
      obtain ⟨st, hst, rfl⟩ := Option.map_eq_some_iff.1 hst'
      exact ⟨st, hst, rfl, rfl⟩
    · intro hlive _ st r hst hr
      rcases ((ready_end hpurpose).1 hready).state with hstate | ⟨hstate, -⟩
      · refine h.current _ x st r hx hst hlive hr (.inl ?_)
        show x.session.transaction.state.isActive = true
        rw [show x.session.transaction.state = _ from hstate]
        rfl
      · exact hk trivial hlive r st hr hst hstate
  | @turn i x f g hf hx hair hready hclient htxn hoptions =>
    refine h.local hx (Heap.set_get hx) rfl rfl rfl (fun _ _ hc hg => hg.others_of_set rfl hclient hc)
      (fun st hst => ⟨st, hst, rfl, rfl⟩) (fun hlive => ⟨hlive, rfl⟩)
      (fun _ hstart => hstart) (fun _ hlater => hlater) ?_
    · rintro hlive hsending st r hst hr
      refine h.current _ x st r hx hst hlive hr ?_
      rcases hsending with hin | ⟨j, g', hg, hc, hsome⟩
      · exact .inl hin
      · rcases hg.of_set rfl with ⟨-, rfl⟩ | ⟨-, hg⟩
        · exact .inr ⟨i, f, hf, rfl, htxn ▸ hsome⟩
        · exact .inr ⟨j, g', hg, hc, hsome⟩
  | @retry i x f r p hf hpurpose hx hr hout hflag hp =>
    have hlt := hs.created hx hr
    have hnone : f.txn.isSome = false := by
      have hready := (ready_operation hpurpose).1 (hs.fits hf hx)
      rw [hready.txn, hready.isOpen]
      exact hout
    refine h.bumped hs hx hr hout rfl (w.pool.number_increment hlt) rfl rfl fun j g hg hsome => ?_
    rcases hg.of_set rfl with ⟨-, rfl⟩ | ⟨hne, hg⟩
    · cases hnone.symm.trans hsome
    · exact ⟨fun hc => hne (hs.single j i g f hg hf hc), hg⟩
  | @decorate i x f r t command written hf hx hlive hr hack hd hk =>
    cases htxn : f.txn with
    | none =>
      obtain ⟨hauto, hstart, hstate, -⟩ := hd.outside htxn
      have hdecorated := h.decorated (t := t) hx (.inr hstate)
      cases written with
      | false => simpa using hdecorated
      | true => exact hdecorated.outside rfl hauto hstart
    | some txn =>
      have hsome : f.txn.isSome = true := by rw [htxn]; rfl
      cases written with
      | false =>
        have hne : x.session.transaction.state ≠ .startingTransaction := fun hstart => (nomatch hk trivial hsome hstart)
        simpa using h.decorated (t := t) hx (.inl (hd.later hsome hne).2)
      | true => exact htxn ▸ h.inside hs hf hx hlive hr hd hsome
  | @bare i f command supported hf hbare hsupported hk =>
    exact h.outside (hk trivial) hbare.autocommit hbare.startTransaction
  | @land i f hf hpurpose =>
    obtain ⟨x, hx, hready⟩ := hs.ready i f hf
    refine h.local hx (Heap.set_get hx) rfl rfl rfl (fun _ _ hc hg => hg.others_of_set rfl rfl hc)
      (fun st hst => ⟨st, hst, rfl, rfl⟩) (fun hlive => ⟨hlive, rfl⟩)
      (fun _ hstart => hstart) (fun _ hlater => hlater) ?_
    · rintro hlive hsending st r hst hr
      refine h.current _ x st r hx hst hlive hr ?_
      rcases hsending with hin | ⟨j, g, hg, hc, hsome⟩
      · exact .inl hin
      · rcases hg.of_set rfl with ⟨-, rfl⟩ | ⟨-, hg⟩
        · cases hg.2
        · exact .inr ⟨j, g, hg, hc, hsome⟩
  | @finish i x f t name command retried endSession hf hpurpose hx ht =>
    have hready := (ready_end hpurpose).1 (hs.fits hf hx)
    refine h.local hx rfl rfl rfl rfl (fun _ _ hc hg => hg.others_of_set rfl rfl hc)
      (fun st hst => ⟨st, hst, rfl, rfl⟩) (fun hlive => ⟨hlive, rfl⟩) ?_ ?_ ?_
    · intro _ hstart
      exact absurd hstart (TxnState.ne_starting_of_isCommitted (TxnState.isCommitted_of_finished ht))
    · intro _ _
      exact hready.state.imp id And.left
    · rintro _ (hin | ⟨j, g, hg, hc, -⟩)
      · cases (TxnState.not_active_of_isCommitted (TxnState.isCommitted_of_finished ht)).symm.trans hin
      · exact absurd hc (hs.grounded hf rfl rfl hg)

/-! ## Runs -/

theorem inFrame_init : InFrame {} := by
  refine ⟨⟨?_, ?_, ?_, ?_⟩, ?_, ?_, ?_, ?_, ?_⟩
  all_goals simp [sentFor]

/-- For every run in which each client session is used by one operation at a time, operations send plain
commands, and the conditions of `Whole` are met: the commands of a transaction carry `autocommit: false`, one
session and one number, exactly the first of them `startTransaction: true`, and other commands neither. -/
theorem transactions_framed {es : List Event} {w : World} (hserial : Run.Meets World.step Serial {} es)
    (hplain : Run.Meets World.step Plain {} es) (hwhole : Run.Meets World.step Whole {} es)
    (hrun : Run.exec World.step {} es = some w) : TransactionsFramed w.sent := by
  have hw : w.Sound ∧ InFrame w := by
    refine Run.exec_inv_meets (P := fun w => w.Sound ∧ InFrame w) World.step (fun s e t hs hc ht => ?_)
      ⟨sound_init, inFrame_init⟩ (Run.meets_and World.step (Run.meets_and World.step hserial hplain) hwhole) hrun
    have hmoves : Moves True s t := step_moves hs.1 hc.1.1 hc.1.2 (fun _ => hc.2) ht
    exact ⟨hmoves.sound hs.1, hmoves.inv (fun hw hm h => hm.inFrame hw h) hs.1 hs.2⟩
  exact hw.2.framed

section Runs

open Sample

/-- An operation whose only attempt sends one command and ends with this outcome. -/
private def attempt (i : Nat) (conn : World.Connection) (outcome : Operations.Outcome Unit) : List Event :=
  [during (.selected i (.ok primary)), during (.command i {} conn), during (.outcome i outcome)]

/-- Two writes in a transaction, whose commit is repeated. -/
private def committedTwice : List Event :=
  [during (.startSession {} {}), during (.startTransaction 0 {}), during (.executeOperation 0 insert false)] ++
    attempt 0 {} {} ++ [during (.executeOperation 0 insert false)] ++ attempt 1 {} {} ++
    [during (.endTransaction 0 .commitTransaction)] ++ attempt 2 {} {} ++
    [during (.endTransaction 0 .commitTransaction)] ++ attempt 3 {} {}

private theorem committedTwice_serial : Run.Meets World.step Serial {} committedTwice :=
  .cons trivial rfl <| .cons rfl rfl <| .cons rfl rfl <| .cons trivial rfl <| .cons trivial rfl <| .cons trivial rfl <|
    .cons rfl rfl <| .cons trivial rfl <| .cons trivial rfl <| .cons trivial rfl <| .cons rfl rfl <|
    .cons trivial rfl <| .cons trivial rfl <| .cons trivial rfl <| .cons rfl rfl <| .cons trivial rfl <|
    .cons trivial rfl <| .cons trivial rfl trivial

private theorem committedTwice_plain : Run.Meets World.step Plain {} committedTwice :=
  .cons trivial rfl <| .cons trivial rfl <| .cons trivial rfl <| .cons trivial rfl <| .cons (plain_empty _ _ _) rfl <|
    .cons trivial rfl <| .cons trivial rfl <| .cons trivial rfl <| .cons (plain_empty _ _ _) rfl <| .cons trivial rfl <|
    .cons trivial rfl <| .cons trivial rfl <| .cons (plain_empty _ _ _) rfl <| .cons trivial rfl <| .cons trivial rfl <|
    .cons trivial rfl <| .cons (plain_empty _ _ _) rfl <| .cons trivial rfl trivial

private theorem whole_command {w : World} {i : Nat} {f : Flight} (hf : w.flights[i]? = some f)
    (hack : f.options.unacknowledged = false) : Whole w (during (.command i {} {})) := by
  intro g x hg _ _
  obtain rfl := Option.some.inj (hf.symm.trans hg)
  exact ⟨rfl, fun h => (nomatch hack.symm.trans h), fun _ _ => rfl⟩

private theorem whole_commit {w : World} {x : Client} (hx : w.clients[0]? = some x)
    (hserver : x.session.serverSession = some 0) (hnumber : x.started.map (·.txnNumber) = some (w.pool.number 0)) :
    Whole w (during (.endTransaction 0 .commitTransaction)) := by
  intro y hy _ r st hr hst _
  obtain rfl := Option.some.inj (hx.symm.trans hy)
  obtain rfl := Option.some.inj (hserver.symm.trans hr)
  rw [hst] at hnumber
  exact (Option.some.inj hnumber).symm

private theorem committedTwice_whole : Run.Meets World.step Whole {} committedTwice :=
  .cons trivial rfl <| .cons trivial rfl <| .cons trivial rfl <| .cons trivial rfl <|
    .cons (whole_command rfl rfl) rfl <|
    .cons trivial rfl <| .cons trivial rfl <| .cons trivial rfl <| .cons (whole_command rfl rfl) rfl <|
    .cons trivial rfl <| .cons (whole_commit rfl rfl rfl) rfl <| .cons trivial rfl <|
    .cons (whole_command rfl rfl) rfl <| .cons trivial rfl <| .cons (whole_commit rfl rfl rfl) rfl <|
    .cons trivial rfl <| .cons (whole_command rfl rfl) rfl <| .cons trivial rfl trivial

theorem committed_twice_framed : ∃ w, Run.exec World.step {} committedTwice = some w ∧ TransactionsFramed w.sent ∧
    w.sent.map (fun a => (a.txn, a.command.txnNumber, a.command.autocommit, a.command.startTransaction)) =
      [(some 0, some 1, some false, some true), (some 0, some 1, some false, none), (some 0, some 1, some false, none),
        (some 0, some 1, some false, none)] :=
  ⟨_, rfl, transactions_framed committedTwice_serial committedTwice_plain committedTwice_whole rfl, rfl⟩

private def poolCleared : AnyError where
  cls := .mongoNetworkError
  message := "connection pool cleared"

/-- After the commit a write gets no connection; then the commit is repeated. -/
private def committedAround : List Event :=
  [during (.startSession {} {}), during (.startTransaction 0 {}), during (.executeOperation 0 insert false)] ++
    attempt 0 {} {} ++ [during (.endTransaction 0 .commitTransaction)] ++ attempt 1 {} {} ++
    [during (.executeOperation 0 insert false), during (.selected 2 (.ok primary)),
      during (.outcome 2 { error := some poolCleared }), during (.endTransaction 0 .commitTransaction)] ++
    attempt 3 {} {}

/-- The first command of a transaction cannot be encoded, and the next one is sent. -/
private def firstNotWritten : List Event :=
  [during (.startSession {} {}), during (.startTransaction 0 {}), during (.executeOperation 0 insert false)] ++
    attempt 0 { writes := false } { error := some { cls := .error, message := "document is too large" } } ++
    [during (.executeOperation 0 insert false)] ++ attempt 1 {} {}

private theorem committedAround_serial : Run.Meets World.step Serial {} committedAround :=
  .cons trivial rfl <| .cons rfl rfl <| .cons rfl rfl <| .cons trivial rfl <| .cons trivial rfl <| .cons trivial rfl <|
    .cons rfl rfl <| .cons trivial rfl <| .cons trivial rfl <| .cons trivial rfl <| .cons rfl rfl <|
    .cons trivial rfl <| .cons trivial rfl <| .cons rfl rfl <| .cons trivial rfl <| .cons trivial rfl <|
    .cons trivial rfl trivial

private theorem firstNotWritten_serial : Run.Meets World.step Serial {} firstNotWritten :=
  .cons trivial rfl <| .cons rfl rfl <| .cons rfl rfl <| .cons trivial rfl <| .cons trivial rfl <| .cons trivial rfl <|
    .cons rfl rfl <| .cons trivial rfl <| .cons trivial rfl <| .cons trivial rfl trivial

/-- The repeated commit carries the number of the write; and no command of a transaction starts it. -/
theorem repeated_commit_renumbered :
    (∃ w, Run.Meets World.step Serial {} committedAround ∧ Run.exec World.step {} committedAround = some w ∧
      w.sent.map (fun a => (a.txn, a.command.txnNumber)) =
        [(some 0, some 1), (some 0, some 1), (some 0, some 2)] ∧ ¬ TransactionsFramed w.sent) ∧
    (∃ w, Run.Meets World.step Serial {} firstNotWritten ∧ Run.exec World.step {} firstNotWritten = some w ∧
      w.sent.map (fun a => (a.txn, a.command.autocommit, a.command.startTransaction)) = [(some 0, some false, none)] ∧
      ¬ TransactionsFramed w.sent) := by
  refine ⟨⟨_, committedAround_serial, rfl, rfl, fun h => ?_⟩, ⟨_, firstNotWritten_serial, rfl, rfl, fun h => ?_⟩⟩
  · have := (h.same _ (.head _) _ (.tail _ (.tail _ (.head _))) rfl rfl).2
    cases this
  · have := (h.first 0 _ _ rfl).1
    cases this

end Runs

end MongoDriver.Sessions
