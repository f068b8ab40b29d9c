/-
Transaction numbers. The number lives in the server session: `startTransaction` and a write that becomes
retryable increment it, and `applySession` attaches it to the commands of a transaction and of such a write.
When client sessions are used one at a time and the operations send plain commands, a number is used on a
server session by one transaction or by one write only, both attempts of a write carry the same one, and the
numbers sent never decrease. The invariant: whatever was sent with the current number of a server session
belongs to the transaction or to the write in the air of the client session that has it.
-/
import MongoDriver.Sessions.Serial

namespace MongoDriver.Sessions

/-! ## Statements -/

/-- The command carries this session and number. -/
def Sent.At (a : Sent) (r n : Nat) : Prop := a.command.lsid = some r ∧ a.command.txnNumber = some n

/-- Commands of one transaction, or attempts of one retryable write. -/
def Sent.Together (a b : Sent) : Prop :=
  (∃ t, a.txn = some t ∧ b.txn = some t) ∨
    (a.flight = b.flight ∧ a.txn = none ∧ b.txn = none ∧ a.options.willRetryWrite = true ∧
      b.options.willRetryWrite = true)

/-- What the transaction numbers of the commands sent say. -/
structure NumbersApart (sent : List Sent) : Prop where
  /-- two commands with one number belong together -/
  together : ∀ a ∈ sent, ∀ b ∈ sent, ∀ r n, a.At r n → b.At r n → a.Together b
  /-- the attempts of a write carry the same session and number on connections that support sessions -/
  attempts : ∀ a ∈ sent, ∀ b ∈ sent, a.flight = b.flight → a.options.willRetryWrite = true →
    b.options.willRetryWrite = true → a.supported = true → b.supported = true →
    a.command.lsid = b.command.lsid ∧ a.command.txnNumber = b.command.txnNumber
  /-- and they do carry them, unless the write is not acknowledged -/
  carried : ∀ a ∈ sent, a.options.willRetryWrite = true → a.supported = true → a.options.unacknowledged = false →
    ∃ r n, a.At r n
  /-- the numbers sent on a session never decrease -/
  increasing : sent.Pairwise fun a b => ∀ r m n, a.At r m → b.At r n → m ≤ n

/-- What an attempt of a retryable write carries. -/
def Sent.Carries (a : Sent) (serverSession : Option Nat) (number : Nat → Nat) : Prop :=
  if a.options.unacknowledged then a.command.lsid = none ∧ a.command.txnNumber = none
  else ∀ r, serverSession = some r → a.At r (number r)

structure Numbered (w : World) : Prop where
  apart : NumbersApart w.sent
  bound : ∀ a ∈ w.sent, ∀ r n, a.At r n → n ≤ w.pool.number r
  /-- in a transaction -/
  inside : ∀ (c : Nat) (x : Client) (r : Nat), w.clients[c]? = some x → x.session.hasEnded = false →
    x.session.serverSession = some r → x.session.transaction.state.isOpen = true → 0 < w.pool.number r ∧
    ∃ st, x.started = some st ∧ ∀ a ∈ w.sent, a.At r (w.pool.number r) → a.txn = some st.txn
  /-- in a retryable write -/
  writing : ∀ (i : Nat) (f : Flight) (x : Client) (r : Nat), w.Air i f → f.options.willRetryWrite = true →
    w.clients[f.client]? = some x → x.session.serverSession = some r → 0 < w.pool.number r ∧
    ∀ a ∈ w.sent, a.At r (w.pool.number r) → a.flight = i ∧ a.txn = none ∧ a.options.willRetryWrite = true
  /-- what the write has sent -/
  current : ∀ a ∈ w.sent, a.options.willRetryWrite = true → ∀ (f : Flight) (x : Client), w.Air a.flight f →
    w.clients[f.client]? = some x → f.options = a.options ∧
    (a.supported = true → a.Carries x.session.serverSession w.pool.number)

theorem Sent.Together.symm {a b : Sent} (h : a.Together b) : b.Together a := by
  rcases h with ⟨t, ha, hb⟩ | ⟨hflight, ha, hb, hfa, hfb⟩
  · exact .inl ⟨t, hb, ha⟩
  · exact .inr ⟨hflight.symm, hb, ha, hfb, hfa⟩

/-! ## The moves keep it -/

section Moves

open World

variable {w w' : World} {c i : Nat} {x x' : Client} {f : Flight}

theorem Numbered.still (h : Numbered w) (hs : w.Sound) (hstill : w.Still w') : Numbered w' := by
  -- a server session that was only now taken is that of a client session with nothing to send
  have hsame : ∀ {i : Nat} {f : Flight} {x y : Client}, w.Air i f → f.options.willRetryWrite = true →
      w.clients[f.client]? = some x → x.session.Alike y.session →
      y.session.serverSession = x.session.serverSession := by
    intro i f x y hf hflag hx halike
    obtain ⟨r, hr⟩ := Option.isSome_iff_exists.1 ((hs.fits hf hx).flagged hflag).1
    exact (halike.serverSession r hr).trans hr.symm
  refine ⟨hstill.sent ▸ h.apart, ?_, ?_, ?_, ?_⟩
  · rw [hstill.sent, hstill.number]
    exact h.bound
  · intro d y r hy hlive hr hopen
    obtain ⟨x, hx, halike, hstarted⟩ := hstill.back hy
    rw [hstill.number, hstill.sent, hstarted]
    have hlive' : x.session.hasEnded = false := halike.hasEnded ▸ hlive
    rw [halike.state] at hopen
    refine h.inside d x r hx hlive' ?_ hopen
    cases hr₀ : x.session.serverSession with
    | none =>
      have hbegan := hs.began d x hx (by intro hno; rw [hno] at hopen; cases hopen)
      rw [hs.held d x hx hlive' hr₀] at hbegan
      cases hbegan
    | some r₀ => exact (halike.serverSession r₀ hr₀).symm.trans hr
  · intro i f y r hf hflag hy hr
    obtain ⟨x, hx, halike, -⟩ := hstill.back hy
    rw [hstill.number, hstill.sent]
    exact h.writing i f x r (hstill.air hf) hflag hx ((hsame (hstill.air hf) hflag hx halike).symm.trans hr)
  · intro a ha hflag f y hf hy
    obtain ⟨x, hx, halike, -⟩ := hstill.back hy
    rw [hstill.sent] at ha
    obtain ⟨hoptions, hcarries⟩ := h.current a ha hflag f x (hstill.air hf) hx
    rw [hstill.number, hsame (hstill.air hf) (hoptions ▸ hflag) hx halike]
    exact ⟨hoptions, hcarries⟩

theorem Numbered.startSession (h : Numbered w) (hs : w.Sound) {session : ClientSession}
    (ht : session.transaction = {}) :
    Numbered { w with clients := w.clients ++ [{ session }] } := by
  have hback : ∀ {j : Nat} {g : Flight} {y : Client}, w.Air j g →
      (w.clients ++ [({ session } : Client)])[g.client]? = some y → w.clients[g.client]? = some y := by
    intro j g y hg hy
    obtain ⟨x, hx, -⟩ := hs.ready j g hg
    rw [List.getElem?_append_left (List.getElem?_eq_some_iff.1 hx).1] at hy
    exact hy
  refine ⟨h.apart, h.bound, ?_, ?_, ?_⟩
  · intro d y r hy hlive hr hopen
    rcases Heap.get_alloc_cases hy with ⟨-, rfl⟩ | hy
    · rw [ht] at hopen
      cases hopen
    · exact h.inside d y r hy hlive hr hopen
  · intro j g y r hg hflag hy
    exact h.writing j g y r hg hflag (hback hg hy)
  · intro a ha hflag g y hg hy
    exact h.current a ha hflag g y hg (hback hg hy)

/-- One client session changes. -/
theorem clients_set_cases {d : Nat} {y : Client} (hclients : w'.clients = w.clients.set c x')
    (hy : w'.clients[d]? = some y) : (d = c ∧ y = x') ∨ (d ≠ c ∧ w.clients[d]? = some y) := by
  rw [hclients] at hy
  exact Heap.get_set_cases hy

/-- A client session and its flight change, and neither a number nor what was sent does. -/
theorem Numbered.local (h : Numbered w) (hs : w.Sound) (hx : w.clients[c]? = some x)
    (hclients : w'.clients = w.clients.set c x') (hnumber : w'.pool.number = w.pool.number) (hsent : w'.sent = w.sent)
    (hothers : ∀ j g, g.client ≠ c → w'.Air j g → w.Air j g)
    (hinside : ∀ r, x'.session.hasEnded = false → x'.session.serverSession = some r →
      x'.session.transaction.state.isOpen = true → x.session.hasEnded = false ∧ x.session.serverSession = some r ∧
      x.session.transaction.state.isOpen = true ∧ x'.started.map (·.txn) = x.started.map (·.txn))
    (hair : ∀ j g, g.client = c → w'.Air j g → x'.session.serverSession = x.session.serverSession ∧
      ((∃ f, w.Air j f ∧ f.client = c ∧ f.options = g.options) ∨
        (w.flights.length ≤ j ∧ g.options.willRetryWrite = false))) : Numbered w' := by
  refine ⟨hsent ▸ h.apart, ?_, ?_, ?_, ?_⟩
  · rw [hsent, hnumber]
    exact h.bound
  · intro d y r hy hlive hr hopen
    rw [hnumber, hsent]
    rcases clients_set_cases hclients hy with ⟨rfl, rfl⟩ | ⟨-, hy⟩
    · obtain ⟨hlive', hr', hopen', htxn⟩ := hinside r hlive hr hopen
      obtain ⟨hpos, st, hst, hall⟩ := h.inside d x r hx hlive' hr' hopen'
      rw [hst, Option.map_some, Option.map_eq_some_iff] at htxn
      obtain ⟨st', hst', htxn⟩ := htxn
      exact ⟨hpos, st', hst', htxn ▸ hall⟩
    · exact h.inside d y r hy hlive hr hopen
  · intro j g y r hg hflag hy hr
    rw [hnumber, hsent]
    rcases clients_set_cases hclients hy with ⟨hc, rfl⟩ | ⟨hc, hy⟩
    · obtain ⟨hsame, ⟨f, hf, hfc, hoptions⟩ | ⟨-, hno⟩⟩ := hair j g hc hg
      · exact h.writing j f x r hf (hoptions ▸ hflag) (hfc ▸ hx) (hsame ▸ hr)
      · cases hno.symm.trans hflag
    · exact h.writing j g y r (hothers j g hc hg) hflag hy hr
  · intro a ha hflag g y hg hy
    rw [hsent] at ha
    rw [hnumber]
    rcases clients_set_cases hclients hy with ⟨hc, rfl⟩ | ⟨hc, hy⟩
    · obtain ⟨hsame, ⟨f, hf, hfc, hoptions⟩ | ⟨hlen, -⟩⟩ := hair _ g hc hg
      · rw [hsame, ← hoptions]
        exact h.current a ha hflag f x hf (hfc ▸ hx)
      · exact absurd (hs.logged a ha) (Nat.not_lt.2 hlen)
    · exact h.current a ha hflag g y (hothers _ g hc hg) hy

/-- The number of a server session is incremented while its client session sends nothing. -/
theorem Numbered.bumped {r : Nat} (h : Numbered w) (hs : w.Sound) (hx : w.clients[c]? = some x)
    (hr : x.session.serverSession = some r) (hclients : w'.clients = w.clients.set c x')
    (hsame : x'.session.serverSession = some r)
    (hnumber : ∀ q, w'.pool.number q = if q = r then w.pool.number r + 1 else w.pool.number q)
    (hsent : w'.sent = w.sent)
    (hothers : ∀ j g, g.client ≠ c → w'.Air j g → w.Air j g)
    (hbegan : x'.session.transaction.state.isOpen = true → x'.started.isSome)
    (hquiet : ∀ a ∈ w.sent, a.options.willRetryWrite = true → ∀ g, g.client = c → ¬ w'.Air a.flight g) :
      Numbered w' := by
  have hother : ∀ {d q : Nat} {y : Client}, d ≠ c → w.clients[d]? = some y → y.session.serverSession = some q →
      w'.pool.number q = w.pool.number q := by
    intro d q y hd hy hq
    rw [hnumber, if_neg]
    rintro rfl
    exact hd (hs.apart hx hy hr hq)
  -- nothing was sent with the new number
  have hnew : w'.pool.number r = w.pool.number r + 1 := by rw [hnumber, if_pos rfl]
  have hnone : ∀ a ∈ w.sent, ¬ a.At r (w'.pool.number r) := by
    intro a ha hat
    have := h.bound a ha r _ hat
    omega
  refine ⟨hsent ▸ h.apart, ?_, ?_, ?_, ?_⟩
  · intro a ha q n hat
    rw [hsent] at ha
    have := h.bound a ha q n hat
    rw [hnumber]
    split
    · rename_i hq
      subst hq
      omega
    · exact this
  · intro d y q hy hlive hq hopen
    rw [hsent]
    rcases clients_set_cases hclients hy with ⟨rfl, rfl⟩ | ⟨hd, hy⟩
    · obtain rfl := Option.some.inj (hsame.symm.trans hq)
      obtain ⟨st, hst⟩ := Option.isSome_iff_exists.1 (hbegan hopen)
      exact ⟨by omega, st, hst, fun a ha hat => absurd hat (hnone a ha)⟩
    · rw [hother hd hy hq]
      exact h.inside d y q hy hlive hq hopen
  · intro j g y q hg hflag hy hq
    rw [hsent]
    rcases clients_set_cases hclients hy with ⟨hc, rfl⟩ | ⟨hc, hy⟩
    · obtain rfl := Option.some.inj (hsame.symm.trans hq)
      exact ⟨by omega, fun a ha hat => absurd hat (hnone a ha)⟩
    · rw [hother hc hy hq]
      exact h.writing j g y q (hothers j g hc hg) hflag hy hq
  · intro a ha hflag g y hg hy
    rw [hsent] at ha
    rcases clients_set_cases hclients hy with ⟨hc, rfl⟩ | ⟨hc, hy⟩
    · exact absurd hg (hquiet a ha hflag g hc)
    · obtain ⟨hoptions, hcarries⟩ := h.current a ha hflag g y (hothers _ g hc hg) hy
      refine ⟨hoptions, fun hsupported => ?_⟩
      have := hcarries hsupported
      unfold Sent.Carries at this ⊢
      split at this
      · rename_i hack
        rw [if_pos hack]
        exact this
      · rename_i hack
        rw [if_neg hack]
        intro q hq
        rw [hother hc hy hq]
        exact this q hq

/-- A command is added that belongs with those of its number, carries what the other attempts of its write carry,
and has a number that is not behind. -/
theorem NumbersApart.append {sent : List Sent} {a : Sent} (h : NumbersApart sent)
    (hself : ∀ r n, a.At r n → a.Together a)
    (hold : ∀ b ∈ sent, ∀ r n, a.At r n → b.At r n → a.Together b)
    (hattempt : ∀ b ∈ sent, b.flight = a.flight → b.options.willRetryWrite = true → b.supported = true →
      a.supported = true → b.command.lsid = a.command.lsid ∧ b.command.txnNumber = a.command.txnNumber)
    (hcarried : a.options.willRetryWrite = true → a.supported = true → a.options.unacknowledged = false →
      ∃ r n, a.At r n)
    (hbound : ∀ b ∈ sent, ∀ r m n, b.At r m → a.At r n → m ≤ n) : NumbersApart (sent ++ [a]) := by
  refine ⟨?_, ?_, ?_, ?_⟩
  · intro b hb b' hb' r n hbr hbr'
    rcases Heap.mem_alloc.1 hb with hb₁ | rfl
    · rcases Heap.mem_alloc.1 hb' with hb₂ | rfl
      · exact h.together b hb₁ b' hb₂ r n hbr hbr'
      · exact (hold b hb₁ r n hbr' hbr).symm
    · rcases Heap.mem_alloc.1 hb' with hb' | rfl
      · exact hold b' hb' r n hbr hbr'
      · exact hself r n hbr
  · intro b hb b' hb' hflights hflag hflag' hsup hsup'
    rcases Heap.mem_alloc.1 hb with hb₁ | rfl
    · rcases Heap.mem_alloc.1 hb' with hb₂ | rfl
      · exact h.attempts b hb₁ b' hb₂ hflights hflag hflag' hsup hsup'
      · exact hattempt b hb₁ hflights hflag hsup hsup'
    · rcases Heap.mem_alloc.1 hb' with hb' | rfl
      · obtain ⟨hlsid, hnumber⟩ := hattempt b' hb' hflights.symm hflag' hsup' hsup
        exact ⟨hlsid.symm, hnumber.symm⟩
      · exact ⟨rfl, rfl⟩
  · intro b hb hflag hsup hack
    rcases Heap.mem_alloc.1 hb with hb | rfl
    · exact h.carried b hb hflag hsup hack
    · exact hcarried hflag hsup hack
  · refine List.pairwise_append.2 ⟨h.increasing, List.pairwise_singleton .., ?_⟩
    intro b hb b' hb' r m n hbr hbr'
    obtain rfl := List.mem_singleton.1 hb'
    exact hbound b hb r m n hbr hbr'

/-- Attempts of one write carry the same. -/
theorem Sent.Carries.same {a b : Sent} {serverSession : Option Nat} {number : Nat → Nat}
    (ha : a.Carries serverSession number) (hb : b.Carries serverSession number) (hoptions : a.options = b.options)
    (hsome : serverSession.isSome) :
    b.command.lsid = a.command.lsid ∧ b.command.txnNumber = a.command.txnNumber := by
  obtain ⟨r, hr⟩ := Option.isSome_iff_exists.1 hsome
  unfold Sent.Carries at ha hb
  rw [hoptions] at ha
  split at hb
  · rename_i hack
    rw [if_pos hack] at ha
    exact ⟨hb.1.trans ha.1.symm, hb.2.trans ha.2.symm⟩
  · rename_i hack
    rw [if_neg hack] at ha
    exact ⟨(hb r hr).1.trans (ha r hr).1.symm, (hb r hr).2.trans (ha r hr).2.symm⟩

/-- A command is sent. If it carries a number, this is the current one of its session, and the command is of
its transaction or an attempt of its write. -/
theorem Numbered.append (h : Numbered w) (hs : w.Sound) (hf : w.Air i f) (hx : w.clients[f.client]? = some x)
    {command : Command} {supported : Bool} {a : Sent} (ha : a = ⟨f.client, i, f.txn, f.options, supported, command⟩)
    (hat : ∀ r n, a.At r n → x.session.serverSession = some r ∧ n = w.pool.number r ∧ x.session.hasEnded = false ∧
      (f.txn.isSome ∨ f.options.willRetryWrite = true ∧ x.session.transaction.state.isOpen = false))
    (hcarries : f.options.willRetryWrite = true → supported = true → a.Carries x.session.serverSession w.pool.number) :
    Numbered { w with sent := w.sent ++ [a] } := by
  have hready := hs.fits hf hx
  have hflight : a.flight = i := by rw [ha]
  have htxn : a.txn = f.txn := by rw [ha]
  have hoptions : a.options = f.options := by rw [ha]
  have hsupported : a.supported = supported := by rw [ha]
  -- what was sent before with the number of the new command
  have hold : ∀ b ∈ w.sent, ∀ r n, a.At r n → b.At r n → a.Together b := by
    intro b hb r n har hbr
    obtain ⟨hr, rfl, hlive, hsome | ⟨hflag, -⟩⟩ := hat r n har
    · obtain ⟨hopen, st, hst, htxn'⟩ := hready.inside hsome
      obtain ⟨-, st', hst', hall⟩ := h.inside f.client x r hx hlive hr hopen
      obtain rfl := Option.some.inj (hst.symm.trans hst')
      exact .inl ⟨st.txn, htxn.trans htxn', hall b hb hbr⟩
    · obtain ⟨hbi, hbn, hbf⟩ := (h.writing i f x r hf hflag hx hr).2 b hb hbr
      exact .inr ⟨hflight.trans hbi.symm, htxn.trans (hready.flagged hflag).2.1, hbn, hoptions ▸ hflag, hbf⟩
  have hself : ∀ r n, a.At r n → a.Together a := by
    intro r n har
    obtain ⟨-, -, -, hsome | ⟨hflag, -⟩⟩ := hat r n har
    · obtain ⟨-, st, -, htxn'⟩ := hready.inside hsome
      exact .inl ⟨st.txn, htxn.trans htxn', htxn.trans htxn'⟩
    · have hnone := htxn.trans (hready.flagged hflag).2.1
      exact .inr ⟨rfl, hnone, hnone, hoptions ▸ hflag, hoptions ▸ hflag⟩
  have hapart : NumbersApart (w.sent ++ [a]) := by
    refine h.apart.append hself hold ?_ ?_ ?_
    · intro b hb hbf hflag hbs has
      obtain ⟨hopt, hcar⟩ := h.current b hb hflag f x (hbf.trans hflight ▸ hf) hx
      exact (hcarries (hopt ▸ hflag) (hsupported ▸ has)).same (hcar hbs) (hoptions.trans hopt)
        (hready.flagged (hopt ▸ hflag)).1
    · intro hflag hsup hack
      have hcar := hcarries (hoptions ▸ hflag) (hsupported ▸ hsup)
      obtain ⟨r, hr⟩ := Option.isSome_iff_exists.1 (hready.flagged (hoptions ▸ hflag)).1
      unfold Sent.Carries at hcar
      rw [if_neg (by rw [hack]; exact Bool.false_ne_true)] at hcar
      exact ⟨r, _, hcar r hr⟩
    · intro b hb r m n hbr har
      rw [(hat r n har).2.1]
      exact h.bound b hb r m hbr
  refine ⟨hapart, ?_, ?_, ?_, ?_⟩
  · intro b hb r n hbr
    rcases Heap.mem_alloc.1 hb with hb | rfl
    · exact h.bound b hb r n hbr
    · exact le_of_eq (hat r n hbr).2.1
  · intro d z r hz hlive hr hopen
    obtain ⟨hpos, st, hst, hall⟩ := h.inside d z r hz hlive hr hopen
    refine ⟨hpos, st, hst, fun b hb hbr => ?_⟩
    rcases Heap.mem_alloc.1 hb with hb | rfl
    · exact hall b hb hbr
    · obtain ⟨hr', -, -, hcase⟩ := hat r _ hbr
      obtain rfl := hs.apart hx hz hr' hr
      obtain rfl := Option.some.inj (hx.symm.trans hz)
      rcases hcase with hsome | ⟨-, hno⟩
      · obtain ⟨-, st', hst', htxn'⟩ := hready.inside hsome
        obtain rfl := Option.some.inj (hst.symm.trans hst')
        exact htxn.trans htxn'
      · cases hno.symm.trans hopen
  · intro j g z r hg hflag hz hr
    obtain ⟨hpos, hall⟩ := h.writing j g z r hg hflag hz hr
    refine ⟨hpos, fun b hb hbr => ?_⟩
    rcases Heap.mem_alloc.1 hb with hb | rfl
    · exact hall b hb hbr
    · obtain ⟨hr', -, -, -⟩ := hat r _ hbr
      obtain rfl := hs.single j i g f hg hf (hs.apart hx hz hr' hr)
      obtain rfl := Option.some.inj (hf.1.symm.trans hg.1)
      exact ⟨hflight, htxn.trans (hready.flagged hflag).2.1, hoptions ▸ hflag⟩
  · intro b hb hflag g z hg hz
    rcases Heap.mem_alloc.1 hb with hb | rfl
    · exact h.current b hb hflag g z hg hz
    · rw [hflight] at hg
      obtain rfl := Option.some.inj (hf.1.symm.trans hg.1)
      obtain rfl := Option.some.inj (hx.symm.trans hz)
      exact ⟨hoptions.symm, fun hsup => hcarries (hoptions ▸ hflag) (hsupported ▸ hsup)⟩

end Moves

open World in
/-- The decoration of a command by itself. -/
theorem Numbered.decorated {w : World} {i r : Nat} {f : Flight} {x : Client} {command : Command} {t : Transaction}
    (h : Numbered w) (hs : w.Sound) (hf : w.Air i f) (hx : w.clients[f.client]? = some x)
    (hd : Decorated x.session r (w.pool.number r) f command t.state) :
    Numbered { w with clients := w.clients.set f.client (x.setTransaction t) } := by
  have hready := hs.fits hf hx
  refine h.local hs hx rfl rfl rfl (fun _ _ _ hg => hg) (fun q hlive hq hopen => ⟨hlive, hq, ?_, rfl⟩)
    fun j g hc hg => ⟨rfl, .inl ⟨g, hg, hc, rfl⟩⟩
  have hopen : t.state.isOpen = true := hopen
  cases htxn : f.txn with
  | none =>
    rw [(hd.outside htxn).2.2.1] at hopen
    cases hopen
  | some txn => exact (hready.inside (by rw [htxn]; rfl)).1

open World in
/-- The number of a decorated command is the current one. -/
theorem Numbered.decorated_at {w : World} {i r q n : Nat} {f : Flight} {x : Client} {command : Command}
    {t : Transaction} (h : Numbered w) (hs : w.Sound) (hf : w.Air i f)
    (hx : w.clients[f.client]? = some x) (hlive : x.session.hasEnded = false) (hr : x.session.serverSession = some r)
    (hd : Decorated x.session r (w.pool.number r) f command t.state)
    (hat : Sent.At ⟨f.client, i, f.txn, f.options, true, command⟩ q n) :
    x.session.serverSession = some q ∧ n = w.pool.number q ∧ x.session.hasEnded = false ∧
      (f.txn.isSome ∨ f.options.willRetryWrite = true ∧ t.state.isOpen = false) := by
  obtain ⟨hlsid, hnumber⟩ := hat
  obtain rfl := Option.some.inj (hd.lsid.symm.trans hlsid)
  cases htxn : f.txn with
  | some txn =>
    have hready := hs.fits hf hx
    have hsome : f.txn.isSome = true := by rw [htxn]; rfl
    have hpos := (h.inside _ x r hx hlive hr (hready.inside hsome).1).1
    have hcommand := (hd.inside hsome).2 (by omega)
    exact ⟨hr, (Option.some.inj (hcommand.symm.trans hnumber)).symm, hlive, .inl rfl⟩
  | none =>
    obtain ⟨-, -, hstate, hcommand⟩ := hd.outside htxn
    rw [show command.txnNumber = some n from hnumber] at hcommand
    split at hcommand
    · rename_i hflag
      refine ⟨hr, Option.some.inj hcommand, hlive, .inr ⟨hflag.1, ?_⟩⟩
      rw [hstate]
      rfl
    · cases hcommand

open World in
/-- A decorated attempt of a retryable write carries the current number. -/
theorem Numbered.decorated_carries {w : World} {i r : Nat} {f : Flight} {x : Client} {command : Command}
    {t : Transaction} (h : Numbered w) (hs : w.Sound) (hf : w.Air i f)
    (hx : w.clients[f.client]? = some x) (hr : x.session.serverSession = some r)
    (hd : Decorated x.session r (w.pool.number r) f command t.state) (hflag : f.options.willRetryWrite = true) :
    Sent.At ⟨f.client, i, f.txn, f.options, true, command⟩ r (w.pool.number r) := by
  have hready := hs.fits hf hx
  have hpos := (h.writing i f x r hf hflag hx hr).1
  refine ⟨hd.lsid, (hd.outside (hready.flagged hflag).2.1).2.2.2.trans ?_⟩
  exact if_pos ⟨hflag, by omega⟩

open World in
/-- One move. -/
theorem Move.numbered {k : Prop} {w w' : World} (hs : w.Sound) (hmove : Move k w w') (h : Numbered w) :
    Numbered w' := by
  cases hmove with
  | still hstill => exact h.still hs hstill
  | startSession hnone hlive ht => exact h.startSession hs ht
  | @bump c x r hx hr hidle hout =>
    have hlt := hs.created hx hr
    refine h.bumped hs hx hr (Heap.set_get hx) hr (w.pool.number_increment hlt) rfl (fun _ _ _ hg => hg) ?_ ?_
    · intro hopen
      exact hs.began c x hx (by intro hno; rw [hno] at hopen; cases hopen)
    · intro a _ _ g hc hg
      exact hg.not_idle hc hidle
  | @start c x r t hx hr hidle hout ht =>
    have hlt := hs.created hx hr
    refine h.bumped hs hx hr rfl hr (w.pool.number_increment hlt) rfl (fun _ _ _ hg => hg) (fun _ => rfl) ?_
    intro a _ _ g hc hg
    exact World.Air.not_idle (w := w) hg hc hidle
  | @settle c x t hx hidle hstate ht =>
    refine h.local hs hx rfl rfl rfl (fun _ _ _ hg => hg) ?_
      fun j g hc hg => absurd hidle (World.Air.not_idle (w := w) hg hc)
    intro r _ _ hopen
    have hopen : t.state.isOpen = true := hopen
    rcases ht with ht | ht
    · rw [ht] at hopen; cases hopen
    · rw [ht] at hopen; cases hopen
  | @endSession c x pool hx hidle hout hnumber ha =>
    refine h.local hs hx rfl hnumber rfl (fun _ _ _ hg => hg) ?_
      fun j g hc hg => absurd hidle (World.Air.not_idle (w := w) hg hc)
    intro r hlive
    cases hlive
  | @launch x f hx hidle hair hpurpose hready hflag =>
    refine h.local hs hx (Heap.set_get hx) rfl rfl (fun _ _ hc hg => hg.others_of_concat rfl rfl hc)
      (fun r hlive hr hopen => ⟨hlive, hr, hopen, rfl⟩) ?_
    · intro j g hc hg
      rcases hg.of_concat rfl with ⟨rfl, rfl⟩ | hg
      · exact ⟨rfl, .inr ⟨le_rfl, hflag⟩⟩
      · exact absurd hidle (hg.not_idle hc)
  | @launchEnd x f name command retried endSession hx hidle hair hpurpose hready hk =>
    refine h.local hs hx rfl rfl rfl (fun _ _ hc hg => hg.others_of_concat rfl rfl hc)
      (fun r hlive hr hopen => ⟨hlive, hr, hopen, ?_⟩) ?_
    · show (x.started.map _).map _ = _
      rw [Option.map_map]
      rfl
    · intro j g hc hg
      rcases hg.of_concat rfl with ⟨rfl, rfl⟩ | hg
      · refine ⟨rfl, .inr ⟨le_rfl, ?_⟩⟩
        rw [((ready_end hpurpose).1 hready).options]
      · exact absurd hidle (hg.not_idle hc)
  | @turn i x f g hf hx hair hready hclient htxn hoptions =>
    refine h.local hs hx (Heap.set_get hx) rfl rfl (fun _ _ hc hg => hg.others_of_set rfl hclient hc)
      (fun r hlive hr hopen => ⟨hlive, hr, hopen, rfl⟩) ?_
    · intro j g' hc hg
      rcases hg.of_set rfl with ⟨rfl, rfl⟩ | ⟨-, hg⟩
      · exact ⟨rfl, .inl ⟨f, hf, rfl, hoptions.symm⟩⟩
      · exact ⟨rfl, .inl ⟨g', hg, hc, rfl⟩⟩
  | @retry i x f r p hf hpurpose hx hr hout hflag hp =>
    have hlt := hs.created hx hr
    refine h.bumped hs hx hr (Heap.set_get hx) hr (w.pool.number_increment hlt) rfl
      (fun _ _ hc hg => hg.others_of_set rfl rfl hc) ?_ ?_
    · intro hopen
      exact hs.began _ x hx (by intro hno; rw [hno] at hopen; cases hopen)
    · -- what the flight sent so far was not retryable
      intro a ha haflag g hc hg
      have hi : a.flight = i := by
        rcases hg.of_set rfl with ⟨hi, -⟩ | ⟨-, hg⟩
        · exact hi
        · exact hs.single _ i g f hg hf hc
      obtain ⟨hoptions, -⟩ := h.current a ha haflag f x (hi ▸ hf) hx
      rw [← hoptions, hflag] at haflag
      cases haflag
  | @decorate i x f r t command written hf hx hlive hr hack hd hk =>
    have hsound : ({ w with clients := w.clients.set f.client (x.setTransaction t) } : World).Sound := by
      have := (Move.decorate (k := False) false hf hx hlive hr hack hd False.elim).sound hs
      simpa using this
    have hnumbered := h.decorated hs hf hx hd
    cases written with
    | false => simpa using hnumbered
    | true =>
      have hat := fun q n => h.decorated_at (q := q) (n := n) hs hf hx hlive hr hd
      refine hnumbered.append hsound hf (Heap.get_set_self hx) rfl hat ?_
      intro hflag _
      unfold Sent.Carries
      rw [if_neg (by rw [show f.options.unacknowledged = false from hack]; exact Bool.false_ne_true)]
      intro q hq
      obtain rfl := Option.some.inj (hr.symm.trans hq)
      exact h.decorated_carries hs hf hx hr hd hflag
  | @bare i f command supported hf hbare hsupported hk =>
    obtain ⟨x, hx, hready⟩ := hs.ready i f hf
    refine h.append hs hf hx rfl ?_ ?_
    · rintro r n ⟨hlsid, -⟩
      cases hbare.lsid.symm.trans hlsid
    · intro _ hsup
      unfold Sent.Carries
      rw [if_pos (hsupported hsup)]
      exact ⟨hbare.lsid, hbare.txnNumber⟩
  | @land i f hf hpurpose =>
    obtain ⟨x, hx, hready⟩ := hs.ready i f hf
    refine h.local hs hx (Heap.set_get hx) rfl rfl (fun _ _ hc hg => hg.others_of_set rfl rfl hc)
      (fun r hlive hr hopen => ⟨hlive, hr, hopen, rfl⟩) ?_
    · intro j g hc hg
      exact absurd hc (hs.grounded hf rfl rfl hg)
  | @finish i x f t name command retried endSession hf hpurpose hx ht =>
    have hready := (ready_end hpurpose).1 (hs.fits hf hx)
    refine h.local hs hx rfl rfl rfl (fun _ _ hc hg => hg.others_of_set rfl rfl hc)
      (fun r hlive hr _ => ⟨hlive, hr, ?_, rfl⟩) ?_
    · rcases hready.state with hstate | ⟨hstate, -⟩
      · rw [hstate]; rfl
      · rw [hstate]; rfl
    · intro j g hc hg
      exact absurd hc (hs.grounded hf rfl rfl hg)

/-! ## Runs -/

theorem numbered_init : Numbered {} := by
  refine ⟨⟨?_, ?_, ?_, List.Pairwise.nil⟩, ?_, ?_, ?_, ?_⟩
  all_goals simp [World.Air]

/-- For every run in which each client session is used by one operation at a time and operations send plain
commands: two commands with one session and number are of one transaction or of one retryable write, the
attempts of a retryable write carry the same ones on connections that support sessions, and the numbers sent
on a session never decrease. -/
theorem transaction_numbers_apart {es : List Event} {w : World} (hserial : Run.Meets World.step Serial {} es)
    (hplain : Run.Meets World.step Plain {} es) (hrun : Run.exec World.step {} es = some w) : NumbersApart w.sent := by
  have hw : w.Sound ∧ Numbered w := by
    refine Run.exec_inv_meets (P := fun w => w.Sound ∧ Numbered w) World.step (fun s e t hs hc ht => ?_)
      ⟨sound_init, numbered_init⟩ (Run.meets_and World.step hserial hplain) hrun
    have hmoves : Moves False s t := step_moves hs.1 hc.1 hc.2 False.elim ht
    exact ⟨hmoves.sound hs.1, hmoves.inv (fun hw hm h => hm.numbered hw h) hs.1 hs.2⟩
  exact hw.2.apart

namespace Sample

/-- Events under which writes are retried. -/
def during (action : Action) : Event := { env := { retryOptions := { retryWrites := some true } }, action }

def primary : Sdam.Server where
  hostAddress := .tcp "a" 27017 false
  description :=
    { address := "a:27017", type := .rsPrimary, maxWireVersion := 9, logicalSessionTimeoutMinutes := some 30 }

def insert : Operations.AbstractOperation where
  aspects := [.retryable, .writeOperation]

def steppedDown : AnyError where
  cls := .mongoServerError
  message := "not primary"
  errorLabels := ["RetryableWriteError"]

theorem plain_empty (w : World) (i : Nat) (conn : World.Connection) : Plain w (during (.command i {} conn)) :=
  fun _ _ _ => ⟨⟨rfl, rfl, rfl, rfl⟩, rfl⟩

end Sample

section Runs

open Sample

/-- A write that is retried, then a transaction with one write, on one session. -/
private def retriedThenTransaction : List Event :=
  [during (.startSession {} {}), during (.executeOperation 0 insert false), during (.selected 0 (.ok primary)),
    during (.command 0 {} {}), during (.outcome 0 { error := some steppedDown }),
    during (.selected 0 (.ok primary)), during (.command 0 {} {}), during (.outcome 0 {}),
    during (.startTransaction 0 {}), during (.executeOperation 0 insert false), during (.selected 1 (.ok primary)),
    during (.command 1 {} {}), during (.outcome 1 {}), during (.endTransaction 0 .commitTransaction),
    during (.selected 2 (.ok primary)), during (.command 2 {} {}), during (.outcome 2 {})]

private theorem retriedThenTransaction_serial : Run.Meets World.step Serial {} retriedThenTransaction :=
  .cons trivial rfl <| .cons rfl rfl <| .cons trivial rfl <| .cons trivial rfl <| .cons trivial rfl <|
    .cons trivial rfl <| .cons trivial rfl <| .cons trivial rfl <| .cons rfl rfl <| .cons rfl rfl <|
    .cons trivial rfl <| .cons trivial rfl <| .cons trivial rfl <| .cons rfl rfl <| .cons trivial rfl <|
    .cons trivial rfl <| .cons trivial rfl trivial

private theorem retriedThenTransaction_plain : Run.Meets World.step Plain {} retriedThenTransaction :=
  .cons trivial rfl <| .cons trivial rfl <| .cons trivial rfl <| .cons (plain_empty _ _ _) rfl <| .cons trivial rfl <|
    .cons trivial rfl <| .cons (plain_empty _ _ _) rfl <| .cons trivial rfl <| .cons trivial rfl <| .cons trivial rfl <|
    .cons trivial rfl <| .cons (plain_empty _ _ _) rfl <| .cons trivial rfl <| .cons trivial rfl <| .cons trivial rfl <|
    .cons (plain_empty _ _ _) rfl <| .cons trivial rfl trivial

theorem retried_write_numbers : ∃ w, Run.exec World.step {} retriedThenTransaction = some w ∧ NumbersApart w.sent ∧
    w.sent.map (fun a => (a.flight, a.command.lsid, a.command.txnNumber)) =
      [(0, some 0, some 1), (0, some 0, some 1), (1, some 0, some 2), (2, some 0, some 2)] :=
  ⟨_, rfl, transaction_numbers_apart retriedThenTransaction_serial retriedThenTransaction_plain rfl, rfl⟩

/-- A retryable write, then a `commitTransaction` that the caller sends as a command of its own. -/
private def writeThenRawCommit : List Event :=
  [during (.startSession {} {}), during (.executeOperation 0 insert false), during (.selected 0 (.ok primary)),
    during (.command 0 {} {}), during (.outcome 0 {}), during (.executeOperation 0 {} false),
    during (.selected 1 (.ok primary)), during (.command 1 { commitTransaction := true } {})]

/-- A retryable write whose first attempt is made on a connection that does not support sessions. -/
private def unsupportedThenSupported : List Event :=
  [during (.startSession {} {}), during (.executeOperation 0 insert false), during (.selected 0 (.ok primary)),
    during (.command 0 {} { hasSessionSupport := false }), during (.outcome 0 { error := some steppedDown }),
    during (.selected 0 (.ok primary)), during (.command 0 {} {})]

private theorem writeThenRawCommit_serial : Run.Meets World.step Serial {} writeThenRawCommit :=
  .cons trivial rfl <| .cons rfl rfl <| .cons trivial rfl <| .cons trivial rfl <| .cons trivial rfl <| .cons rfl rfl <|
    .cons trivial rfl <| .cons trivial rfl trivial

private theorem unsupportedThenSupported_serial : Run.Meets World.step Serial {} unsupportedThenSupported :=
  .cons trivial rfl <| .cons rfl rfl <| .cons trivial rfl <| .cons trivial rfl <| .cons trivial rfl <|
    .cons trivial rfl <| .cons trivial rfl trivial

/-- The commit of the caller carries the number of the write, to which it does not belong; and of two attempts
of a write one carries no session. -/
theorem raw_commit_shares_number :
    (∃ w, Run.Meets World.step Serial {} writeThenRawCommit ∧ Run.exec World.step {} writeThenRawCommit = some w ∧
      ∃ a ∈ w.sent, ∃ b ∈ w.sent, a.At 0 1 ∧ b.At 0 1 ∧ ¬ a.Together b) ∧
    (∃ w, Run.Meets World.step Serial {} unsupportedThenSupported ∧
      Run.exec World.step {} unsupportedThenSupported = some w ∧
      ∃ a ∈ w.sent, ∃ b ∈ w.sent, a.flight = b.flight ∧ a.options.willRetryWrite = true ∧
        b.options.willRetryWrite = true ∧ a.command.lsid ≠ b.command.lsid) := by
  refine ⟨⟨_, writeThenRawCommit_serial, rfl, _, .head _, _, .tail _ (.head _), ⟨rfl, rfl⟩, ⟨rfl, rfl⟩, ?_⟩,
    ⟨_, unsupportedThenSupported_serial, rfl, _, .head _, _, .tail _ (.head _), rfl, rfl, rfl, ?_⟩⟩
  · rintro (⟨t, ht, -⟩ | ⟨hflight, -⟩)
    · cases ht
    · cases hflight
  · intro h
    cases h

end Runs

end MongoDriver.Sessions
