/-
What `connect` hands over. As long as the next tick comes before anything else, it calls back once; a connection that it
hands over has an open socket that is as secure as was asked for, and its server has been found to be one that the
driver can talk to and has accepted the credentials. With an error it leaves no socket that is not destroyed or ended,
but where the proxy refuses or cannot reach an address of that kind.
-/
import MongoDriver.Cmap.Connect
import MongoDriver.Base.Run
import MongoDriver.Base.Heap

namespace MongoDriver.Cmap

namespace Connecting

variable {c c' : Connecting} {past : List Event} {e : Event} {k : Nat}

/-- The handler of a socket that waits for the next tick is called before anything else happens. -/
def Prompt (c : Connecting) (e : Event) : Prop := c.ticks ≠ [] → e = .tick

/-! ## What is handed over -/

/-- The last socket is not ended, and open unless the connection is closed, and has the timeout; it is as secure as was
asked for, and without a proxy its certificate was verified. -/
structure Handed (options : ConnectOptions) (closed : Bool) (timeout : Int) (past : List Event)
    (sockets : List ConnectSocket) (k : Nat) : Prop where
  last : k + 1 = sockets.length
  socket : ∃ socket, sockets[k]? = some socket ∧ (closed = false → socket.destroyed = false) ∧ socket.ended = false ∧
    socket.listening = false ∧ socket.secure = options.tls ∧ socket.timeout = timeout
  verified : options.tls = true → options.rejectUnauthorized = true → options.proxyHost = none →
    Event.connected none ∈ past

/-- The server replied, and the driver can talk to it. -/
structure Accepts (options : ConnectOptions) (past : List Event) (hello : HandshakeReply) : Prop where
  replied : ∃ response, Event.replied (.ok response) ∈ past ∧
    hello = { response with isWritablePrimary := response.isWritablePrimary <|> response.ismaster }
  ok : hello.ok ≠ some 0
  supported : options.checkSupportedServer hello = none
  balanced : options.loadBalanced = true → hello.serviceId ≠ none

/-- The last socket is destroyed or ended, or the proxy was left with it. -/
def Released (options : ConnectOptions) (past : List Event) (sockets : List ConnectSocket) : Prop :=
  (∃ socket, sockets.getLast? = some socket ∧ (socket.destroyed = true ∨ socket.ended = true)) ∨
    options.proxyHost ≠ none ∧
      ((∃ err, Event.tunnelled (some err) ∈ past) ∨ ∃ path, options.hostAddress = .socket path)

/-- What is true of a call of `connect`, by what it waits for. -/
inductive Going (past : List Event) (c : Connecting) : Prop
  | waiting {k : Nat} {toProxy : Bool} {socket : ConnectSocket} (hstage : c.stage = .waiting k toProxy)
    (hcallbacks : c.callbacks = [])
    (hticks : c.ticks = if toProxy = false ∧ c.options.proxyHost ≠ none then [k] else [])
    (hproxy : toProxy = true → c.options.proxyHost ≠ none) (hlast : k + 1 = c.sockets.length)
    (hsocket : c.sockets[k]? = some socket) (hopen : socket.destroyed = false ∧ socket.ended = false)
    (hsecure : toProxy = false → socket.secure = c.options.tls)
  | tunnelling {k : Nat} {socket : ConnectSocket} (hstage : c.stage = .tunnelling k) (hcallbacks : c.callbacks = [])
    (hticks : c.ticks = []) (hproxy : c.options.proxyHost ≠ none) (hlast : k + 1 = c.sockets.length)
    (hsocket : c.sockets[k]? = some socket) (hopen : socket.destroyed = false ∧ socket.ended = false)
  | preparing {k : Nat} (hstage : c.stage = .preparing k) (hcallbacks : c.callbacks = []) (hticks : c.ticks = [])
    (hcredentials : c.options.credentials ≠ none)
    (hhanded : Handed c.options c.closed c.options.finalTimeout past c.sockets k)
  | commanding {k : Nat} (hstage : c.stage = .commanding k) (hcallbacks : c.callbacks = []) (hticks : c.ticks = [])
    (hhanded : Handed c.options c.closed (c.options.handshakeTimeout.getD c.options.finalTimeout) past c.sockets k)
  | authenticating {k : Nat} {hello : HandshakeReply} (hstage : c.stage = .authenticating k)
    (hcallbacks : c.callbacks = []) (hticks : c.ticks = [])
    (hhanded : Handed c.options c.closed c.options.settledTimeout past c.sockets k)
    (hhello : c.hello = some hello) (haccepts : Accepts c.options past hello)
  | failed {err : AnyError} (hstage : c.stage = .done) (hcallbacks : c.callbacks = [.error err]) (hticks : c.ticks = [])
    (hreleased : Released c.options past c.sockets)
  | connected {k : Nat} {hello : HandshakeReply} (hstage : c.stage = .done) (hcallbacks : c.callbacks = [.ok k])
    (hticks : c.ticks = []) (hhanded : Handed c.options false c.options.settledTimeout past c.sockets k)
    (hhello : c.hello = some hello) (haccepts : Accepts c.options past hello)
    (hauthenticated : c.options.credentials ≠ none → hello.arbiterOnly = false → Event.authenticated none ∈ past)

variable {options : ConnectOptions} {closed : Bool} {timeout : Int}

theorem Handed.later {sockets : List ConnectSocket} (h : Handed options closed timeout past sockets k) (e : Event) :
    Handed options closed timeout (past ++ [e]) sockets k :=
  ⟨h.last, h.socket, fun htls hreject hproxy => List.mem_append_left _ (h.verified htls hreject hproxy)⟩

theorem Accepts.later {hello : HandshakeReply} (h : Accepts options past hello) (e : Event) :
    Accepts options (past ++ [e]) hello := by
  obtain ⟨response, hmem, heq⟩ := h.replied
  exact ⟨⟨response, List.mem_append_left _ hmem, heq⟩, h.ok, h.supported, h.balanced⟩

/-! ## The functions -/

/-- The last socket stays the last one when it is changed. -/
theorem updateSocket_last {socket : ConnectSocket} (f : ConnectSocket → ConnectSocket)
    (hlast : k + 1 = c.sockets.length) (hsocket : c.sockets[k]? = some socket) :
    k + 1 = (c.updateSocket k f).sockets.length ∧ (c.updateSocket k f).sockets[k]? = some (f socket) := by
  constructor
  · show k + 1 = (c.sockets.modify k f).length
    rw [List.length_modify, hlast]
  · show (c.sockets.modify k f)[k]? = _
    rw [List.getElem?_modify_eq, hsocket]
    rfl

/-- A socket that is destroyed or ended is released. -/
theorem failed_going (hcallbacks : c.callbacks = []) (hticks : c.ticks = []) {socket : ConnectSocket}
    (hlast : k + 1 = c.sockets.length) (hsocket : c.sockets[k]? = some socket) {f : ConnectSocket → ConnectSocket}
    (hreleased : (f socket).destroyed = true ∨ (f socket).ended = true) (err : AnyError) :
    Going past ((c.updateSocket k f).callback (.error err)) := by
  obtain ⟨hlast', hchanged⟩ := updateSocket_last f hlast hsocket
  refine @Going.failed _ _ err rfl (by show c.callbacks ++ _ = _; rw [hcallbacks]; rfl) hticks
    (.inl ⟨f socket, ?_, hreleased⟩)
  show (c.updateSocket k f).sockets.getLast? = _
  rw [List.getLast?_eq_getElem?, ← hlast', Nat.add_sub_cancel, hchanged]

namespace Handed

theorem refuse (h : Handed options closed timeout past c.sockets k) (hcallbacks : c.callbacks = [])
    (hticks : c.ticks = []) (err : AnyError) : Going past (c.refuse k err) := by
  obtain ⟨socket, hsocket, -⟩ := h.socket
  exact failed_going hcallbacks hticks h.last hsocket (.inr rfl) err

theorem setTimeout (h : Handed options closed timeout past c.sockets k) (timeout' : Int) :
    Handed options closed timeout' past (c.setTimeout k timeout').sockets k := by
  obtain ⟨socket, hsocket, hopen, hended, hlistening, hsecure, -⟩ := h.socket
  obtain ⟨hlast, hset⟩ := updateSocket_last (fun socket => { socket with timeout := timeout' }) h.last hsocket
  exact ⟨hlast, ⟨_, hset, hopen, hended, hlistening, hsecure, rfl⟩, h.verified⟩

theorem command (h : Handed c.options c.closed timeout past c.sockets k) (hcallbacks : c.callbacks = [])
    (hticks : c.ticks = []) (handshakeDoc : HandshakeDocument) : Going past (c.command k handshakeDoc) :=
  .commanding rfl hcallbacks hticks (h.setTimeout _)

theorem performInitialHandshake (h : Handed c.options c.closed c.options.finalTimeout past c.sockets k)
    (hcallbacks : c.callbacks = []) (hticks : c.ticks = []) : Going past (c.performInitialHandshake k) := by
  unfold Connecting.performInitialHandshake
  split
  · exact h.command hcallbacks hticks _
  · rename_i credentials hcredentials
    have hsome : c.options.credentials ≠ none := by
      rw [hcredentials]
      exact Option.some_ne_none _
    split
    · exact h.refuse hcallbacks hticks _
    · split
      · exact h.refuse hcallbacks hticks _
      · exact .preparing rfl hcallbacks hticks hsome h
      · exact .preparing rfl hcallbacks hticks hsome h
      · exact h.command hcallbacks hticks _
      · exact h.command hcallbacks hticks _

theorem prepared (h : Handed c.options c.closed timeout past c.sockets k) (hcallbacks : c.callbacks = [])
    (hticks : c.ticks = []) (hcredentials : c.options.credentials ≠ none) (nonce : Buffer) :
    Going past (c.prepared k nonce) := by
  unfold Connecting.prepared
  split
  · rename_i hnone
    exact absurd hnone hcredentials
  · split
    · exact h.refuse hcallbacks hticks _
    · exact h.command hcallbacks hticks _

theorem accepted (h : Handed c.options c.closed c.options.settledTimeout past c.sockets k) (hopen : c.closed = false)
    (hcallbacks : c.callbacks = []) (hticks : c.ticks = []) {response : HandshakeReply}
    (haccepts : Accepts c.options past response) : Going past (c.accepted k response) := by
  have hdone : (c.options.credentials ≠ none → response.arbiterOnly = false → Event.authenticated none ∈ past) →
      Going past (({ c with hello := some response } : Connecting).callback (.ok k)) := fun hauthenticated =>
    .connected rfl (by show c.callbacks ++ _ = _; rw [hcallbacks]; rfl) hticks (hopen ▸ h) rfl haccepts hauthenticated
  unfold Connecting.accepted
  simp only
  split
  · split
    · rename_i harbiter
      exact hdone fun _ hnot => by rw [harbiter] at hnot; cases hnot
    · split
      · exact .authenticating rfl hcallbacks hticks h rfl haccepts
      · exact Handed.refuse (c := { c with hello := some response }) h hcallbacks hticks _
  · rename_i hnone
    exact hdone fun hsome => absurd hnone hsome

theorem replied (h : Handed c.options c.closed c.options.settledTimeout past c.sockets k) (hopen : c.closed = false)
    (hcallbacks : c.callbacks = []) (hticks : c.ticks = []) {response : HandshakeReply}
    (hmem : Event.replied (.ok response) ∈ past) : Going past (c.replied k response) := by
  unfold Connecting.replied
  split
  · exact h.refuse hcallbacks hticks _
  · rename_i hok
    simp only
    split
    · exact Handed.refuse (c := { c with helloOk := c.helloOk || response.helloOk }) h hcallbacks hticks _
    · rename_i hsupported
      split
      · exact Handed.refuse (c := { c with helloOk := c.helloOk || response.helloOk }) h hcallbacks hticks _
      · rename_i hbalanced
        refine Handed.accepted (c := { c with helloOk := c.helloOk || response.helloOk }) h hopen hcallbacks hticks
          ⟨⟨response, hmem, rfl⟩, hok, hsupported, fun hloaded hnone => hbalanced ?_⟩
        have hbalance : c.options.loadBalanced = true := hloaded
        have hid : response.serviceId = none := hnone
        rw [hbalance, hid]
        rfl

/-- A connection that is closed keeps its socket, which is perhaps destroyed. -/
theorem closes (h : Handed options closed timeout past c.sockets k) (destroy : Bool) :
    Handed options true timeout past
      (c.updateSocket k fun socket => { socket with destroyed := destroy }).sockets k := by
  obtain ⟨socket, hsocket, -, hended, hlistening, hsecure, htimeout⟩ := h.socket
  obtain ⟨hlast, hset⟩ := updateSocket_last (fun socket => { socket with destroyed := destroy }) h.last hsocket
  exact ⟨hlast, ⟨_, hset, (fun heq => by cases heq), hended, hlistening, hsecure, htimeout⟩, h.verified⟩

end Handed

/-- The handler of a socket that is connected, or of one over the tunnel. -/
theorem connectHandler_going {toProxy : Bool} {socket : ConnectSocket} {authorizationError : Option AnyError}
    (hcallbacks : c.callbacks = []) (hticks : c.ticks = []) (hproxy : toProxy = true → c.options.proxyHost ≠ none)
    (hlast : k + 1 = c.sockets.length) (hsocket : c.sockets[k]? = some socket)
    (hopen : socket.destroyed = false ∧ socket.ended = false)
    (hsecure : toProxy = false → socket.secure = c.options.tls)
    (hverified : toProxy = false → c.options.tls = true → c.options.rejectUnauthorized = true →
      c.options.proxyHost = none → authorizationError = none → Event.connected none ∈ past) :
    Going past (c.connectHandler k toProxy authorizationError) := by
  obtain ⟨hlength, hquiet⟩ := updateSocket_last (fun socket => { socket with listening := false }) hlast hsocket
  unfold connectHandler
  simp only
  split
  · have hcallbacks' : (c.updateSocket k fun socket => { socket with listening := false }).callbacks = [] := hcallbacks
    exact failed_going hcallbacks' hticks hlength hquiet (.inl rfl) _
  · rename_i hauthorized
    obtain ⟨hlength', hset⟩ :=
      updateSocket_last (fun socket => { socket with timeout := c.options.finalTimeout }) hlength hquiet
    split
    · rename_i htoProxy
      split
      · exact .tunnelling rfl hcallbacks hticks (hproxy htoProxy) hlength' hset hopen
      · rename_i path hpath
        exact .failed rfl (by show c.callbacks ++ _ = _; rw [hcallbacks]; rfl) hticks
          (.inr ⟨hproxy htoProxy, .inr ⟨path, hpath⟩⟩)
    · rename_i htoProxy
      have hdirect : toProxy = false := by simpa using htoProxy
      refine Handed.performInitialHandshake
        ⟨hlength', ⟨_, hset, fun _ => hopen.1, hopen.2, rfl, hsecure hdirect, rfl⟩, fun htls hreject hnone => ?_⟩
        hcallbacks hticks
      refine hverified hdirect htls hreject hnone ?_
      have hfilter : authorizationError.filter (fun _ => c.options.rejectUnauthorized) = none := hauthorized
      rw [show c.options.rejectUnauthorized = true from hreject] at hfilter
      cases authorizationError with
      | none => rfl
      | some err => cases hfilter

theorem tunnelled_going {socket : ConnectSocket} (hcallbacks : c.callbacks = []) (hticks : c.ticks = [])
    (hproxy : c.options.proxyHost ≠ none) (hlast : k + 1 = c.sockets.length) (hsocket : c.sockets[k]? = some socket) :
    Going past (c.tunnelled k) := by
  unfold tunnelled
  split
  · rename_i htls
    refine @Going.waiting _ _ _ _ (c.configured true) rfl hcallbacks ?_ (fun heq => by cases heq) ?_ ?_ ⟨rfl, rfl⟩
      fun _ => htls.symm
    · show c.ticks ++ [c.sockets.length] = _
      rw [hticks, if_pos ⟨rfl, hproxy⟩]
      rfl
    · show c.sockets.length + 1 = (c.sockets ++ [c.configured true]).length
      rw [List.length_append, List.length_singleton]
    · exact List.getElem?_concat_length ..
  · rename_i htls
    obtain ⟨hlength, hset⟩ := updateSocket_last (fun _ => c.configured false) hlast hsocket
    refine @Going.waiting _ _ _ _ (c.configured false) rfl hcallbacks ?_ (fun heq => by cases heq) hlength hset
      ⟨rfl, rfl⟩ fun _ => (Bool.eq_false_iff.2 htls).symm
    show c.ticks ++ [k] = _
    rw [hticks, if_pos ⟨rfl, hproxy⟩]
    rfl

theorem start_going (options : ConnectOptions) : Going [] ({ options } : Connecting).start := by
  unfold start
  split
  · rename_i hproxy
    have hsome : options.proxyHost ≠ none := Option.isSome_iff_ne_none.1 hproxy
    exact .waiting rfl rfl (if_neg fun h => by cases h.1).symm (fun _ => hsome) rfl rfl ⟨rfl, rfl⟩ fun heq => by cases heq
  · rename_i hproxy
    have hnone : options.proxyHost = none := by simpa using hproxy
    exact .waiting rfl rfl (if_neg fun h => h.2 hnone).symm (fun heq => by cases heq) rfl rfl ⟨rfl, rfl⟩ fun _ => rfl

/-! ## Steps -/

theorem step_going (h : Going past c) (hc : Prompt c e) (hstep : c.step e = some c') : Going (past ++ [e]) c' := by
  cases h with
  | @waiting k toProxy socket hstage hcallbacks hticks hproxy hlast hsocket hopen hsecure =>
    by_cases hover : toProxy = false ∧ c.options.proxyHost ≠ none
    · -- a socket over the tunnel: its handler is called in the next tick
      rw [if_pos hover] at hticks
      obtain rfl := hc (by simp [hticks])
      simp only [step, hticks, Option.some.injEq] at hstep
      subst hstep
      exact connectHandler_going (c := { c with ticks := [] }) hcallbacks rfl (fun heq => by cases heq) hlast hsocket
        hopen (fun _ => hsecure hover.1) fun _ _ _ hnone => absurd hnone hover.2
    · rw [if_neg hover] at hticks
      cases e with
      | failed failure =>
        simp only [step, hstage] at hstep
        obtain ⟨-, rfl⟩ := Option.ite_none_left_eq_some.1 hstep |>.imp id Option.some.inj
        obtain ⟨hlength, hquiet⟩ := updateSocket_last (fun socket => { socket with listening := false }) hlast hsocket
        have hcallbacks' : (c.updateSocket k fun socket => { socket with listening := false }).callbacks = [] :=
          hcallbacks
        exact failed_going hcallbacks' hticks hlength hquiet (.inl rfl) _
      | connected authorizationError =>
        simp only [step, hstage, hticks, hsocket, List.not_mem_nil, if_false, Option.some.injEq] at hstep
        subst hstep
        refine connectHandler_going hcallbacks hticks hproxy hlast hsocket hopen hsecure
          fun hdirect htls _ _ hnone => List.mem_append_right _ ?_
        have hfilter : authorizationError.filter (fun _ => socket.secure) = none := hnone
        rw [hsecure hdirect, htls] at hfilter
        cases authorizationError with
        | none => exact List.mem_singleton_self _
        | some err => cases hfilter
      | tick => simp [step, hticks] at hstep
      | _ => simp [step, hstage] at hstep
  | @tunnelling k socket hstage hcallbacks hticks hproxy hlast hsocket hopen =>
    cases e with
    | tunnelled error =>
      simp only [step, hstage] at hstep
      cases error with
      | some err =>
        obtain rfl := Option.some.inj hstep
        exact .failed rfl (by show c.callbacks ++ _ = _; rw [hcallbacks]; rfl) hticks
          (.inr ⟨hproxy, .inl ⟨err, List.mem_append_right _ (List.mem_singleton_self _)⟩⟩)
      | none =>
        obtain rfl := Option.some.inj hstep
        exact tunnelled_going hcallbacks hticks hproxy hlast hsocket
    | tick => simp [step, hticks] at hstep
    | _ => simp [step, hstage] at hstep
  | @preparing k hstage hcallbacks hticks hcredentials hhanded =>
    cases e with
    | prepared nonce =>
      simp only [step, hstage] at hstep
      cases nonce with
      | error err =>
        obtain rfl := Option.some.inj hstep
        exact (hhanded.later _).refuse hcallbacks hticks err
      | ok nonce =>
        obtain rfl := Option.some.inj hstep
        exact (hhanded.later _).prepared hcallbacks hticks hcredentials nonce
    | issue destroy err =>
      simp only [step, hstage] at hstep
      obtain ⟨-, rfl⟩ := Option.ite_none_left_eq_some.1 hstep |>.imp id Option.some.inj
      unfold handleIssue
      simp only [hstage]
      exact .preparing hstage hcallbacks hticks hcredentials ((hhanded.later _).closes destroy)
    | tick => simp [step, hticks] at hstep
    | _ => simp [step, hstage] at hstep
  | @commanding k hstage hcallbacks hticks hhanded =>
    cases e with
    | replied response =>
      simp only [step, hstage] at hstep
      obtain ⟨hclosed, hstep⟩ := Option.ite_none_left_eq_some.1 hstep
      have hanswered : Handed c.options c.closed c.options.settledTimeout (past ++ [.replied response])
          (c.answered k).sockets k := (hhanded.later _).setTimeout _
      cases response with
      | error err =>
        obtain rfl := Option.some.inj hstep
        exact hanswered.refuse hcallbacks hticks err
      | ok response =>
        obtain rfl := Option.some.inj hstep
        exact Handed.replied (c := c.answered k) hanswered (Bool.eq_false_iff.2 hclosed) hcallbacks hticks
          (List.mem_append_right _ (List.mem_singleton_self _))
    | issue destroy err =>
      simp only [step, hstage] at hstep
      obtain ⟨-, rfl⟩ := Option.ite_none_left_eq_some.1 hstep |>.imp id Option.some.inj
      unfold handleIssue
      simp only [hstage]
      exact Handed.refuse (c := { c.updateSocket k (fun socket => { socket with destroyed := destroy }) with
        closed := true }) ((hhanded.later _).closes destroy) hcallbacks hticks err
    | tick => simp [step, hticks] at hstep
    | _ => simp [step, hstage] at hstep
  | @authenticating k hello hstage hcallbacks hticks hhanded hhello haccepts =>
    cases e with
    | authenticated error =>
      simp only [step, hstage] at hstep
      cases error with
      | some err =>
        obtain rfl := Option.some.inj hstep
        exact (hhanded.later _).refuse hcallbacks hticks err
      | none =>
        obtain ⟨hclosed, rfl⟩ := Option.ite_none_left_eq_some.1 hstep |>.imp id Option.some.inj
        have hopen : c.closed = false := Bool.eq_false_iff.2 hclosed
        exact .connected rfl (by show c.callbacks ++ _ = _; rw [hcallbacks]; rfl) hticks (hopen ▸ hhanded.later _) hhello
          (haccepts.later _) fun _ _ => List.mem_append_right _ (List.mem_singleton_self _)
    | issue destroy err =>
      simp only [step, hstage] at hstep
      obtain ⟨-, rfl⟩ := Option.ite_none_left_eq_some.1 hstep |>.imp id Option.some.inj
      unfold handleIssue
      simp only [hstage]
      exact .authenticating hstage hcallbacks hticks ((hhanded.later _).closes destroy) hhello (haccepts.later _)
    | tick => simp [step, hticks] at hstep
    | _ => simp [step, hstage] at hstep
  | failed hstage hcallbacks hticks hreleased =>
    cases e <;> simp [step, hstage, hticks] at hstep
  | connected hstage hcallbacks hticks hhanded hhello haccepts hauthenticated =>
    cases e <;> simp [step, hstage, hticks] at hstep

/-! ## The options stay -/

theorem options_performInitialHandshake (c : Connecting) (k : Nat) :
    (c.performInitialHandshake k).options = c.options := by
  unfold performInitialHandshake
  split
  · rfl
  · split
    · rfl
    · split <;> rfl

theorem options_prepared (c : Connecting) (k : Nat) (nonce : Buffer) : (c.prepared k nonce).options = c.options := by
  unfold prepared
  split
  · rfl
  · split <;> rfl

theorem options_accepted (c : Connecting) (k : Nat) (response : HandshakeReply) :
    (c.accepted k response).options = c.options := by
  unfold accepted
  simp only
  split
  · split
    · rfl
    · split <;> rfl
  · rfl

theorem options_replied (c : Connecting) (k : Nat) (response : HandshakeReply) :
    (c.replied k response).options = c.options := by
  unfold replied
  split
  · rfl
  · simp only
    split
    · rfl
    · split
      · rfl
      · exact options_accepted ..

theorem options_connectHandler (c : Connecting) (k : Nat) (toProxy : Bool) (authorizationError : Option AnyError) :
    (c.connectHandler k toProxy authorizationError).options = c.options := by
  unfold connectHandler
  simp only
  split
  · rfl
  · split
    · split <;> rfl
    · exact options_performInitialHandshake ..

theorem options_tunnelled (c : Connecting) (k : Nat) : (c.tunnelled k).options = c.options := by
  unfold tunnelled
  split <;> rfl

theorem options_handleIssue (c : Connecting) (k : Nat) (destroy : Bool) (err : AnyError) :
    (c.handleIssue k destroy err).options = c.options := by
  unfold handleIssue
  simp only
  split <;> rfl

theorem options_step (hstep : c.step e = some c') : c'.options = c.options := by
  unfold step at hstep
  split at hstep
  · split at hstep
    · obtain ⟨-, rfl⟩ := Option.ite_none_left_eq_some.1 hstep |>.imp id Option.some.inj
      rfl
    · cases hstep
  · split at hstep
    · obtain ⟨-, rfl⟩ := Option.ite_none_left_eq_some.1 hstep |>.imp id Option.some.inj
      exact options_connectHandler ..
    · cases hstep
  · split at hstep
    · obtain rfl := Option.some.inj hstep
      exact options_connectHandler ..
    · cases hstep
  · split at hstep
    · obtain rfl := Option.some.inj hstep
      rfl
    · obtain rfl := Option.some.inj hstep
      exact options_tunnelled ..
    · cases hstep
  · split at hstep
    · obtain rfl := Option.some.inj hstep
      rfl
    · obtain rfl := Option.some.inj hstep
      exact options_prepared ..
    · cases hstep
  · obtain ⟨-, hstep⟩ := Option.ite_none_left_eq_some.1 hstep
    split at hstep
    · obtain rfl := Option.some.inj hstep
      rfl
    · obtain rfl := Option.some.inj hstep
      exact options_replied ..
    · cases hstep
  · split at hstep
    · obtain rfl := Option.some.inj hstep
      rfl
    · obtain ⟨-, rfl⟩ := Option.ite_none_left_eq_some.1 hstep |>.imp id Option.some.inj
      rfl
    · cases hstep
  · obtain ⟨-, hstep⟩ := Option.ite_none_left_eq_some.1 hstep
    split at hstep
    case h_4 => cases hstep
    all_goals
      obtain rfl := Option.some.inj hstep
      exact options_handleIssue ..

/-! ## Runs -/

variable {es : List Event}

theorem going_run (hmeets : Run.Meets step Prompt ({ options } : Connecting).start es)
    (hrun : Run.exec step ({ options } : Connecting).start es = some c) : Going es c ∧ c.options = options := by
  have hstart : ({ options } : Connecting).start.options = options := by
    unfold start
    split <;> rfl
  refine ⟨?_, Run.exec_inv (P := fun c => c.options = options) step
    (fun _ _ _ h hs => (options_step hs).trans h) hstart hrun⟩
  exact Run.exec_inv_past (P := Going) step (fun _ _ _ _ h hc hs => step_going h hc hs) (start_going options) hmeets hrun

/-- A server that is supported tells wire versions that meet those of the driver. -/
theorem wireVersions_of_supported {hello : HandshakeReply} (h : options.checkSupportedServer hello = none) :
    ∃ min max, hello.minWireVersion = .number min ∧ hello.maxWireVersion = .number max ∧
      min ≤ Sdam.maxSupportedWireVersion ∧ Sdam.minSupportedWireVersion ≤ max := by
  unfold ConnectOptions.checkSupportedServer at h
  simp only at h
  split at h
  · cases h
  · rename_i max hmax
    split at h
    · cases h
    · rename_i hnew
      split at h
      · cases h
      · rename_i min hmin
        split at h
        · rename_i hold
          exact ⟨min, max, hmin, hmax, hold, by omega⟩
        · cases h

/-- In every run of `connect` in which the next tick comes before anything else: its callback is called once, when it
is done, and then nothing more happens; and if it is called with an error, the last socket is destroyed or ended, or the
proxy was left with it. -/
theorem connect_calls_back_once (hmeets : Run.Meets step Prompt ({ options } : Connecting).start es)
    (hrun : Run.exec step ({ options } : Connecting).start es = some c) :
    c.callbacks.length = (if c.stage = .done then 1 else 0) ∧
    (c.stage = .done → ∀ e, c.step e = none) ∧
    ∀ err, .error err ∈ c.callbacks → Released options es c.sockets := by
  obtain ⟨hgoing, rfl⟩ := going_run hmeets hrun
  have hpending : ∀ {stage : ConnectStage}, c.stage = stage → stage ≠ .done → c.callbacks = [] →
      c.callbacks.length = (if c.stage = .done then 1 else 0) ∧ (c.stage = .done → ∀ e, c.step e = none) ∧
      ∀ err, .error err ∈ c.callbacks → Released c.options es c.sockets := by
    intro stage hstage hne hcallbacks
    rw [hstage, if_neg hne, hcallbacks]
    exact ⟨rfl, fun heq => absurd heq hne, fun _ hmem => by cases hmem⟩
  have hover : c.stage = .done → c.ticks = [] → ∀ e, c.step e = none := by
    intro hstage hticks e
    cases e <;> simp [step, hstage, hticks]
  cases hgoing with
  | waiting hstage hcallbacks => exact hpending hstage (fun heq => by cases heq) hcallbacks
  | tunnelling hstage hcallbacks => exact hpending hstage (fun heq => by cases heq) hcallbacks
  | preparing hstage hcallbacks => exact hpending hstage (fun heq => by cases heq) hcallbacks
  | commanding hstage hcallbacks => exact hpending hstage (fun heq => by cases heq) hcallbacks
  | authenticating hstage hcallbacks => exact hpending hstage (fun heq => by cases heq) hcallbacks
  | failed hstage hcallbacks hticks hreleased =>
    rw [hcallbacks, if_pos hstage]
    exact ⟨rfl, fun _ => hover hstage hticks, fun _ _ => hreleased⟩
  | connected hstage hcallbacks hticks =>
    rw [hcallbacks, if_pos hstage]
    exact ⟨rfl, fun _ => hover hstage hticks, fun _ hmem => by simp at hmem⟩

/-- In such a run, what is called back is a connection on the last socket, which is open, has the timeout that the
handshake leaves, is as secure as was asked for and, without a proxy, verified; the server replied that it is ok and
speaks a wire version of the driver, as a load balancer has a service, and has accepted the credentials unless it is an
arbiter. -/
theorem connected_server_accepted (hmeets : Run.Meets step Prompt ({ options } : Connecting).start es)
    (hrun : Run.exec step ({ options } : Connecting).start es = some c) {k : Nat} (hok : .ok k ∈ c.callbacks) :
    Handed options false options.settledTimeout es c.sockets k ∧ ∃ hello, c.hello = some hello ∧ Accepts options es hello ∧
      (∃ min max, hello.minWireVersion = .number min ∧ hello.maxWireVersion = .number max ∧
        min ≤ Sdam.maxSupportedWireVersion ∧ Sdam.minSupportedWireVersion ≤ max) ∧
      (options.credentials ≠ none → hello.arbiterOnly = false → Event.authenticated none ∈ es) := by
  obtain ⟨hgoing, rfl⟩ := going_run hmeets hrun
  have hnever : c.callbacks = [] → False := fun hcallbacks => by
    rw [hcallbacks] at hok
    cases hok
  cases hgoing with
  | waiting hstage hcallbacks => exact (hnever hcallbacks).elim
  | tunnelling hstage hcallbacks => exact (hnever hcallbacks).elim
  | preparing hstage hcallbacks => exact (hnever hcallbacks).elim
  | commanding hstage hcallbacks => exact (hnever hcallbacks).elim
  | authenticating hstage hcallbacks => exact (hnever hcallbacks).elim
  | failed hstage hcallbacks =>
    rw [hcallbacks] at hok
    simp at hok
  | @connected j hello hstage hcallbacks hticks hhanded hhello haccepts hauthenticated =>
    rw [hcallbacks] at hok
    obtain rfl : k = j := by simpa using hok
    exact ⟨hhanded, hello, hhello, haccepts, wireVersions_of_supported haccepts.supported, hauthenticated⟩

/-- TLS through a proxy, and a connection that closes before the reply. -/
theorem proxied_handshake_failed : ∃ c : Connecting, c.callbacks.length = 1 ∧
    ∃ socket, c.sockets.getLast? = some socket ∧ (socket.destroyed = true ∨ socket.ended = true) := by
  let options : ConnectOptions := { hostAddress := .tcp "localhost" 27017 false, tls := true, proxyHost := some "proxy" }
  let err : AnyError := { cls := .mongoNetworkError, message := "connection <monitor> to localhost:27017 closed" }
  have hcallbacks : (Run.exec step ({ options } : Connecting).start
      [.connected none, .tunnelled none, .tick, .issue false err]).map (·.callbacks) = some [.error err] := rfl
  obtain ⟨c, hrun, heq⟩ := Option.map_eq_some_iff.1 hcallbacks
  have hmeets : Run.Meets step Prompt ({ options } : Connecting).start
      [.connected none, .tunnelled none, .tick, .issue false err] := by
    apply Run.Meets.cons (fun hne => absurd rfl hne) rfl
    apply Run.Meets.cons (fun hne => absurd rfl hne) rfl
    apply Run.Meets.cons (fun _ => rfl) rfl
    apply Run.Meets.cons (fun hne => absurd rfl hne) rfl
    trivial
  obtain ⟨-, -, hreleased⟩ := connect_calls_back_once hmeets hrun
  refine ⟨c, by rw [heq]; rfl, ?_⟩
  rcases hreleased err (by rw [heq]; exact List.mem_singleton_self _) with hdestroyed | ⟨-, ⟨other, hmem⟩ | ⟨path, hpath⟩⟩
  · exact hdestroyed
  · simp at hmem
  · cases hpath

/-- A handshake with SCRAM, after which the server has accepted the credentials. It has a timeout of its own, after
which the one of `socketTimeout` is not set again. -/
theorem authenticated_handshake : ∃ c : Connecting, .ok 0 ∈ c.callbacks ∧
    (∃ socket, c.sockets[0]? = some socket ∧ socket.timeout = 0) ∧ ∃ hello, c.hello = some hello ∧
    ∃ min max, hello.minWireVersion = .number min ∧ hello.maxWireVersion = .number max ∧
      min ≤ Sdam.maxSupportedWireVersion ∧ Sdam.minSupportedWireVersion ≤ max := by
  let credentials : ConnectCredentials := { username := "user", password := "pencil", source := "admin" }
  let options : ConnectOptions :=
    { hostAddress := .tcp "localhost" 27017 false, socketTimeout := some 5000, connectTimeoutMS := some 10000,
      credentials := some credentials }
  let response : HandshakeReply := { minWireVersion := .number 0, maxWireVersion := .number 13 }
  have hcallbacks : (Run.exec step ({ options } : Connecting).start
      [.connected none, .prepared (.ok [1]), .replied (.ok response), .authenticated none]).map (·.callbacks) =
      some [.ok 0] := rfl
  obtain ⟨c, hrun, heq⟩ := Option.map_eq_some_iff.1 hcallbacks
  have hmeets : Run.Meets step Prompt ({ options } : Connecting).start
      [.connected none, .prepared (.ok [1]), .replied (.ok response), .authenticated none] := by
    apply Run.Meets.cons (fun hne => absurd rfl hne) rfl
    apply Run.Meets.cons (fun hne => absurd rfl hne) rfl
    apply Run.Meets.cons (fun hne => absurd rfl hne) rfl
    apply Run.Meets.cons (fun hne => absurd rfl hne) rfl
    trivial
  have hok : .ok 0 ∈ c.callbacks := by
    rw [heq]
    exact List.mem_singleton_self _
  obtain ⟨hhanded, hello, hhello, -, hversions, -⟩ := connected_server_accepted hmeets hrun hok
  obtain ⟨socket, hsocket, -, -, -, -, htimeout⟩ := hhanded.socket
  exact ⟨c, hok, ⟨socket, hsocket, htimeout⟩, hello, hhello, hversions⟩

end Connecting

end MongoDriver.Cmap
