/-
Whole SCRAM conversations (`src/cmap/auth/scram.ts`). The client sends up to three commands and calls back once,
whatever the server answers, and it reports success only to a server that signed this very conversation with a key
made from the password. A server that keeps the keys of an account is modelled too, so that the two can talk: it
accepts the client's proof and the client accepts its signature.
-/
import MongoDriver.Auth.Payloads
import MongoDriver.Auth.UserNames

namespace MongoDriver.Auth

open Cmap (Buffer)

/-! ## The client -/

/-- A command of the conversation. -/
inductive ScramCommand
  | saslStart (db : String) (start : SaslStart)
  | saslContinue (command : SaslContinue)
  /-- the empty message -/
  | retry (db : String) (conversationId : Option Int)

/-- What the client waits for. -/
inductive ScramStage
  | idle
  | starting
  | proving (command : SaslContinue)
  | retrying
  | done
deriving DecidableEq

/-- A call of `auth`: what it has sent, what its callback got, where `none` is success, and what was thrown. -/
structure ScramClient where
  cryptoMethod : CryptoMethod
  authContext : AuthContext
  cache : HiCache := hiCachePurge
  stage : ScramStage := .idle
  sent : List ScramCommand := []
  callbacks : List (Option AnyError) := []
  thrown : List AnyError := []

namespace ScramClient

variable (crypto : Crypto)

/-- The callback is called. -/
def call (client : ScramClient) (result : Option AnyError) : ScramClient :=
  { client with stage := .done, callbacks := client.callbacks ++ [result] }

/-- An exception leaves the function. -/
def throw (client : ScramClient) (error : AnyError) : ScramClient :=
  { client with stage := .done, thrown := client.thrown ++ [error] }

def send (client : ScramClient) (command : ScramCommand) (stage : ScramStage) : ScramClient :=
  { client with stage, sent := client.sent ++ [command] }

/-- `continueScramConversation`. -/
def continueConversation (client : ScramClient) (response : ScramResponse) : ScramClient :=
  let (outcome, cache) := continueScramConversation crypto client.cache client.cryptoMethod response client.authContext
  let client := { client with cache }
  match outcome with
  | .sent command => client.send (.saslContinue command) (.proving command)
  | .failed error => client.call (some error)
  | .thrown error => client.throw error

/-- `executeScram`. -/
def executeScram (client : ScramClient) : ScramClient :=
  match client.authContext.credentials, client.authContext.nonce with
  | none, _ => client.call (some { cls := .mongoAPIError, message := "AuthContext must provide credentials." })
  | some _, none =>
    client.call (some { cls := .mongoInvalidArgumentError, message := "AuthContext must contain a valid nonce property" })
  | some credentials, some nonce =>
    client.send (.saslStart credentials.source (makeFirstMessage client.cryptoMethod credentials nonce)) .starting

/-- `auth`; the reply to the handshake may have answered the first message already. -/
def auth (client : ScramClient) (speculativeAuthenticate : Option ScramResponse) : ScramClient :=
  match speculativeAuthenticate with
  | some response => client.continueConversation crypto response
  | none => client.executeScram

/-- The callback of a command. -/
def receive (client : ScramClient) (err : Option AnyError) (r : ScramResponse) : ScramClient :=
  match client.stage with
  | .starting =>
    match resolveError err r with
    | some e => client.call (some e)
    | none => client.continueConversation crypto r
  | .proving command =>
    match finishScramConversation command err r with
    | .authenticated => client.call none
    | .retried db conversationId => client.send (.retry db conversationId) .retrying
    | .failed e => client.call (some e)
    | .thrown e => client.throw e
  -- the callback is given to the command
  | .retrying => client.call err
  | .idle | .done => client

end ScramClient

/-- What happens to a client: `auth` is called, and its commands are answered. -/
inductive ScramEvent
  | auth (speculativeAuthenticate : Option ScramResponse)
  | reply (err : Option AnyError) (r : ScramResponse)

namespace ScramClient

/-- Each command is answered once. -/
def step (crypto : Crypto) (client : ScramClient) : ScramEvent → Option ScramClient
  | .auth speculativeAuthenticate =>
    if client.stage = .idle then some (client.auth crypto speculativeAuthenticate) else none
  | .reply err r => if client.stage = .idle ∨ client.stage = .done then none else some (client.receive crypto err r)

end ScramClient

/-! ## A server -/

/-- What a server keeps of a user: keys made from the password, not the password. -/
structure Account where
  salt : Buffer
  iterations : Nat
  storedKey : Buffer
  serverKey : Buffer

/-- The account was made from a password. -/
structure Account.Of (crypto : Crypto) (cryptoMethod : CryptoMethod) (account : Account) (password : String)
    (saltedPassword clientKey : Buffer) : Prop where
  salted : crypto.pbkdf2Sync password account.salt (.int account.iterations) (hiLengthMap cryptoMethod) cryptoMethod =
    .ok saltedPassword
  client : HMAC crypto cryptoMethod saltedPassword "Client Key" = .ok clientKey
  stored : H crypto cryptoMethod clientKey = .ok account.storedKey
  server : HMAC crypto cryptoMethod saltedPassword "Server Key" = .ok account.serverKey

/-- A server, with its part of the nonce; it may take an empty message before it is done. -/
structure ScramServer where
  cryptoMethod : CryptoMethod
  accounts : String → Option Account
  nonce : String
  takesEmpty : Bool := false

/-- What the server waits for. -/
inductive ServerStage
  | start
  | proof (account : Account) (bare first rnonce : String)
  | empty
  | accepted
  | refused

/-- `buffer.toString('utf8')` of valid bytes. -/
def utf8Text (buffer : Buffer) : Option String :=
  (ByteArray.utf8Decode? ⟨buffer.toArray⟩).map fun text => String.ofList text.toList

namespace ScramServer

variable (crypto : Crypto) (server : ScramServer)

def refuse : ServerStage × ScramResponse :=
  (.refused, { payload := .other, errmsg := some "Authentication failed." })

/-- The answer to the client's first message: the whole nonce, and how the account was made. -/
def first (start : SaslStart) : ServerStage × ScramResponse :=
  match utf8Text start.payload with
  | none => refuse
  | some text =>
    if start.mechanism ≠ if server.cryptoMethod = .sha1 then "SCRAM-SHA-1" else "SCRAM-SHA-256" then refuse else
    let bare := String.ofList (text.toList.drop "n,,".length)
    match split bare ',' with
    | [name, nonce] =>
      match server.accounts (String.ofList (unescape (name.toList.drop "n=".length))) with
      | none => refuse
      | some account =>
        let rnonce := String.ofList (nonce.toList.drop "r=".length) ++ server.nonce
        let first := payloadText
          [("r", rnonce), ("s", toBase64 account.salt), ("i", String.ofList (Nat.toDigits 10 account.iterations))]
        (.proof account bare first rnonce,
          { payload := .binary (utf8 first), conversationId := some 1, done := some false })
    | _ => refuse

/-- The signature of a conversation, when its proof gives back the stored key. -/
def verify (account : Account) (authMessage proof : String) : Except AnyError (Option Buffer) := do
  let clientSignature ← HMAC crypto server.cryptoMethod account.storedKey authMessage
  let storedKey ← H crypto server.cryptoMethod (ofBase64 (xor (ofBase64 proof) clientSignature))
  if storedKey ≠ account.storedKey then
    return none
  let serverSignature ← HMAC crypto server.cryptoMethod account.serverKey authMessage
  return some serverSignature

/-- The answer to the client's proof. -/
def final (account : Account) (bare first rnonce : String) (payload : Buffer) : ServerStage × ScramResponse :=
  let withoutProof := "c=biws,r=" ++ rnonce
  match utf8Text payload with
  | none => refuse
  | some text =>
    if (withoutProof ++ ",p=").toList <+: text.toList then
      match server.verify crypto account (",".intercalate [bare, first, withoutProof])
        (String.ofList (text.toList.drop (withoutProof ++ ",p=").length)) with
      | .ok (some serverSignature) =>
        (if server.takesEmpty then .empty else .accepted,
          { payload := .binary (utf8 (payloadText [("v", toBase64 serverSignature)])), conversationId := some 1,
            done := some !server.takesEmpty })
      | _ => refuse
    else refuse

def reply (stage : ServerStage) (command : ScramCommand) : ServerStage × ScramResponse :=
  match stage, command with
  | .start, .saslStart _ start => server.first start
  | .proof account bare first rnonce, .saslContinue command => server.final crypto account bare first rnonce command.payload
  | .empty, .retry _ _ => (.accepted, { payload := .binary [], conversationId := some 1, done := some true })
  | _, _ => refuse

end ScramServer

/-- A client and the stage of its server. -/
structure Conversation where
  client : ScramClient
  stage : ServerStage := .start

namespace Conversation

variable (crypto : Crypto) (server : ScramServer)

/-- The server answers the last command, if it is not answered yet. -/
def exchange (c : Conversation) : Conversation :=
  match c.client.stage, c.client.sent.getLast? with
  | .done, _ | _, none => c
  | _, some command =>
    let (stage, response) := server.reply crypto c.stage command
    { client := c.client.receive crypto none response, stage }

/-- The start, where the handshake may have carried the first message. -/
def start (speculative : Bool) (cryptoMethod : CryptoMethod) (credentials : MongoCredentials) (nonce : Buffer)
    (cache : HiCache) : Conversation :=
  let client : ScramClient :=
    { cryptoMethod, authContext := { credentials := some credentials, nonce := some nonce }, cache }
  if speculative then
    let (stage, response) := server.first (makeFirstMessage cryptoMethod credentials nonce)
    { client := client.auth crypto (some response), stage }
  else { client := client.auth crypto none }

end Conversation

/-! ## What the client has seen -/

/-- The last response carries the signature of a conversation: of the client's first message, the first response as it
was read and its nonce, made with a key of the client's own password and the salt of the first response. -/
def Signed (crypto : Crypto) (cryptoMethod : CryptoMethod) (cache : HiCache) (authContext : AuthContext)
    (first last : ScramResponse) : Prop :=
  ∃ credentials nonce password message rnonce salt saltedPassword serverKey signature v,
    authContext.credentials = some credentials ∧ authContext.nonce = some nonce ∧
    processPassword crypto cryptoMethod (cleanUsername credentials.username) credentials.password = .ok password ∧
    first.payload.toBinary.map binaryValue = some message ∧ (parsePayload message).property "r" = some rnonce ∧
    (parsePayload message).property "s" = some salt ∧
    (HI crypto.pbkdf2Sync cache password (ofBase64 salt) (parsePayload message).iterations cryptoMethod).1 =
      .ok saltedPassword ∧
    HMAC crypto cryptoMethod saltedPassword "Server Key" = .ok serverKey ∧
    HMAC crypto cryptoMethod serverKey (",".intercalate
      [clientFirstMessageBare (cleanUsername credentials.username) nonce, message, "c=biws,r=" ++ rnonce]) =
        .ok signature ∧
    (last.payload.toBinary.bind fun bytes => (parsePayload (binaryValue bytes)).property "v") = some v ∧
    ofBase64 v = signature

section

variable {crypto : Crypto} {cache cache' : HiCache} {cryptoMethod : CryptoMethod} {authContext : AuthContext}
  {first last : ScramResponse} {command : SaslContinue}

/-- The signature that is expected is that of the conversation. -/
theorem serverSignature_of_clientFinal {saltedPassword nonce serverSignature : Buffer}
    {username payload rnonce text : String}
    (h : clientFinal crypto cryptoMethod saltedPassword username nonce payload rnonce = .ok (text, serverSignature)) :
    ∃ serverKey, HMAC crypto cryptoMethod saltedPassword "Server Key" = .ok serverKey ∧
      HMAC crypto cryptoMethod serverKey
        (",".intercalate [clientFirstMessageBare username nonce, payload, "c=biws,r=" ++ rnonce]) =
          .ok serverSignature := by
  obtain ⟨clientKey, -, h⟩ := Run.bind_ok.1 h
  obtain ⟨serverKey, hserverKey, h⟩ := Run.bind_ok.1 h
  obtain ⟨storedKey, -, h⟩ := Run.bind_ok.1 h
  obtain ⟨clientSignature, -, h⟩ := Run.bind_ok.1 h
  obtain ⟨signature, hsignature, h⟩ := Run.bind_ok.1 h
  cases h
  exact ⟨serverKey, hserverKey, hsignature⟩

/-- A server that answers the proof with the signature it was expected to give has signed. -/
theorem signed_of_sent
    (hsent : continueScramConversation crypto cache cryptoMethod first authContext = (.sent command, cache'))
    {bytes : Buffer} {v : String} (hbytes : last.payload = .binary bytes)
    (hv : (parsePayload (binaryValue bytes)).property "v" = some v) (heq : ofBase64 v = command.serverSignature) :
    Signed crypto cryptoMethod cache authContext first last := by
  unfold continueScramConversation at hsent
  cases hcredentials : authContext.credentials with
  | none =>
    rw [hcredentials] at hsent
    cases hsent
  | some credentials =>
    cases hnonce : authContext.nonce with
    | none =>
      simp only [hcredentials, hnonce] at hsent
      cases hsent
    | some nonce =>
      simp only [hcredentials, hnonce] at hsent
      cases hpassword : processPassword crypto cryptoMethod (cleanUsername credentials.username)
        credentials.password with
      | error outcome =>
        rw [hpassword] at hsent
        obtain ⟨e, rfl | rfl⟩ := processPassword_error hpassword
        · cases hsent
        · cases hsent
      | ok password =>
        cases hbuffer : first.payload.toBinary with
        | none =>
          simp only [hpassword, hbuffer] at hsent
          cases hsent
        | some buffer =>
          simp only [hpassword, hbuffer] at hsent
          split_ifs at hsent with hiterations
          · cases hsent
          cases hrnonce : (parsePayload (binaryValue buffer)).property "r" with
          | none =>
            rw [hrnonce] at hsent
            cases hsent
          | some rnonce =>
            simp only [hrnonce] at hsent
            split_ifs at hsent with hword
            · cases hsent
            cases hsalt : (parsePayload (binaryValue buffer)).property "s" with
            | none =>
              rw [hsalt] at hsent
              cases hsent
            | some salt =>
              simp only [hsalt] at hsent
              split at hsent
              · cases hsent
              · rename_i text serverSignature hfinal
                obtain ⟨saltedPassword, hsalted, htext⟩ := Run.bind_ok.1 hfinal
                obtain ⟨serverKey, hserverKey, hsignature⟩ := serverSignature_of_clientFinal htext
                cases hsent
                refine ⟨credentials, nonce, password, binaryValue buffer, rnonce, salt, saltedPassword, serverKey,
                  serverSignature, v, hcredentials, hnonce, hpassword, by rw [hbuffer]; rfl, hrnonce, hsalt, hsalted,
                  hserverKey, hsignature, ?_, heq⟩
                rw [hbytes]
                exact hv

/-- A response the client got, before it sent its proof or after. -/
def Answered (past : List ScramEvent) (response : ScramResponse) : Prop :=
  .auth (some response) ∈ past ∨ ∃ err, .reply err response ∈ past

theorem Answered.later {past : List ScramEvent} {response : ScramResponse} (h : Answered past response) (e : ScramEvent) :
    Answered (past ++ [e]) response := by
  rcases h with h | ⟨err, h⟩
  · exact .inl (List.mem_append_left _ h)
  · exact .inr ⟨err, List.mem_append_left _ h⟩

/-- What is true of a conversation that began with some cache, by what the client waits for. -/
inductive Talks (crypto : Crypto) (cache : HiCache) (past : List ScramEvent) (client : ScramClient) : Prop
  | idle (hstage : client.stage = .idle) (hcallbacks : client.callbacks = []) (hthrown : client.thrown = [])
    (hsent : client.sent = []) (hcache : client.cache = cache)
  | starting (hstage : client.stage = .starting) (hcallbacks : client.callbacks = []) (hthrown : client.thrown = [])
    (hsent : client.sent.length = 1) (hcache : client.cache = cache)
  | proving {command : SaslContinue} {first : ScramResponse} (hstage : client.stage = .proving command)
    (hcallbacks : client.callbacks = []) (hthrown : client.thrown = []) (hsent : client.sent.length ≤ 2)
    (hfirst : Answered past first)
    (hproof : continueScramConversation crypto cache client.cryptoMethod first client.authContext =
      (.sent command, client.cache))
  | retrying {first last : ScramResponse} (hstage : client.stage = .retrying) (hcallbacks : client.callbacks = [])
    (hthrown : client.thrown = []) (hsent : client.sent.length ≤ 3) (hfirst : Answered past first)
    (hlast : Answered past last) (hsigned : Signed crypto client.cryptoMethod cache client.authContext first last)
  | failed {e : AnyError} (hstage : client.stage = .done) (hsent : client.sent.length ≤ 3)
    (hend : client.callbacks = [some e] ∧ client.thrown = [] ∨ client.callbacks = [] ∧ client.thrown = [e])
  | authenticated {first last : ScramResponse} (hstage : client.stage = .done) (hcallbacks : client.callbacks = [none])
    (hthrown : client.thrown = []) (hsent : client.sent.length ≤ 3) (hfirst : Answered past first)
    (hlast : Answered past last) (hsigned : Signed crypto client.cryptoMethod cache client.authContext first last)

variable {client client' : ScramClient} {past : List ScramEvent} {r : ScramResponse}

theorem call_failed_talks (hcallbacks : client.callbacks = []) (hthrown : client.thrown = [])
    (hsent : client.sent.length ≤ 3) (e : AnyError) : Talks crypto cache past (client.call (some e)) :=
  .failed rfl hsent (.inl ⟨by rw [ScramClient.call, hcallbacks]; rfl, hthrown⟩)

theorem throw_talks (hcallbacks : client.callbacks = []) (hthrown : client.thrown = []) (hsent : client.sent.length ≤ 3)
    (e : AnyError) : Talks crypto cache past (client.throw e) :=
  .failed rfl hsent (.inr ⟨hcallbacks, by rw [ScramClient.throw, hthrown]; rfl⟩)

theorem length_send {n : Nat} (hsent : client.sent.length ≤ n) (command : ScramCommand) (stage : ScramStage) :
    (client.send command stage).sent.length ≤ n + 1 := by
  simpa [ScramClient.send] using hsent

/-- The first response is read. -/
theorem continueConversation_talks (hcallbacks : client.callbacks = []) (hthrown : client.thrown = [])
    (hsent : client.sent.length ≤ 1) (hcache : client.cache = cache) (hfirst : Answered past first) :
    Talks crypto cache past (client.continueConversation crypto first) := by
  subst hcache
  unfold ScramClient.continueConversation
  cases houtcome : continueScramConversation crypto client.cache client.cryptoMethod first client.authContext with
  | mk outcome cache' =>
    cases outcome with
    | sent command =>
      refine .proving rfl hcallbacks hthrown ?_ hfirst houtcome
      exact length_send hsent (.saslContinue command) (.proving command)
    | failed e =>
      show Talks crypto client.cache past (ScramClient.call { client with cache := cache' } (some e))
      refine call_failed_talks ?_ ?_ ?_ e
      · exact hcallbacks
      · exact hthrown
      · exact hsent.trans (by omega)
    | thrown e =>
      show Talks crypto client.cache past (ScramClient.throw { client with cache := cache' } e)
      refine throw_talks ?_ ?_ ?_ e
      · exact hcallbacks
      · exact hthrown
      · exact hsent.trans (by omega)

theorem auth_talks (hcallbacks : client.callbacks = []) (hthrown : client.thrown = []) (hsent : client.sent = [])
    (hcache : client.cache = cache) (speculativeAuthenticate : Option ScramResponse) :
    Talks crypto cache (past ++ [.auth speculativeAuthenticate]) (client.auth crypto speculativeAuthenticate) := by
  have hnone : client.sent.length = 0 := by rw [hsent]; rfl
  cases speculativeAuthenticate with
  | some response =>
    refine continueConversation_talks hcallbacks hthrown (by omega) hcache (.inl ?_)
    exact List.mem_append_right _ (List.mem_singleton_self _)
  | none =>
    show Talks crypto cache _ client.executeScram
    unfold ScramClient.executeScram
    split
    · exact call_failed_talks hcallbacks hthrown (by omega) _
    · exact call_failed_talks hcallbacks hthrown (by omega) _
    · refine .starting rfl hcallbacks hthrown ?_ hcache
      simp [ScramClient.send, hsent]

/-- The answer to the proof. -/
theorem finish_talks (hcallbacks : client.callbacks = []) (hthrown : client.thrown = []) (hsent : client.sent.length ≤ 2)
    (hstage : client.stage = .proving command) (hfirst : Answered past first)
    (hproof : continueScramConversation crypto cache client.cryptoMethod first client.authContext =
      (.sent command, client.cache)) (err : Option AnyError) (hlast : Answered past r) :
    Talks crypto cache past (client.receive crypto err r) := by
  have hsigned : (finishScramConversation command err r = .authenticated ∨
      ∃ db id, finishScramConversation command err r = .retried db id) →
      Signed crypto client.cryptoMethod cache client.authContext first r := by
    intro h
    obtain ⟨buffer, v, hbuffer, hv, heq⟩ := signature_of_finish h
    exact signed_of_sent hproof hbuffer hv heq
  unfold ScramClient.receive
  rw [hstage]
  simp only
  split
  · rename_i hend
    exact .authenticated rfl (by rw [ScramClient.call, hcallbacks]; rfl) hthrown (hsent.trans (by omega)) hfirst hlast
      (hsigned (.inl hend))
  · rename_i db id hend
    exact .retrying rfl hcallbacks hthrown (length_send hsent _ _) hfirst hlast (hsigned (.inr ⟨db, id, hend⟩))
  · exact call_failed_talks hcallbacks hthrown (hsent.trans (by omega)) _
  · exact throw_talks hcallbacks hthrown (hsent.trans (by omega)) _

theorem step_talks {e : ScramEvent} (h : Talks crypto cache past client) (hstep : client.step crypto e = some client') :
    Talks crypto cache (past ++ [e]) client' := by
  cases e with
  | auth speculativeAuthenticate =>
    simp only [ScramClient.step] at hstep
    split at hstep
    · rename_i hidle
      cases hstep
      cases h with
      | idle hstage hcallbacks hthrown hsent hcache => exact auth_talks hcallbacks hthrown hsent hcache _
      | starting hstage => cases hidle.symm.trans hstage
      | proving hstage => cases hidle.symm.trans hstage
      | retrying hstage => cases hidle.symm.trans hstage
      | failed hstage => cases hidle.symm.trans hstage
      | authenticated hstage => cases hidle.symm.trans hstage
    · cases hstep
  | reply err r =>
    have hr : Answered (past ++ [.reply err r]) r :=
      .inr ⟨err, List.mem_append_right _ (List.mem_singleton_self _)⟩
    simp only [ScramClient.step] at hstep
    split at hstep
    · cases hstep
    · rename_i hwaits
      cases hstep
      cases h with
      | idle hstage => exact absurd (.inl hstage) hwaits
      | starting hstage hcallbacks hthrown hsent hcache =>
        unfold ScramClient.receive
        rw [hstage]
        simp only
        split
        · exact call_failed_talks hcallbacks hthrown (by omega) _
        · exact continueConversation_talks hcallbacks hthrown (by omega) hcache hr
      | proving hstage hcallbacks hthrown hsent hfirst hproof =>
        exact finish_talks hcallbacks hthrown hsent hstage (hfirst.later _) hproof err hr
      | retrying hstage hcallbacks hthrown hsent hfirst hlast hsigned =>
        unfold ScramClient.receive
        rw [hstage]
        cases err with
        | some e => exact call_failed_talks hcallbacks hthrown hsent e
        | none =>
          exact .authenticated rfl (by rw [ScramClient.call, hcallbacks]; rfl) hthrown hsent (hfirst.later _)
            (hlast.later _) hsigned
      | failed hstage => exact absurd (.inr hstage) hwaits
      | authenticated hstage => exact absurd (.inr hstage) hwaits

/-- The mechanism and the credentials stay. -/
theorem continueConversation_frame (client : ScramClient) (r : ScramResponse) :
    (client.continueConversation crypto r).cryptoMethod = client.cryptoMethod ∧
      (client.continueConversation crypto r).authContext = client.authContext := by
  unfold ScramClient.continueConversation
  simp only
  split <;> exact ⟨rfl, rfl⟩

theorem step_frame {e : ScramEvent} (hstep : client.step crypto e = some client') :
    client'.cryptoMethod = client.cryptoMethod ∧ client'.authContext = client.authContext := by
  cases e with
  | auth speculativeAuthenticate =>
    simp only [ScramClient.step] at hstep
    split at hstep
    · cases hstep
      cases speculativeAuthenticate with
      | some response => exact continueConversation_frame client response
      | none =>
        show client.executeScram.cryptoMethod = _ ∧ client.executeScram.authContext = _
        unfold ScramClient.executeScram
        split <;> exact ⟨rfl, rfl⟩
    · cases hstep
  | reply err r =>
    simp only [ScramClient.step] at hstep
    split at hstep
    · cases hstep
    · cases hstep
      unfold ScramClient.receive
      split
      · split
        · exact ⟨rfl, rfl⟩
        · exact continueConversation_frame client r
      · split <;> exact ⟨rfl, rfl⟩
      all_goals exact ⟨rfl, rfl⟩

end

/-- Whatever a server answers, the client is called back once or an exception leaves it, after no more than three
commands; and when it is called back with success, the server has signed the conversation. -/
theorem authenticated_server_signed (crypto : Crypto) {cryptoMethod : CryptoMethod} {authContext : AuthContext}
    {cache : HiCache} {es : List ScramEvent} {client : ScramClient}
    (hrun : Run.exec (ScramClient.step crypto) { cryptoMethod, authContext, cache } es = some client) :
    client.callbacks.length + client.thrown.length = (if client.stage = .done then 1 else 0) ∧
      client.sent.length ≤ 3 ∧
      (none ∈ client.callbacks → ∃ first last, Answered es first ∧ Answered es last ∧
        Signed crypto cryptoMethod cache authContext first last) := by
  have htalks : Talks crypto cache ([] ++ es) client ∧ client.cryptoMethod = cryptoMethod ∧
      client.authContext = authContext :=
    Run.exec_inv_past (P := fun past client => Talks crypto cache past client ∧ client.cryptoMethod = cryptoMethod ∧
        client.authContext = authContext) (ScramClient.step crypto)
      (fun _ _ _ _ h _ hs => ⟨step_talks h.1 hs, (step_frame hs).1.trans h.2.1, (step_frame hs).2.trans h.2.2⟩)
      ⟨.idle rfl rfl rfl rfl rfl, rfl, rfl⟩ (Run.meets_true _ _ es) hrun
  obtain ⟨htalks, rfl, rfl⟩ := htalks
  have hwaits : client.callbacks = [] → client.thrown = [] → client.stage ≠ .done → client.sent.length ≤ 3 →
      client.callbacks.length + client.thrown.length = (if client.stage = .done then 1 else 0) ∧
        client.sent.length ≤ 3 ∧
        (none ∈ client.callbacks → ∃ first last, Answered es first ∧ Answered es last ∧
          Signed crypto client.cryptoMethod cache client.authContext first last) := by
    intro hcallbacks hthrown hstage hsent
    rw [hcallbacks, hthrown, if_neg hstage]
    exact ⟨rfl, hsent, fun hmem => by cases hmem⟩
  cases htalks with
  | idle hstage hcallbacks hthrown hsent =>
    exact hwaits hcallbacks hthrown (by rw [hstage]; decide) (by rw [hsent]; decide)
  | starting hstage hcallbacks hthrown hsent => exact hwaits hcallbacks hthrown (by rw [hstage]; decide) (by omega)
  | proving hstage hcallbacks hthrown hsent =>
    exact hwaits hcallbacks hthrown (fun heq => by rw [hstage] at heq; cases heq) (by omega)
  | retrying hstage hcallbacks hthrown hsent => exact hwaits hcallbacks hthrown (by rw [hstage]; decide) hsent
  | failed hstage hsent hend =>
    rw [if_pos hstage]
    rcases hend with ⟨hcallbacks, hthrown⟩ | ⟨hcallbacks, hthrown⟩
    · rw [hcallbacks, hthrown]
      exact ⟨rfl, hsent, fun hmem => by simp at hmem⟩
    · rw [hcallbacks, hthrown]
      exact ⟨rfl, hsent, fun hmem => by cases hmem⟩
  | authenticated hstage hcallbacks hthrown hsent hfirst hlast hsigned =>
    rw [if_pos hstage, hcallbacks, hthrown]
    exact ⟨rfl, hsent, fun _ => ⟨_, _, hfirst, hlast, hsigned⟩⟩

/-- `crypto` for the user `user` with the password `pencil` in the conversations below. -/
private def exampleCrypto : Crypto where
  createHash
    | .md5, _ => .ok [28, 51, 0, 110, 193, 255, 217, 15, 156, 173, 203, 204, 14, 17, 130, 0]
    | .method _, _ => .ok [88, 110, 93, 242, 131, 230, 220, 235, 92, 62, 121, 29, 139, 133, 40, 236, 25, 30, 102, 64, 69,
        206, 151, 23, 146, 226, 230, 181, 187, 19, 226, 166]
  createHmac cryptoMethod key text := .ok <|
    if cryptoMethod = .sha1 then List.replicate 20 0
    else if text = utf8 "Client Key" then
      [166, 15, 201, 35, 214, 126, 134, 68, 169, 45, 22, 185, 110, 218, 94, 244, 101, 107, 12, 114, 92, 72, 67, 116, 190,
        37, 83, 85, 118, 153, 110, 139]
    else if text = utf8 "Server Key" then
      [193, 243, 203, 193, 193, 58, 157, 53, 161, 76, 9, 144, 238, 217, 118, 41, 234, 34, 88, 99, 229, 102, 164, 49, 74,
        185, 159, 63, 0, 229, 217, 213]
    else if key.head? = some 88 then
      [210, 115, 18, 70, 124, 40, 164, 10, 138, 127, 5, 199, 60, 13, 227, 62, 179, 203, 251, 74, 131, 120, 59, 88, 20, 76,
        241, 154, 198, 190, 27, 223]
    else
      [234, 186, 226, 77, 16, 98, 219, 117, 169, 69, 31, 240, 182, 234, 126, 152, 200, 84, 101, 73, 255, 116, 30, 103, 45,
        50, 81, 178, 57, 125, 228, 110]
  pbkdf2Sync data salt iterations keylen digest :=
    if data = "pencil" ∧ salt = [91, 109, 153, 104, 157, 18, 53, 142, 236, 160, 75, 20, 18, 54, 250, 129] ∧
        iterations = .int 4096 ∧ keylen = 32 ∧ digest = .sha256 then
      .ok [196, 164, 149, 16, 50, 58, 180, 249, 82, 202, 193, 250, 153, 68, 25, 57, 231, 142, 167, 77, 107, 232, 29, 223,
        112, 150, 232, 117, 19, 220, 97, 93]
    else .error { cls := .error, message := "not in the table" }
  saslprep := none

private def exampleCredentials : MongoCredentials := { username := "user", password := "pencil", source := "admin" }

private def exampleNonce : Buffer := [172, 234, 107, 52, 103, 240, 17, 183, 145, 90, 6, 205, 18, 74, 142]

/-- The client is called back with success by a server that signed. -/
theorem signed_conversation :
    ∃ es client, Run.exec (ScramClient.step exampleCrypto) { cryptoMethod := .sha256, authContext :=
          { credentials := some exampleCredentials, nonce := some exampleNonce } } es = some client ∧
      none ∈ client.callbacks ∧
      ∃ first last, Answered es first ∧ Answered es last ∧
        Signed exampleCrypto .sha256 hiCachePurge
          { credentials := some exampleCredentials, nonce := some exampleNonce } first last := by
  have h : (Run.exec (ScramClient.step exampleCrypto) { cryptoMethod := .sha256, authContext :=
        { credentials := some exampleCredentials, nonce := some exampleNonce } }
      [.auth none,
        .reply none
          { payload := .binary (utf8 ("r=rOprNGfwEbeRWgbNEkqO%hvYDpWUa2RaTCAfuxFIlj)hNlF$k0," ++
              "s=W22ZaJ0SNY7soEsUEjb6gQ==,i=4096")),
            conversationId := some 1, done := some false },
        .reply none
          { payload := .binary (utf8 "v=6rriTRBi23WpRR/wtup+mMhUZUn/dB5nLTJRsjl95G4="), conversationId := some 1,
            done := some true }]).map ScramClient.callbacks = some [none] := by decide +kernel
  obtain ⟨client, hrun, hcallbacks⟩ := Option.map_eq_some_iff.1 h
  have hsuccess : none ∈ client.callbacks := by
    rw [hcallbacks]
    exact List.mem_singleton_self _
  exact ⟨_, client, hrun, hsuccess, (authenticated_server_signed exampleCrypto hrun).2.2 hsuccess⟩

/-! ## Texts and bytes -/

theorem utf8Text_utf8 (text : String) : utf8Text (utf8 text) = some text := by
  have hbytes : (⟨(utf8 text).toArray⟩ : ByteArray) = text.toList.utf8Encode := by
    rw [String.utf8Encode_toList]
    rfl
  unfold utf8Text
  rw [hbytes, List.utf8Decode?_utf8Encode]
  simp

theorem utf8_eq_flatMap (text : String) : utf8 text = text.toList.flatMap String.utf8EncodeChar := by
  have h : text.toUTF8 = (text.toList.flatMap String.utf8EncodeChar).toByteArray := by
    rw [String.toUTF8_eq_toByteArray, ← String.utf8Encode_toList]
    rfl
  unfold utf8
  rw [h]
  simp

/-- Bytes of ASCII are their characters. -/
theorem binaryValue_utf8 {text : String} (h : ∀ c ∈ text.toList, c.toNat < 128) : binaryValue (utf8 text) = text := by
  rw [binaryValue, utf8_eq_flatMap, List.map_flatMap]
  have hchar : ∀ c ∈ text.toList, (String.utf8EncodeChar c).map (fun b => Char.ofNat b.toNat) = [c] := by
    intro c hc
    have hsmall : c.utf8Size = 1 := Char.utf8Size_eq_one_iff.2 (by
      have := h c hc
      rw [UInt32.le_iff_toNat_le]
      show c.toNat ≤ 127
      omega)
    rw [String.utf8EncodeChar_eq_singleton hsmall]
    have hnat : c.val.toUInt8.toNat = c.toNat := by
      have hlt := h c hc
      rw [UInt32.toNat_toUInt8]
      exact Nat.mod_eq_of_lt (by show c.toNat < 256; omega)
    rw [List.map_singleton, hnat, Char.ofNat_toNat]
  rw [List.flatMap_congr hchar]
  simp

theorem parseInt_toDigits {n : Nat} (h : n < 2 ^ 53) : Js.parseInt (Nat.toDigits 10 n) = .int n := by
  have hdigit : ∀ c ∈ Nat.toDigits 10 n, c.isDigit = true := fun c => Js.isDigit_of_mem_toDigits
  have hplain : ∀ c ∈ Nat.toDigits 10 n, Js.isWhiteSpace c = false ∧ c ≠ '-' ∧ c ≠ '+' := by
    intro c hc
    have hrange : 48 ≤ c.toNat ∧ c.toNat ≤ 57 := Char.isDigit_iff_toNat.1 (hdigit c hc)
    refine ⟨?_, ?_, ?_⟩
    · simp only [Js.isWhiteSpace, List.mem_cons, List.not_mem_nil, or_false, Bool.or_eq_false_iff, decide_eq_false_iff_not,
        Bool.and_eq_false_iff]
      omega
    · rintro rfl
      simp at hrange
    · rintro rfl
      simp at hrange
  have hwhite : (Nat.toDigits 10 n).dropWhile Js.isWhiteSpace = Nat.toDigits 10 n := by
    refine List.dropWhile_eq_self_iff.2 fun hlt => ?_
    rw [(hplain _ (List.getElem_mem hlt)).1]
    exact Bool.false_ne_true
  have hsign : ∀ c, (Nat.toDigits 10 n).head? = some c → c ≠ '-' ∧ c ≠ '+' :=
    fun c hc => (hplain c (List.mem_of_mem_head? hc)).2
  have hall : (Nat.toDigits 10 n).takeWhile Char.isDigit = Nat.toDigits 10 n := List.takeWhile_eq_self_iff.2 hdigit
  have hminus : (Nat.toDigits 10 n).head? ≠ some '-' := fun hc => (hsign _ hc).1 rfl
  have hplus : (Nat.toDigits 10 n).head? ≠ some '+' := fun hc => (hsign _ hc).2 rfl
  unfold Js.parseInt
  simp only [hwhite, hminus, hplus, or_self, if_false, hall, Nat.ofDigitChars_ten_toDigits, Nat.toDigits_ne_nil]
  have hround : Js.roundDouble (n : Int).natAbs = n := if_pos h
  have hlog : n.log2 < 1024 := by
    by_cases hn : n = 0
    · rw [hn]
      decide
    · have hlt : n.log2 < 53 := (Nat.log2_lt hn).2 h
      omega
  unfold Js.Number.ofInt
  simp only [hround, hlog, if_true, if_neg (Int.not_lt.2 (Int.natCast_nonneg n))]

theorem letter_ne_equals {n : Nat} (h : n < 64) : Base64.letter n ≠ '=' := by
  intro heq
  have hvalue := Base64.value_letter h
  rw [heq, Base64.value_padding] at hvalue
  cases hvalue

/-- The text of a buffer is letters and padding. -/
theorem toList_toBase64 (buffer : Buffer) :
    (toBase64 buffer).toList =
      (Base64.sextets buffer).map Base64.letter ++ List.replicate ((3 - buffer.length % 3) % 3) '=' :=
  String.toList_ofList

theorem equals_notMem_letters (buffer : Buffer) : '=' ∉ (Base64.sextets buffer).map Base64.letter := by
  intro hmem
  obtain ⟨n, hn, heq⟩ := List.mem_map.1 hmem
  exact letter_ne_equals (Base64.sextets_lt buffer n hn) heq

/-- Three bytes need no padding. -/
theorem equals_notMem_toBase64 {buffer : Buffer} (h : 3 ∣ buffer.length) : '=' ∉ (toBase64 buffer).toList := by
  rw [toList_toBase64, Nat.mod_eq_zero_of_dvd h]
  simpa using equals_notMem_letters buffer

theorem ofBase64_toBase64 (buffer : Buffer) : ofBase64 (toBase64 buffer) = buffer := by
  rw [ofBase64, toBase64, String.toList_ofList, Base64.decode_encode]

/-- Padding stands at the end, so what is read before it is the whole value. -/
theorem ofBase64_split (buffer : Buffer) :
    ∃ text, (split (toBase64 buffer) '=').head? = some text ∧ ofBase64 text = buffer := by
  have hletters : ofBase64 (String.ofList ((Base64.sextets buffer).map Base64.letter)) = buffer := by
    rw [ofBase64, Base64.decode, String.toList_ofList, Base64.filterMap_value_letter _ (Base64.sextets_lt buffer),
      Base64.bytes_sextets]
  refine ⟨String.ofList ((Base64.sextets buffer).map Base64.letter), ?_, hletters⟩
  cases hpadding : (3 - buffer.length % 3) % 3 with
  | zero =>
    have htext : toBase64 buffer = String.ofList ((Base64.sextets buffer).map Base64.letter) := by
      rw [← String.toList_inj, toList_toBase64, hpadding]
      simp
    have hnone : '=' ∉ (toBase64 buffer).toList := by
      rw [htext, String.toList_ofList]
      exact equals_notMem_letters buffer
    rw [split_of_notMem hnone, List.head?_cons, htext]
  | succ k =>
    have htext : toBase64 buffer = String.ofList ((Base64.sextets buffer).map Base64.letter) ++ "=" ++
        String.ofList (List.replicate k '=') := by
      have hsign : "=".toList = ['='] := rfl
      rw [← String.toList_inj, toList_toBase64, hpadding]
      simp [List.replicate_succ, hsign]
    have hnone : '=' ∉ (String.ofList ((Base64.sextets buffer).map Base64.letter)).toList := by
      rw [String.toList_ofList]
      exact equals_notMem_letters buffer
    rw [htext, split_pair hnone, List.head?_cons]

/-- The server takes the client's signature off the proof again. -/
theorem xor_xor {a b : Buffer} (h : a.length = b.length) : ofBase64 (xor (ofBase64 (xor a b)) b) = a := by
  unfold xor
  rw [ofBase64_toBase64, ofBase64_toBase64]
  apply List.ext_getElem
  · simp [h]
  · intro i hi hi'
    have hb : i < List.length b := h ▸ hi'
    have hself : a[i] ^^^ b[i] ^^^ b[i] = a[i] := by
      rw [UInt8.xor_assoc, UInt8.xor_self, UInt8.xor_zero]
    simp [h, hb, hself]

/-! ## The two together -/

theorem plain_toBase64 {c : Char} {buffer : Buffer} (h : c ∈ (toBase64 buffer).toList) : c.toNat < 128 ∧ c ≠ ',' := by
  have hall : ∀ n < 64, (Base64.letter n).toNat < 128 ∧ Base64.letter n ≠ ',' := by
    unfold Base64.letter
    rw [Base64.alphabet_eq]
    decide
  rw [toList_toBase64] at h
  rcases List.mem_append.1 h with h | h
  · obtain ⟨n, hn, rfl⟩ := List.mem_map.1 h
    exact hall n (Base64.sextets_lt buffer n hn)
  · rw [List.eq_of_mem_replicate h]
    decide

theorem plain_toDigits {c : Char} {n : Nat} (h : c ∈ Nat.toDigits 10 n) : c.toNat < 128 ∧ c ≠ ',' ∧ c ≠ '=' := by
  have hrange : 48 ≤ c.toNat ∧ c.toNat ≤ 57 := Char.isDigit_iff_toNat.1 (Js.isDigit_of_mem_toDigits h)
  refine ⟨by omega, ?_, ?_⟩
  · rintro rfl
    simp at hrange
  · rintro rfl
    simp at hrange

theorem ascii_of_all {c : Char} {text : String} (hc : c ∈ text.toList)
    (h : text.toList.all (fun c => decide (c.toNat < 128)) = true) : c.toNat < 128 :=
  of_decide_eq_true (List.all_eq_true.1 h c hc)

theorem clientFirstMessageBare_eq (username : String) (nonce : Buffer) :
    clientFirstMessageBare username nonce = ",".intercalate ["n=" ++ username, "r=" ++ toBase64 nonce] := by
  have hkey : ",r=" = "," ++ "r=" := by decide
  rw [String.intercalate_cons_cons, String.intercalate_singleton, clientFirstMessageBare, hkey]
  simp only [String.append_assoc]

/-- The functions of `crypto`, as they are documented: a MAC has the length of the hash. -/
structure Crypto.Sound (crypto : Crypto) : Prop where
  pbkdf2 : Documented crypto.pbkdf2Sync
  hmac : ∀ cryptoMethod key text, ∃ mac, crypto.createHmac cryptoMethod key text = .ok mac ∧
    mac.length = hiLengthMap cryptoMethod

/-- The server's part of the nonce is ASCII without the signs that end a value. -/
def PlainNonce (nonce : String) : Prop := ∀ c ∈ nonce.toList, c.toNat < 128 ∧ c ≠ ',' ∧ c ≠ '='

theorem plainNonce_of_all {nonce : String}
    (h : nonce.toList.all (fun c => decide (c.toNat < 128) && decide (c ≠ ',') && decide (c ≠ '=')) = true) :
    PlainNonce nonce := by
  intro c hc
  have hplain := List.all_eq_true.1 h c hc
  simp only [Bool.and_eq_true, decide_eq_true_eq] at hplain
  exact ⟨hplain.1.1, hplain.1.2, hplain.2⟩

section

variable {crypto : Crypto} {server : ScramServer} {cryptoMethod : CryptoMethod} {credentials : MongoCredentials}
  {nonce : Buffer} {account : Account} {cache : HiCache}

/-- The whole nonce of a conversation. -/
def ScramServer.rnonce (server : ScramServer) (nonce : Buffer) : String := toBase64 nonce ++ server.nonce

/-- The server's first message. -/
def ScramServer.firstText (server : ScramServer) (nonce : Buffer) (account : Account) : String :=
  payloadText [("r", server.rnonce nonce), ("s", toBase64 account.salt),
    ("i", String.ofList (Nat.toDigits 10 account.iterations))]

theorem first_eq (hmethod : server.cryptoMethod = cryptoMethod) (hname : OneOfEach credentials.username)
    (haccount : server.accounts credentials.username = some account) :
    server.first (makeFirstMessage cryptoMethod credentials nonce) =
      (.proof account (clientFirstMessageBare (cleanUsername credentials.username) nonce)
          (server.firstText nonce account) (server.rnonce nonce),
        { payload := .binary (utf8 (server.firstText nonce account)), conversationId := some 1, done := some false }) := by
  subst hmethod
  have hclean : (cleanUsername credentials.username).toList = escape credentials.username.toList :=
    cleanUsername_eq_escape hname
  have hbehind : ∀ key value : String, (key ++ value).toList.drop key.length = value.toList := by
    intro key value
    rw [String.toList_append]
    exact List.drop_left' rfl
  have hdrop : ∀ key value : String, String.ofList ((key ++ value).toList.drop key.length) = value :=
    fun key value => (congrArg String.ofList (hbehind key value)).trans String.ofList_toList
  have hparts : split (clientFirstMessageBare (cleanUsername credentials.username) nonce) ',' =
      ["n=" ++ cleanUsername credentials.username, "r=" ++ toBase64 nonce] := by
    rw [clientFirstMessageBare_eq]
    refine split_intercalate ?_ (List.cons_ne_nil _ _)
    intro text htext hcomma
    rcases List.mem_pair.1 htext with rfl | rfl
    · rw [String.toList_append, hclean] at hcomma
      exact (List.mem_append.1 hcomma).elim (by decide) (escaped_escape _).1
    · rw [String.toList_append] at hcomma
      exact (List.mem_append.1 hcomma).elim (by decide) fun h => (plain_toBase64 h).2 rfl
  have huser : String.ofList (unescape (("n=" ++ cleanUsername credentials.username).toList.drop "n=".length)) =
      credentials.username := by
    rw [hbehind, hclean, unescape_escape, String.ofList_toList]
  unfold ScramServer.first makeFirstMessage
  simp only [utf8Text_utf8, ne_eq, not_true_eq_false, if_false, hdrop "n,,", hparts, huser, haccount, hdrop]
  rfl

/-- What the client reads in the server's first message. -/
theorem firstText_read (hplain : PlainNonce server.nonce) (hlength : 3 ∣ nonce.length)
    (hiterations : account.iterations < 2 ^ 53) :
    binaryValue (utf8 (server.firstText nonce account)) = server.firstText nonce account ∧
      (parsePayload (server.firstText nonce account)).property "r" = some (server.rnonce nonce) ∧
      (∃ salt, (parsePayload (server.firstText nonce account)).property "s" = some salt ∧
        ofBase64 salt = account.salt) ∧
      (parsePayload (server.firstText nonce account)).iterations = .int account.iterations := by
  have hrnonce : ∀ c ∈ (server.rnonce nonce).toList, c.toNat < 128 ∧ c ≠ ',' ∧ c ≠ '=' := by
    intro c hc
    rw [ScramServer.rnonce, String.toList_append] at hc
    rcases List.mem_append.1 hc with hc | hc
    · refine ⟨(plain_toBase64 hc).1, (plain_toBase64 hc).2, ?_⟩
      rintro rfl
      exact equals_notMem_toBase64 hlength hc
    · exact hplain c hc
  have hvalues : ∀ p ∈ [("r", server.rnonce nonce), ("s", toBase64 account.salt),
      ("i", String.ofList (Nat.toDigits 10 account.iterations))], ∀ c ∈ p.2.toList, c.toNat < 128 ∧ c ≠ ',' := by
    intro p hp c hc
    simp only [List.mem_cons, List.not_mem_nil, or_false] at hp
    rcases hp with rfl | rfl | rfl
    · exact ⟨(hrnonce c hc).1, (hrnonce c hc).2.1⟩
    · exact plain_toBase64 hc
    · rw [String.toList_ofList] at hc
      exact ⟨(plain_toDigits hc).1, (plain_toDigits hc).2.1⟩
  have hnames : ([("r", server.rnonce nonce), ("s", toBase64 account.salt),
      ("i", String.ofList (Nat.toDigits 10 account.iterations))].map Prod.fst).Nodup := by
    show ["r", "s", "i"].Nodup
    decide
  have hkeys : ∀ name ∈ ["r", "s", "i"], PlainName name := by
    unfold PlainName
    decide
  have hread := property_of_plain hnames (fun p hp hcomma => (hvalues p hp _ hcomma).2 rfl) fun p hp =>
    hkeys p.1 (List.mem_map_of_mem (f := Prod.fst) hp)
  refine ⟨binaryValue_utf8 ?_, ?_, ?_, ?_⟩
  · intro c hc
    simp only [ScramServer.firstText, payloadText, List.map_cons, List.map_nil, String.intercalate_cons_cons,
      String.intercalate_singleton, String.toList_append, List.mem_append, or_assoc] at hc
    rcases hc with h | h | h | h | h | h | h | h | h | h | h
    · exact ascii_of_all h rfl
    · exact ascii_of_all h rfl
    · exact (hrnonce c h).1
    · exact ascii_of_all h rfl
    · exact ascii_of_all h rfl
    · exact ascii_of_all h rfl
    · exact (plain_toBase64 h).1
    · exact ascii_of_all h rfl
    · exact ascii_of_all h rfl
    · exact ascii_of_all h rfl
    · rw [String.toList_ofList] at h
      exact (plain_toDigits h).1
  · refine (hread ("r", server.rnonce nonce) (by simp)).trans ?_
    rw [split_of_notMem fun h => (hrnonce _ h).2.2 rfl, List.head?_cons]
  · obtain ⟨salt, hsalt, hback⟩ := ofBase64_split account.salt
    exact ⟨salt, (hread ("s", toBase64 account.salt) (by simp)).trans hsalt, hback⟩
  · have hdigits : '=' ∉ (String.ofList (Nat.toDigits 10 account.iterations)).toList := by
      rw [String.toList_ofList]
      exact fun h => (plain_toDigits h).2.2 rfl
    have hi := hread ("i", String.ofList (Nat.toDigits 10 account.iterations)) (by simp)
    rw [split_of_notMem hdigits, List.head?_cons] at hi
    rw [PayloadDict.iterations]
    show Js.parseInt (((parsePayload (server.firstText nonce account)).property "i").getD "undefined").toList = _
    rw [show (parsePayload (server.firstText nonce account)).property "i" = _ from hi, Option.getD_some,
      String.toList_ofList, parseInt_toDigits hiterations]

theorem drop_lead (lead text : String) : String.ofList ((lead ++ text).toList.drop lead.length) = text := by
  rw [String.toList_append]
  exact (congrArg String.ofList (List.drop_left' rfl)).trans String.ofList_toList

/-- A MAC has the length of the hash. -/
theorem Crypto.Sound.length (hsound : crypto.Sound) {key mac : Buffer} {text : String}
    (h : HMAC crypto cryptoMethod key text = .ok mac) : mac.length = hiLengthMap cryptoMethod := by
  obtain ⟨mac', hmac', hlength⟩ := hsound.hmac cryptoMethod key (utf8 text)
  cases h.symm.trans hmac'
  exact hlength

/-- The server verifies the proof of the account's password and signs. -/
theorem final_eq (hsound : crypto.Sound) {password : String} {saltedPassword clientKey clientSignature signature : Buffer}
    {bare first rnonce : String} (hof : account.Of crypto server.cryptoMethod password saltedPassword clientKey)
    (hclient : HMAC crypto server.cryptoMethod account.storedKey (",".intercalate [bare, first, "c=biws,r=" ++ rnonce]) =
      .ok clientSignature)
    (hserver : HMAC crypto server.cryptoMethod account.serverKey (",".intercalate [bare, first, "c=biws,r=" ++ rnonce]) =
      .ok signature) :
    server.final crypto account bare first rnonce
        (utf8 (",".intercalate ["c=biws,r=" ++ rnonce, "p=" ++ xor clientKey clientSignature])) =
      (if server.takesEmpty then .empty else .accepted,
        { payload := .binary (utf8 (payloadText [("v", toBase64 signature)])), conversationId := some 1,
          done := some !server.takesEmpty }) := by
  have htext : ",".intercalate ["c=biws,r=" ++ rnonce, "p=" ++ xor clientKey clientSignature] =
      ("c=biws,r=" ++ rnonce ++ ",p=") ++ xor clientKey clientSignature := by
    have hkey : ",p=" = "," ++ "p=" := by decide
    rw [hkey, String.intercalate_cons_cons, String.intercalate_singleton]
    simp only [String.append_assoc]
  have hlead : ("c=biws,r=" ++ rnonce ++ ",p=").toList <+:
      ("c=biws,r=" ++ rnonce ++ ",p=" ++ xor clientKey clientSignature).toList := by
    have happend : ("c=biws,r=" ++ rnonce ++ ",p=" ++ xor clientKey clientSignature).toList =
        ("c=biws,r=" ++ rnonce ++ ",p=").toList ++ (xor clientKey clientSignature).toList := String.toList_append
    rw [happend]
    exact List.prefix_append _ _
  have hproof : ofBase64 (xor (ofBase64 (xor clientKey clientSignature)) clientSignature) = clientKey :=
    xor_xor ((hsound.length hof.client).trans (hsound.length hclient).symm)
  have hverify : server.verify crypto account (",".intercalate [bare, first, "c=biws,r=" ++ rnonce])
      (xor clientKey clientSignature) = .ok (some signature) := by
    unfold ScramServer.verify
    simp only [hclient, hproof, hof.stored, hserver, bind, Except.bind, pure, Except.pure, ne_eq, not_true_eq_false,
      if_false]
  unfold ScramServer.final
  simp only [utf8Text_utf8, htext, hlead, if_true, drop_lead, hverify]

/-- The client accepts the signature. -/
theorem finish_eq (command : SaslContinue) (conversationId : Option Int) (done : Bool) :
    finishScramConversation command none
        { payload := .binary (utf8 (payloadText [("v", toBase64 command.serverSignature)])), conversationId,
          done := some done } =
      if done then .authenticated else .retried command.db conversationId := by
  obtain ⟨text, htext, hback⟩ := ofBase64_split command.serverSignature
  have hascii : binaryValue (utf8 (payloadText [("v", toBase64 command.serverSignature)])) =
      payloadText [("v", toBase64 command.serverSignature)] := by
    refine binaryValue_utf8 fun c hc => ?_
    simp only [payloadText, List.map_cons, List.map_nil, String.intercalate_singleton, String.toList_append,
      List.mem_append, or_assoc] at hc
    rcases hc with h | h | h
    · exact ascii_of_all h rfl
    · exact ascii_of_all h rfl
    · exact (plain_toBase64 h).1
  have hv : (parsePayload (payloadText [("v", toBase64 command.serverSignature)])).property "v" = some text := by
    have hname : PlainName "v" := by unfold PlainName; decide
    have hread : ∀ p ∈ [("v", toBase64 command.serverSignature)],
        (parsePayload (payloadText [("v", toBase64 command.serverSignature)])).property p.1 = (split p.2 '=').head? :=
      property_of_plain (List.nodup_singleton _) (fun p hp hcomma => by
        rw [List.mem_singleton.1 hp] at hcomma
        exact (plain_toBase64 hcomma).2 rfl)
      (fun p hp => by
        rw [List.mem_singleton.1 hp]
        exact hname)
    exact (hread _ (List.mem_singleton_self _)).trans htext
  unfold finishScramConversation
  simp only [resolveError, Option.map_none, hascii, hv, hback]
  cases done with
  | true => simp
  | false => simp

theorem clientFinal_eq {password username payload rnonce : String}
    {saltedPassword clientKey clientSignature signature : Buffer}
    (hof : account.Of crypto cryptoMethod password saltedPassword clientKey)
    (hclient : HMAC crypto cryptoMethod account.storedKey
      (",".intercalate [clientFirstMessageBare username nonce, payload, "c=biws,r=" ++ rnonce]) = .ok clientSignature)
    (hserver : HMAC crypto cryptoMethod account.serverKey
      (",".intercalate [clientFirstMessageBare username nonce, payload, "c=biws,r=" ++ rnonce]) = .ok signature) :
    clientFinal crypto cryptoMethod saltedPassword username nonce payload rnonce =
      .ok (",".intercalate ["c=biws,r=" ++ rnonce, "p=" ++ xor clientKey clientSignature], signature) := by
  unfold clientFinal
  simp only [hof.client, hof.server, hof.stored, hclient, hserver, bind, Except.bind, pure, Except.pure]

/-- An honest server's first message is answered with the proof. -/
theorem continueScramConversation_eq {password : String}
    {saltedPassword clientKey clientSignature signature : Buffer}
    (hpassword : processPassword crypto cryptoMethod (cleanUsername credentials.username) credentials.password =
      .ok password)
    (hplain : PlainNonce server.nonce) (hlength : 3 ∣ nonce.length)
    (hword : ¬ "nonce".toList <+: (server.rnonce nonce).toList)
    (hmin : 4096 ≤ account.iterations) (hmax : account.iterations < 2 ^ 53)
    (hof : account.Of crypto cryptoMethod password saltedPassword clientKey)
    (hsalted : (HI crypto.pbkdf2Sync cache password account.salt (.int account.iterations) cryptoMethod).1 =
      .ok saltedPassword)
    (hclient : HMAC crypto cryptoMethod account.storedKey (",".intercalate
      [clientFirstMessageBare (cleanUsername credentials.username) nonce, server.firstText nonce account,
        "c=biws,r=" ++ server.rnonce nonce]) = .ok clientSignature)
    (hserver : HMAC crypto cryptoMethod account.serverKey (",".intercalate
      [clientFirstMessageBare (cleanUsername credentials.username) nonce, server.firstText nonce account,
        "c=biws,r=" ++ server.rnonce nonce]) = .ok signature) (conversationId : Option Int) (done : Option Bool) :
    (continueScramConversation crypto cache cryptoMethod
        { payload := .binary (utf8 (server.firstText nonce account)), conversationId, done }
        { credentials := some credentials, nonce := some nonce }).1 =
      .sent
        { db := credentials.source, conversationId
          payload := utf8 (",".intercalate ["c=biws,r=" ++ server.rnonce nonce, "p=" ++ xor clientKey clientSignature])
          serverSignature := signature } := by
  obtain ⟨htext, hr, ⟨salt, hs, hback⟩, hi⟩ := firstText_read hplain hlength hmax
  have hcount : ¬ ((Js.Number.int account.iterations).truthy = true ∧
      (Js.Number.int account.iterations).lt 4096 = true) := by
    rintro ⟨-, hlt⟩
    have : (account.iterations : Int) < 4096 := by simpa [Js.Number.lt] using hlt
    omega
  unfold continueScramConversation
  simp only [hpassword, ResponsePayload.toBinary, htext, hi, hr, hs, hback]
  rw [if_neg hcount, if_neg hword]
  cases hkeys : HI crypto.pbkdf2Sync cache password account.salt (.int account.iterations) cryptoMethod with
  | mk result cache' =>
    rw [hkeys] at hsalted
    obtain rfl : result = .ok saltedPassword := hsalted
    simp only [bind, Except.bind, clientFinal_eq hof hclient hserver]

/-- The escaped name is the name, so that the password is hashed with it. -/
theorem processPassword_clean {username password : String}
    (hraw : cryptoMethod = .sha1 → cleanUsername username = username) :
    processPassword crypto cryptoMethod (cleanUsername username) password =
      processPassword crypto cryptoMethod username password := by
  cases cryptoMethod with
  | sha1 => rw [hraw rfl]
  | sha256 => rfl

/-! ### The stages of a conversation -/

/-- The client has sent a proof that the server is going to accept with the signature the client expects. -/
structure Proving (crypto : Crypto) (server : ScramServer) (c : Conversation) : Prop where
  callbacks : c.client.callbacks = []
  thrown : c.client.thrown = []
  accepted : ∃ command account bare first rnonce, c.client.stage = .proving command ∧
    c.client.sent.getLast? = some (.saslContinue command) ∧ c.stage = .proof account bare first rnonce ∧
    server.final crypto account bare first rnonce command.payload =
      (if server.takesEmpty then .empty else .accepted,
        { payload := .binary (utf8 (payloadText [("v", toBase64 command.serverSignature)])), conversationId := some 1,
          done := some !server.takesEmpty })

/-- Both sides are done, and well. -/
structure Agreed (c : Conversation) : Prop where
  client : c.client.stage = .done
  callbacks : c.client.callbacks = [none]
  thrown : c.client.thrown = []
  server : c.stage = .accepted

/-- The server waits for an empty message, which the client has sent. -/
structure Retrying (c : Conversation) : Prop where
  client : c.client.stage = .retrying
  callbacks : c.client.callbacks = []
  thrown : c.client.thrown = []
  sent : ∃ db conversationId, c.client.sent.getLast? = some (.retry db conversationId)
  server : c.stage = .empty

variable {c : Conversation}

theorem Agreed.exchange (h : Agreed c) : Agreed (c.exchange crypto server) := by
  have hsame : c.exchange crypto server = c := by
    unfold Conversation.exchange
    rw [h.client]
  rw [hsame]
  exact h

theorem Retrying.exchange (h : Retrying c) : Agreed (c.exchange crypto server) := by
  obtain ⟨db, conversationId, hsent⟩ := h.sent
  have hnext : c.exchange crypto server = { client := c.client.call none, stage := .accepted } := by
    unfold Conversation.exchange
    simp only [h.client, hsent, h.server, ScramServer.reply, ScramClient.receive]
  rw [hnext]
  exact ⟨rfl, by rw [ScramClient.call, h.callbacks]; rfl, h.thrown, rfl⟩

theorem Proving.exchange (h : Proving crypto server c) :
    Agreed (c.exchange crypto server) ∨ Retrying (c.exchange crypto server) := by
  obtain ⟨command, account, bare, first, rnonce, hstage, hsent, hserver, hfinal⟩ := h.accepted
  have hfinish := finish_eq command (some 1) (!server.takesEmpty)
  cases htakes : server.takesEmpty with
  | false =>
    left
    have hnext : c.exchange crypto server = { client := c.client.call none, stage := .accepted } := by
      rw [htakes] at hfinal hfinish
      unfold Conversation.exchange
      simp only [hstage, hsent, hserver, ScramServer.reply, hfinal, ScramClient.receive, hfinish]
      rfl
    rw [hnext]
    exact ⟨rfl, by rw [ScramClient.call, h.callbacks]; rfl, h.thrown, rfl⟩
  | true =>
    right
    have hnext : c.exchange crypto server =
        { client := c.client.send (.retry command.db (some 1)) .retrying, stage := .empty } := by
      rw [htakes] at hfinal hfinish
      unfold Conversation.exchange
      simp only [hstage, hsent, hserver, ScramServer.reply, hfinal, ScramClient.receive, hfinish]
      rfl
    rw [hnext]
    exact ⟨rfl, h.callbacks, h.thrown, ⟨_, _, List.getLast?_concat⟩, rfl⟩

/-- From the proof on two exchanges are enough. -/
theorem Proving.agreed (h : Proving crypto server c) :
    Agreed ((c.exchange crypto server).exchange crypto server) :=
  h.exchange.elim Agreed.exchange Retrying.exchange

/-- A client that answers with a proof the server is going to accept. -/
theorem proving_of_sent {client : ScramClient} {r : ScramResponse} {command : SaslContinue} {account : Account}
    {bare first rnonce : String} (hcallbacks : client.callbacks = []) (hthrown : client.thrown = [])
    (hsent : (continueScramConversation crypto client.cache client.cryptoMethod r client.authContext).1 = .sent command)
    (hfinal : server.final crypto account bare first rnonce command.payload =
      (if server.takesEmpty then .empty else .accepted,
        { payload := .binary (utf8 (payloadText [("v", toBase64 command.serverSignature)])), conversationId := some 1,
          done := some !server.takesEmpty })) :
    Proving crypto server
      { client := client.continueConversation crypto r, stage := .proof account bare first rnonce } := by
  have hnext : client.continueConversation crypto r =
      ScramClient.send
        { client with
          cache := (continueScramConversation crypto client.cache client.cryptoMethod r client.authContext).2 }
        (.saslContinue command) (.proving command) := by
    unfold ScramClient.continueConversation
    simp only [hsent]
  rw [hnext]
  exact ⟨hcallbacks, hthrown, command, account, bare, first, rnonce, rfl, List.getLast?_concat, rfl, hfinal⟩

/-- The derivation of the salted password. -/
def Account.salting (account : Account) (cryptoMethod : CryptoMethod) (password : String) : HICall where
  data := password
  salt := account.salt
  iterations := .int account.iterations
  cryptoMethod := cryptoMethod

/-- The cache gives the client the key the account was made with. -/
theorem Account.Of.derived {password : String} {saltedPassword clientKey : Buffer} {stored : List HICall}
    (hof : account.Of crypto cryptoMethod password saltedPassword clientKey) (hdoc : Documented crypto.pbkdf2Sync)
    (hcache : Holds crypto.pbkdf2Sync cache stored)
    (hmethod : ∀ call ∈ stored, call.SameInputs (account.salting cryptoMethod password) →
      call.cryptoMethod = cryptoMethod) :
    (HI crypto.pbkdf2Sync cache password account.salt (.int account.iterations) cryptoMethod).1 = .ok saltedPassword := by
  have huncached := (@HI_eq_uncached_iff _ _ _ (account.salting cryptoMethod password) hdoc hcache).2 hmethod
  rw [show (account.salting cryptoMethod password).uncached crypto.pbkdf2Sync = .ok saltedPassword from hof.salted]
    at huncached
  exact huncached

/-- What an honest conversation rests on: the server has an account made from the user's password, with enough
iterations; the name and the nonces are such that the source neither mangles nor refuses them; and the cache does not
hold the key of the other mechanism for the same inputs. -/
structure Honest (crypto : Crypto) (server : ScramServer) (credentials : MongoCredentials) (nonce : Buffer)
    (stored : List HICall) : Prop where
  sound : crypto.Sound
  name : OneOfEach credentials.username
  raw : server.cryptoMethod = .sha1 → cleanUsername credentials.username = credentials.username
  plain : PlainNonce server.nonce
  length : 3 ∣ nonce.length
  word : ¬ "nonce".toList <+: (server.rnonce nonce).toList
  account : ∃ account password saltedPassword clientKey, server.accounts credentials.username = some account ∧
    processPassword crypto server.cryptoMethod credentials.username credentials.password = .ok password ∧
    account.Of crypto server.cryptoMethod password saltedPassword clientKey ∧ 4096 ≤ account.iterations ∧
    ∀ call ∈ stored, call.SameInputs (account.salting server.cryptoMethod password) →
      call.cryptoMethod = server.cryptoMethod

variable {stored : List HICall}

/-- The server's first message is answered with a proof it accepts. -/
theorem Honest.answered (h : Honest crypto server credentials nonce stored)
    (hcache : Holds crypto.pbkdf2Sync cache stored) :
    ∃ account bare first rnonce,
      server.first (makeFirstMessage server.cryptoMethod credentials nonce) =
        (.proof account bare first rnonce,
          { payload := .binary (utf8 first), conversationId := some 1, done := some false }) ∧
      ∀ client : ScramClient, client.cryptoMethod = server.cryptoMethod →
        client.authContext = { credentials := some credentials, nonce := some nonce } → client.cache = cache →
        client.callbacks = [] → client.thrown = [] →
        Proving crypto server
          { client := client.continueConversation crypto
              { payload := .binary (utf8 first), conversationId := some 1, done := some false }
            stage := .proof account bare first rnonce } := by
  obtain ⟨account, password, saltedPassword, clientKey, haccount, hpassword, hof, hmin, hmethod⟩ := h.account
  obtain ⟨n, hn, hlt⟩ := h.sound.pbkdf2.iterations hof.salted
  have hmax : account.iterations < 2 ^ 53 := by
    have heq : (account.iterations : Int) = n := by simpa using hn
    omega
  have hfirst : server.first (makeFirstMessage server.cryptoMethod credentials nonce) =
      (.proof account (clientFirstMessageBare (cleanUsername credentials.username) nonce)
          (server.firstText nonce account) (server.rnonce nonce),
        { payload := .binary (utf8 (server.firstText nonce account)), conversationId := some 1, done := some false }) :=
    first_eq rfl h.name haccount
  refine ⟨account, clientFirstMessageBare (cleanUsername credentials.username) nonce, server.firstText nonce account,
    server.rnonce nonce, hfirst, ?_⟩
  intro client hclientMethod hcontext hclientCache hcallbacks hthrown
  let authMessage := ",".intercalate [clientFirstMessageBare (cleanUsername credentials.username) nonce,
    server.firstText nonce account, "c=biws,r=" ++ server.rnonce nonce]
  obtain ⟨clientSignature, hclient⟩ :
      ∃ mac, HMAC crypto server.cryptoMethod account.storedKey authMessage = .ok mac :=
    (h.sound.hmac _ _ _).imp fun _ => And.left
  obtain ⟨signature, hserver⟩ : ∃ mac, HMAC crypto server.cryptoMethod account.serverKey authMessage = .ok mac :=
    (h.sound.hmac _ _ _).imp fun _ => And.left
  have hsalted := hof.derived h.sound.pbkdf2 hcache hmethod
  have hsent := continueScramConversation_eq ((processPassword_clean h.raw).trans hpassword) h.plain h.length h.word hmin
    hmax hof hsalted hclient hserver (some 1) (some false)
  have hfinal := final_eq h.sound hof hclient hserver
  rw [← hclientMethod, ← hcontext, ← hclientCache] at hsent
  exact proving_of_sent hcallbacks hthrown hsent hfinal

/-- The server answers the client's first message. -/
theorem exchange_starting {db : String} {first : SaslStart} {stage : ServerStage} {response : ScramResponse}
    (hstage : c.client.stage = .starting) (hsent : c.client.sent.getLast? = some (.saslStart db first))
    (hserver : c.stage = .start) (hfirst : server.first first = (stage, response)) (hok : response.errmsg = none) :
    c.exchange crypto server = { client := c.client.continueConversation crypto response, stage } := by
  unfold Conversation.exchange
  simp only [hstage, hsent, hserver, ScramServer.reply, hfirst, ScramClient.receive, resolveError, hok, Option.map_none]

/-- A client with the user's password and an honest server come to an agreement, whether the handshake carried the
first message or not: after three exchanges the client was called back with success and the server has accepted it. -/
theorem honest_conversation_agrees (h : Honest crypto server credentials nonce stored)
    (hcache : Holds crypto.pbkdf2Sync cache stored) (speculative : Bool) :
    Agreed (Nat.iterate (Conversation.exchange crypto server) 3
      (.start crypto server speculative server.cryptoMethod credentials nonce cache)) := by
  obtain ⟨account, bare, first, rnonce, hfirst, hanswered⟩ := h.answered hcache
  cases speculative with
  | true =>
    have hstart : Conversation.start crypto server true server.cryptoMethod credentials nonce cache =
        { client := ScramClient.continueConversation crypto
            { cryptoMethod := server.cryptoMethod
              authContext := { credentials := some credentials, nonce := some nonce }
              cache }
            { payload := .binary (utf8 first), conversationId := some 1, done := some false }
          stage := .proof account bare first rnonce } := by
      unfold Conversation.start
      simp only [if_true, hfirst, ScramClient.auth]
    rw [hstart]
    exact (hanswered _ rfl rfl rfl rfl rfl).agreed.exchange
  | false =>
    have hnext : Conversation.exchange crypto server
        (.start crypto server false server.cryptoMethod credentials nonce cache) = _ :=
      exchange_starting rfl rfl rfl hfirst rfl
    simp only [Function.iterate_succ, Function.iterate_zero, Function.comp_apply, id, hnext]
    exact (hanswered _ rfl rfl rfl rfl rfl).agreed

end

private theorem exampleCrypto_sound : exampleCrypto.Sound where
  pbkdf2 := by
    constructor
    · intro data salt iterations keylen digest derivedKey h
      simp only [exampleCrypto] at h
      split_ifs at h with hcall
      cases h
      rw [hcall.2.2.2.1]
      rfl
    · intro data salt iterations keylen digest derivedKey h
      simp only [exampleCrypto] at h
      split_ifs at h with hcall
      exact ⟨4096, hcall.2.2.1, by decide⟩
  hmac := by
    intro cryptoMethod key text
    refine ⟨_, rfl, ?_⟩
    cases cryptoMethod with
    | sha1 => rfl
    | sha256 =>
      simp only [reduceCtorEq, if_false, hiLengthMap]
      split_ifs <;> rfl

private def exampleServer (takesEmpty : Bool) : ScramServer where
  cryptoMethod := .sha256
  accounts name := if name = "user" then some
    { salt := [91, 109, 153, 104, 157, 18, 53, 142, 236, 160, 75, 20, 18, 54, 250, 129], iterations := 4096
      storedKey := [88, 110, 93, 242, 131, 230, 220, 235, 92, 62, 121, 29, 139, 133, 40, 236, 25, 30, 102, 64, 69, 206,
        151, 23, 146, 226, 230, 181, 187, 19, 226, 166]
      serverKey := [193, 243, 203, 193, 193, 58, 157, 53, 161, 76, 9, 144, 238, 217, 118, 41, 234, 34, 88, 99, 229, 102,
        164, 49, 74, 185, 159, 63, 0, 229, 217, 213] } else none
  nonce := "%hvYDpWUa2RaTCAfuxFIlj)hNlF$k0"
  takesEmpty := takesEmpty

private theorem exampleServer_honest (takesEmpty : Bool) :
    Honest exampleCrypto (exampleServer takesEmpty) exampleCredentials exampleNonce [] where
  sound := exampleCrypto_sound
  name := ⟨by decide, by decide⟩
  raw := fun h => by cases h
  plain := by
    show PlainNonce "%hvYDpWUa2RaTCAfuxFIlj)hNlF$k0"
    exact plainNonce_of_all rfl
  length := by decide
  word := by
    show ¬ "nonce".toList <+: (toBase64 exampleNonce ++ "%hvYDpWUa2RaTCAfuxFIlj)hNlF$k0").toList
    decide
  account := ⟨_, "pencil", _, _, rfl, rfl, ⟨rfl, rfl, rfl, rfl⟩, by decide, fun _ hmem => by cases hmem⟩

/-- A server that has the keys of the password: one that wants an empty message at the end, and one that does
not and had the first message in the handshake. -/
theorem pencil_conversation_agrees :
    Agreed (Nat.iterate (Conversation.exchange exampleCrypto (exampleServer true)) 3
      (.start exampleCrypto (exampleServer true) false .sha256 exampleCredentials exampleNonce hiCachePurge)) ∧
    Agreed (Nat.iterate (Conversation.exchange exampleCrypto (exampleServer false)) 3
      (.start exampleCrypto (exampleServer false) true .sha256 exampleCredentials exampleNonce hiCachePurge)) :=
  ⟨honest_conversation_agrees (exampleServer_honest true) holds_purged false,
    honest_conversation_agrees (exampleServer_honest false) holds_purged true⟩

end MongoDriver.Auth
