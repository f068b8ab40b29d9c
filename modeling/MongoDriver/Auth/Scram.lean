/-
The SCRAM conversation (`src/cmap/auth/scram.ts`): the client's first message, the answer to the server's first
message, which carries the client's proof, and the check of the server's signature. The functions of `crypto` and
the optional module `saslprep` are parameters.
-/
import MongoDriver.Auth.HiCache
import Mathlib.Data.List.Basic

namespace MongoDriver.Auth

open Cmap (Buffer)

/-! ## Texts -/

/-- `Buffer.from(text, 'utf8')`. -/
def utf8 (text : String) : Buffer := text.toUTF8.data.toList

/-- `binary.value()`: one character for each byte. -/
def binaryValue (buffer : Buffer) : String := String.ofList (buffer.map fun b => Char.ofNat b.toNat)

/-- `Buffer.from(text, 'base64')`. -/
def ofBase64 (text : String) : Buffer := Base64.decode text.toList

/-- `buffer.toString('hex')`. -/
def toHex (buffer : Buffer) : String :=
  String.ofList (buffer.flatMap fun b => [(b.toNat / 16).digitChar, (b.toNat % 16).digitChar])

/-- `text.split(separator)`. -/
def split (text : String) (separator : Char) : List String := (text.toList.splitOn separator).map String.ofList

/-- `text.replace(c, replacement)` for a string `c`: the first occurrence only. -/
def replaceFirst (c : Char) (replacement : List Char) : List Char → List Char
  | [] => []
  | d :: rest => if d = c then replacement ++ rest else d :: replaceFirst c replacement rest

/-! ## The client's first message -/

def cleanUsername (username : String) : String :=
  String.ofList (replaceFirst ',' "=2C".toList (replaceFirst '=' "=3D".toList username.toList))

/-- The text of which the source concatenates the bytes. -/
def clientFirstMessageBare (username : String) (nonce : Buffer) : String :=
  "n=" ++ username ++ ",r=" ++ toBase64 nonce

structure MongoCredentials where
  username : String
  password : String
  source : String

/-- The command `saslStart`; `autoAuthorize` and `options` are constant. -/
structure SaslStart where
  mechanism : String
  payload : Buffer
deriving DecidableEq

def makeFirstMessage (cryptoMethod : CryptoMethod) (credentials : MongoCredentials) (nonce : Buffer) : SaslStart :=
  let username := cleanUsername credentials.username
  { mechanism := if cryptoMethod = .sha1 then "SCRAM-SHA-1" else "SCRAM-SHA-256"
    payload := utf8 ("n,," ++ clientFirstMessageBare username nonce) }

/-! ## Hashes -/

inductive HashMethod
  | md5
  | method (cryptoMethod : CryptoMethod)
deriving DecidableEq

/-- What the module takes from elsewhere: `createHash(method).update(data).digest()`,
`createHmac(method, key).update(data).digest()`, `pbkdf2Sync`, and `saslprep` where it is installed. -/
structure Crypto where
  createHash : HashMethod → Buffer → Except AnyError Buffer
  createHmac : CryptoMethod → Buffer → Buffer → Except AnyError Buffer
  pbkdf2Sync : Pbkdf2Sync
  saslprep : Option (String → Except AnyError String)

variable (crypto : Crypto)

def passwordDigest (username password : String) : Except AnyError String := do
  if password.length = 0 then
    throw { cls := .mongoInvalidArgumentError, message := "Password cannot be empty" }
  let digest ← crypto.createHash .md5 (utf8 (username ++ ":mongo:" ++ password))
  return toHex digest

/-- XOR of two buffers; an index past the end of one counts as zero. -/
def xor (a b : Buffer) : String :=
  toBase64 ((List.range (max a.length b.length)).map fun i => a.getD i 0 ^^^ b.getD i 0)

def H (method : CryptoMethod) (text : Buffer) : Except AnyError Buffer := crypto.createHash (.method method) text

def HMAC (method : CryptoMethod) (key : Buffer) (text : String) : Except AnyError Buffer :=
  crypto.createHmac method key (utf8 text)

/-! ## Payloads -/

/-- The object `parsePayload` builds. A part without `=` sets its property to `undefined`. -/
abbrev PayloadDict := OrderedMap String (Option String)

/-- `dict[key]`. -/
def PayloadDict.property (dict : PayloadDict) (key : String) : Option String := (dict.get? key).join

def parsePayload (payload : String) : PayloadDict :=
  (split payload ',').foldl (fun dict part =>
    let valueParts := split part '='
    let name := valueParts.headD ""
    -- the prototype of an object is never set to a text
    if name = "__proto__" then dict else dict.set name valueParts[1]?) .empty

/-- `parseInt(dict.i, 10)`; a missing property is read as the text `undefined`. -/
def PayloadDict.iterations (dict : PayloadDict) : Js.Number := Js.parseInt ((dict.property "i").getD "undefined").toList

/-! ## The server's first message -/

/-- `payload` of a response: a `Buffer`, a `Binary`, or something that has no `value()` and is neither. -/
inductive ResponsePayload
  | buffer (bytes : Buffer)
  | binary (bytes : Buffer)
  | other

/-- The bytes of `payload` or, for a `Buffer`, of `new Binary(payload)`. -/
def ResponsePayload.toBinary : ResponsePayload → Option Buffer
  | .buffer bytes => some bytes
  | .binary bytes => some bytes
  | .other => none

/-- A server's response to `saslStart` (or to the speculative authentication) or to `saslContinue`. -/
structure ScramResponse where
  payload : ResponsePayload
  conversationId : Option Int := none
  done : Option Bool := none
  /-- `$err` or `errmsg`: the response is the server's error -/
  errmsg : Option String := none

structure AuthContext where
  credentials : Option MongoCredentials
  nonce : Option Buffer

/-- The command `saslContinue` with the client's proof, the database it is sent to, and the signature that the
server's answer is compared with. -/
structure SaslContinue where
  db : String
  conversationId : Option Int
  payload : Buffer
  serverSignature : Buffer
deriving DecidableEq

/-- How the answer to the server's first message ends: the proof is sent, the callback gets an error, or an
exception leaves the function. -/
inductive Outcome
  | sent (command : SaslContinue)
  | failed (error : AnyError)
  | thrown (error : AnyError)
deriving DecidableEq

/-- The password as it enters the key derivation. -/
def processPassword (cryptoMethod : CryptoMethod) (username password : String) : Except Outcome String :=
  match cryptoMethod with
  | .sha256 =>
    match crypto.saslprep with
    | none => .ok password
    | some saslprep => (saslprep password).mapError .thrown
  | .sha1 => (passwordDigest crypto username password).mapError .failed

/-- The client's final message with its proof, and the server's signature. -/
def clientFinal (cryptoMethod : CryptoMethod) (saltedPassword : Buffer) (username : String) (nonce : Buffer)
    (payload rnonce : String) : Except AnyError (String × Buffer) := do
  let withoutProof := "c=biws,r=" ++ rnonce
  let clientKey ← HMAC crypto cryptoMethod saltedPassword "Client Key"
  let serverKey ← HMAC crypto cryptoMethod saltedPassword "Server Key"
  let storedKey ← H crypto cryptoMethod clientKey
  let authMessage := ",".intercalate [clientFirstMessageBare username nonce, payload, withoutProof]
  let clientSignature ← HMAC crypto cryptoMethod storedKey authMessage
  let clientProof := "p=" ++ xor clientKey clientSignature
  let serverSignature ← HMAC crypto cryptoMethod serverKey authMessage
  return (",".intercalate [withoutProof, clientProof], serverSignature)

/-- The `TypeError` of a property or a conversion of `undefined`. -/
def undefinedError (message : String) : AnyError := { cls := .typeError, message }

def continueScramConversation (cache : HiCache) (cryptoMethod : CryptoMethod) (response : ScramResponse)
    (authContext : AuthContext) : Outcome × HiCache :=
  match authContext.credentials, authContext.nonce with
  | none, _ =>
    (.failed { cls := .mongoAPIError, message := "AuthContext must provide credentials." }, cache)
  | some _, none =>
    (.failed { cls := .mongoInvalidArgumentError, message := "Unable to continue SCRAM without valid nonce" }, cache)
  | some credentials, some nonce =>
    let username := cleanUsername credentials.username
    match processPassword crypto cryptoMethod username credentials.password, response.payload.toBinary with
    | .error outcome, _ => (outcome, cache)
    | .ok _, none => (.thrown (undefinedError "payload.value is not a function"), cache)
    | .ok processedPassword, some buffer =>
      let payload := binaryValue buffer
      let dict := parsePayload payload
      let iterations := dict.iterations
      if iterations.truthy ∧ iterations.lt 4096 then
        (.failed { cls := .mongoRuntimeError, message :=
          "Server returned an invalid iteration count " ++ String.ofList iterations.text }, cache)
      else
        match dict.property "r" with
        | none => (.thrown (undefinedError "Cannot read properties of undefined (reading 'startsWith')"), cache)
        | some rnonce =>
          if "nonce".toList <+: rnonce.toList then
            (.failed { cls := .mongoRuntimeError, message := "Server returned an invalid nonce: " ++ rnonce }, cache)
          else
            match dict.property "s" with
            | none => (.thrown (undefinedError "The first argument must be of type string"), cache)
            | some salt =>
              let (saltedPassword, cache) :=
                HI crypto.pbkdf2Sync cache processedPassword (ofBase64 salt) iterations cryptoMethod
              let final := do clientFinal crypto cryptoMethod (← saltedPassword) username nonce payload rnonce
              match final with
              | .error e => (.thrown e, cache)
              | .ok (text, serverSignature) =>
                (.sent { db := credentials.source, conversationId := response.conversationId, payload := utf8 text,
                         serverSignature }, cache)

/-! ## The server's final message -/

def resolveError (err : Option AnyError) (result : ScramResponse) : Option AnyError :=
  match err with
  | some e => some e
  | none => result.errmsg.map fun message => { cls := .mongoServerError, message }

/-- How the conversation ends: the callback gets the server's response, an empty message is sent, the callback gets
an error, or an exception leaves the function. -/
inductive FinalOutcome
  | authenticated
  | retried (db : String) (conversationId : Option Int)
  | failed (error : AnyError)
  | thrown (error : AnyError)
deriving DecidableEq

/-- What `continueScramConversation` does with the answer to its command. -/
def finishScramConversation (command : SaslContinue) (err : Option AnyError) (r : ScramResponse) : FinalOutcome :=
  match resolveError err r, r.payload with
  | some e, _ => .failed e
  | none, .binary buffer =>
    match (parsePayload (binaryValue buffer)).property "v" with
    | none => .thrown (undefinedError "The first argument must be of type string")
    | some v =>
      if ofBase64 v ≠ command.serverSignature then
        .failed { cls := .mongoRuntimeError, message := "Server returned an invalid signature" }
      else if r.done ≠ some false then .authenticated
      else .retried command.db r.conversationId
  -- a `Buffer` is not wrapped here
  | none, _ => .thrown (undefinedError "r.payload.value is not a function")

/-- The server's signature covers the client's nonce, the server's first message and its echo: a conversation goes
on only if the server knows the key. -/
theorem signature_of_finish {command : SaslContinue} {err : Option AnyError} {r : ScramResponse}
    (h : finishScramConversation command err r = .authenticated ∨
      ∃ db id, finishScramConversation command err r = .retried db id) :
    ∃ buffer v, r.payload = .binary buffer ∧ (parsePayload (binaryValue buffer)).property "v" = some v ∧
      ofBase64 v = command.serverSignature := by
  have hnever : ∀ {o : FinalOutcome}, (o = .authenticated ∨ ∃ db id, o = .retried db id) →
      (∀ e, o ≠ .failed e) ∧ ∀ e, o ≠ .thrown e := by
    rintro o (rfl | ⟨db, id, rfl⟩)
    · exact ⟨fun e he => (by cases he), fun e he => (by cases he)⟩
    · exact ⟨fun e he => (by cases he), fun e he => (by cases he)⟩
  obtain ⟨hfailed, hthrown⟩ := hnever h
  clear h hnever
  unfold finishScramConversation at hfailed hthrown
  cases herr : resolveError err r with
  | some e =>
    rw [herr] at hfailed
    exact absurd rfl (hfailed e)
  | none =>
    rw [herr] at hfailed hthrown
    cases hpayload : r.payload with
    | buffer bytes =>
      rw [hpayload] at hthrown
      exact absurd rfl (hthrown _)
    | other =>
      rw [hpayload] at hthrown
      exact absurd rfl (hthrown _)
    | binary buffer =>
      simp only [hpayload] at hfailed hthrown
      cases hv : (parsePayload (binaryValue buffer)).property "v" with
      | none =>
        rw [hv] at hthrown
        exact absurd rfl (hthrown _)
      | some v =>
        simp only [hv] at hfailed
        by_cases heq : ofBase64 v = command.serverSignature
        · exact ⟨buffer, v, rfl, hv, heq⟩
        · rw [if_pos heq] at hfailed
          exact absurd rfl (hfailed _)

/-! ## When the proof leaves the client -/

/-- The name of a part of a message: what stands before its first equals sign. -/
def partName (part : String) : String := String.ofList (part.toList.takeWhile (· ≠ '='))

/-- The value of a part: all that stands behind its first equals sign. -/
def partValue (part : String) : Option String :=
  match part.toList.dropWhile (· ≠ '=') with
  | [] => none
  | _ :: value => some (String.ofList value)

/-- The value a message has for an attribute, complete; of several parts with one name the last one counts. -/
def attributeValue (message name : String) : Option String :=
  ((split message ',').reverse.find? fun part => partName part = name).bind partValue

/-- The number that a text of decimal digits, and of nothing else, stands for. -/
def decimal (text : String) : Option Nat :=
  if text ≠ "" ∧ text.toList.all Char.isDigit then some (Nat.ofDigitChars 10 text.toList 0) else none

example : attributeValue "r=c+4=,s=c2FsdA==,i=4096" "s" = some "c2FsdA==" ∧ decimal "4096" = some 4096 ∧
    decimal "4096.5" = none ∧ decimal "4096abc" = none := by decide

/-- The combined nonce begins with the client's, and the iteration count is an integer of at least 4096. -/
structure Acceptable (nonce : Buffer) (message : String) : Prop where
  rnonce : ∃ rnonce, attributeValue message "r" = some rnonce ∧ (toBase64 nonce).toList <+: rnonce.toList
  iterations : ∃ text n, attributeValue message "i" = some text ∧ decimal text = some n ∧ 4096 ≤ n

/-- The server's first message is acceptable to this client. -/
def AcceptableResponse (response : ScramResponse) (authContext : AuthContext) : Prop :=
  ∃ nonce buffer, authContext.nonce = some nonce ∧ response.payload.toBinary = some buffer ∧
    Acceptable nonce (binaryValue buffer)

/-- The proof is sent in answer to an acceptable message only, and any other message ends in an error for the
callback. -/
structure GuardsProof (acceptable : Prop) (outcome : Outcome) : Prop where
  sent : ∀ command, outcome = .sent command → acceptable
  failed : ¬ acceptable → ∃ e, outcome = .failed e

/-- What the code refuses in a payload: an iteration count that is neither zero nor `NaN` and is below 4096, and a
nonce that begins with the word `nonce`. -/
def RefusedPayload (dict : PayloadDict) : Prop :=
  (dict.iterations.truthy ∧ dict.iterations.lt 4096) ∨
    ∃ rnonce, dict.property "r" = some rnonce ∧ "nonce".toList <+: rnonce.toList

/-- What the code refuses: a conversation without credentials or nonce, a password without a SHA-1 digest and,
where the password could be prepared, a payload. -/
def Refused (cryptoMethod : CryptoMethod) (response : ScramResponse) (authContext : AuthContext) : Prop :=
  authContext.credentials = none ∨ authContext.nonce = none ∨
    ∃ credentials, authContext.credentials = some credentials ∧
      match processPassword crypto cryptoMethod (cleanUsername credentials.username) credentials.password with
      | .error _ => cryptoMethod = .sha1
      | .ok _ => ∃ buffer, response.payload.toBinary = some buffer ∧ RefusedPayload (parsePayload (binaryValue buffer))

theorem processPassword_failed_iff {cryptoMethod : CryptoMethod} {username password : String} {outcome : Outcome}
    (h : processPassword crypto cryptoMethod username password = .error outcome) :
    (∃ e, outcome = .failed e) ↔ cryptoMethod = .sha1 := by
  cases cryptoMethod with
  | sha1 =>
    rw [processPassword] at h
    cases hdigest : passwordDigest crypto username password with
    | error e =>
      rw [hdigest] at h
      cases h
      exact iff_of_true ⟨e, rfl⟩ rfl
    | ok digest =>
      rw [hdigest] at h
      cases h
  | sha256 =>
    cases hprep : crypto.saslprep with
    | none =>
      simp only [processPassword, hprep] at h
      cases h
    | some saslprep =>
      simp only [processPassword, hprep] at h
      cases hresult : saslprep password with
      | error e =>
        rw [hresult] at h
        cases h
        simp
      | ok prepared =>
        rw [hresult] at h
        cases h

theorem failed_iff (cache : HiCache) (cryptoMethod : CryptoMethod) (response : ScramResponse)
    (authContext : AuthContext) :
    (∃ e, (continueScramConversation crypto cache cryptoMethod response authContext).1 = .failed e) ↔
      Refused crypto cryptoMethod response authContext := by
  unfold continueScramConversation Refused
  cases hcredentials : authContext.credentials with
  | none => simp
  | some credentials =>
    cases hnonce : authContext.nonce with
    | none => simp
    | some nonce =>
      simp only [reduceCtorEq, false_or, Option.some.injEq, exists_eq_left']
      cases hpassword : processPassword crypto cryptoMethod (cleanUsername credentials.username)
        credentials.password with
      | error outcome => exact processPassword_failed_iff crypto hpassword
      | ok processedPassword =>
        cases hpayload : response.payload.toBinary with
        | none => simp
        | some buffer =>
          simp only [Option.some.injEq, exists_eq_left', RefusedPayload]
          -- the checks in the order the code makes them
          by_cases hlow : (parsePayload (binaryValue buffer)).iterations.truthy ∧
              (parsePayload (binaryValue buffer)).iterations.lt 4096
          · rw [if_pos hlow]
            exact iff_of_true ⟨_, rfl⟩ (.inl hlow)
          rw [if_neg hlow]
          simp only [hlow, false_or]
          cases hrnonce : (parsePayload (binaryValue buffer)).property "r" with
          | none => simp
          | some rnonce =>
            simp only [Option.some.injEq, exists_eq_left']
            by_cases hword : "nonce".toList <+: rnonce.toList
            · rw [if_pos hword]
              exact iff_of_true ⟨_, rfl⟩ hword
            rw [if_neg hword]
            refine iff_of_false ?_ hword
            rintro ⟨e, he⟩
            cases hsalt : (parsePayload (binaryValue buffer)).property "s" with
            | none =>
              rw [hsalt] at he
              cases he
            | some salt =>
              simp only [hsalt] at he
              split at he
              all_goals cases he

/-- The answer to a server's first message keeps to its guard if and only if the message is acceptable or the code
refuses it. -/
theorem proof_guarded_iff (cache : HiCache) (cryptoMethod : CryptoMethod) (response : ScramResponse)
    (authContext : AuthContext) :
    GuardsProof (AcceptableResponse response authContext)
        (continueScramConversation crypto cache cryptoMethod response authContext).1 ↔
      AcceptableResponse response authContext ∨ Refused crypto cryptoMethod response authContext := by
  rw [← failed_iff crypto cache]
  constructor
  · intro h
    by_cases hacceptable : AcceptableResponse response authContext
    · exact .inl hacceptable
    · exact .inr (h.failed hacceptable)
  · rintro (hacceptable | ⟨e, he⟩)
    · exact ⟨fun _ _ => hacceptable, fun hnot => absurd hacceptable hnot⟩
    · refine ⟨fun command hsent => ?_, fun _ => ⟨e, he⟩⟩
      rw [he] at hsent
      cases hsent

/-- `crypto` for the user `user` with the password `pencil` and the salt `salt`, in the conversation below. -/
private def pencilCrypto : Crypto where
  createHash
    | .md5, _ => .ok [28, 51, 0, 110, 193, 255, 217, 15, 156, 173, 203, 204, 14, 17, 130, 0]
    | .method _, _ => .ok [7, 1, 79, 66, 64, 126, 202, 40, 250, 189, 154, 198, 120, 97, 80, 251, 108, 141, 95, 73]
  createHmac _ key text := .ok <|
    if text = utf8 "Client Key" then
      [209, 228, 161, 140, 36, 253, 19, 212, 91, 198, 205, 23, 144, 243, 101, 114, 29, 72, 46, 101]
    else if text = utf8 "Server Key" then
      [95, 184, 42, 128, 255, 142, 38, 25, 129, 122, 232, 160, 73, 161, 78, 179, 98, 132, 44, 230]
    else if key.head? = some 7 then
      [115, 207, 105, 137, 50, 103, 122, 152, 236, 92, 254, 195, 209, 162, 152, 214, 222, 238, 224, 148]
    else [76, 13, 240, 12, 184, 126, 134, 173, 187, 197, 217, 231, 44, 201, 69, 44, 203, 119, 117, 208]
  pbkdf2Sync _ _ _ _ _ :=
    .ok [193, 65, 5, 149, 105, 243, 145, 21, 17, 120, 230, 148, 12, 253, 139, 115, 178, 140, 34, 48]
  saslprep := none

private def pencilContext : AuthContext where
  credentials := some { username := "user", password := "pencil", source := "admin" }
  nonce := some [0, 1, 2, 3, 4, 5, 6, 7, 8, 9, 10, 11, 12, 13, 14, 15, 16, 17, 18, 19, 20, 21, 22, 23]

/-- `r=evil,s=c2FsdA==,i=4096`: a nonce of the server's own. -/
private def foreignNonce : ScramResponse where
  payload := .binary [114, 61, 101, 118, 105, 108, 44, 115, 61, 99, 50, 70, 115, 100, 65, 61, 61,
    44, 105, 61, 52, 48, 57, 54]
  conversationId := some 1

/-- The proof is sent to a server that did not echo the client's nonce. -/
theorem foreignNonce_unguarded :
    ¬ GuardsProof (AcceptableResponse foreignNonce pencilContext)
        (continueScramConversation pencilCrypto hiCachePurge .sha1 foreignNonce pencilContext).1 ∧
      (continueScramConversation pencilCrypto hiCachePurge .sha1 foreignNonce pencilContext).1 =
        .sent { db := "admin", conversationId := some 1, payload := utf8 "c=biws,r=evil,p=oivIBRaaaUy3mjPUQVH9pMOmzvE=",
                serverSignature := [76, 13, 240, 12, 184, 126, 134, 173, 187, 197, 217, 231, 44, 201, 69, 44, 203, 119,
                  117, 208] } := by
  have hsent : (continueScramConversation pencilCrypto hiCachePurge .sha1 foreignNonce pencilContext).1 =
      .sent { db := "admin", conversationId := some 1, payload := utf8 "c=biws,r=evil,p=oivIBRaaaUy3mjPUQVH9pMOmzvE=",
              serverSignature := [76, 13, 240, 12, 184, 126, 134, 173, 187, 197, 217, 231, 44, 201, 69, 44, 203, 119,
                117, 208] } := by
    decide
  refine ⟨fun h => ?_, hsent⟩
  obtain ⟨nonce, buffer, hnonce, hbuffer, hacceptable⟩ := h.sent _ hsent
  cases hnonce
  cases hbuffer
  obtain ⟨rnonce, hrnonce, hprefix⟩ := hacceptable.rnonce
  have hevil : attributeValue (binaryValue [114, 61, 101, 118, 105, 108, 44, 115, 61, 99, 50, 70, 115, 100, 65, 61, 61,
      44, 105, 61, 52, 48, 57, 54]) "r" = some "evil" := by decide
  cases hevil.symm.trans hrnonce
  exact absurd hprefix (by decide)

end MongoDriver.Auth
