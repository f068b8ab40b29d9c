/-
The hosts of an SRV connection string (`resolveSRVRecord` and `matchesParentDomain` of `src/connection_string.ts`). A
lookup that gives any record outside the domain fails, where the poller leaves such records out; either way every host
that is delivered is in the domain of the parent.
-/
import MongoDriver.Options.Precedence
import MongoDriver.Sdam.SrvPoller

namespace MongoDriver.Options

open Sdam (SrvRecord HostAddress IsHostName SharesDomain)

/-- What the name server answers, and `new URLSearchParams(text)`. A failure has its error, and its code. -/
structure Dns where
  resolveSrv : String → Except AnyError (List SrvRecord)
  resolveTxt : String → Except (String × AnyError) (List (List String))
  searchParams : String → List (String × String)

section

variable {ω σ : Type} (env : Environment ω σ) (dns : Dns)

/-! ## The code -/

/-- `matchesParentDomain(srvAddress, parentDomain)` of `src/connection_string.ts`. -/
def matchesParentDomain (srvAddress parentDomain : String) : Bool :=
  let srv := '.' :: Sdam.removeFirstLabel srvAddress.toList
  let parent := '.' :: Sdam.removeFirstLabel parentDomain.toList
  parent.isSuffixOf srv

/-- `VALID_TXT_RECORDS` -/
def validTxtRecords : List String := ["authSource", "replicaSet", "loadBalanced"]

/-- The options of a TXT record. -/
def txtRecordOptions (record : List (List String)) : Except AnyError (List (String × String)) :=
  match record with
  | [] => .error { cls := .typeError, message := "Cannot read property 'join' of undefined" }
  | [chunks] =>
    let entries := dns.searchParams (String.join chunks)
    if entries.any (·.1 ∉ validTxtRecords) then
      .error (parseError ("Text record may only set any of: " ++ ", ".intercalate validTxtRecords))
    else if validTxtRecords.any fun option => entries.lookup option = some "" then
      .error (parseError "Cannot have empty URI params in DNS TXT Record")
    else
      .ok entries
  | _ => .error (parseError "Multiple text records not allowed")

/-- The source of the credentials from a TXT record, unless the user gave one. -/
def applyTxtSource (source : Option String) (options : MongoOptions ω) : Except AnyError (MongoOptions ω) :=
  let credentials := options.get "credentials"
  match source with
  | some source =>
    if ¬ (options.get "userSpecifiedAuthSource").truthy env.toLanguage ∧ credentials.truthy env.toLanguage ∧
        ¬ (credentials.member "mechanism").isOneOf authMechsAuthSrcExternal then do
      return options.set "credentials" (← mergeCredentials env credentials { source := .text source })
    else
      return options
  | none => return options

def applyTxtReplicaSet (replicaSet : Option String) (options : MongoOptions ω) : MongoOptions ω :=
  match replicaSet with
  | some replicaSet =>
    if ¬ (options.get "userSpecifiedReplicaSet").truthy env.toLanguage then options.set "replicaSet" (.text replicaSet)
    else options
  | none => options

/-- The callback of `dns.resolveTxt`, where a record was found. -/
def applyTxtRecord (hosts : Nat) (record : List (List String)) (options : MongoOptions ω) :
    Except AnyError (MongoOptions ω) := do
  let entries ← txtRecordOptions dns record
  let options ← applyTxtSource env (entries.lookup "authSource") options
  let options := applyTxtReplicaSet env (entries.lookup "replicaSet") options
  let options :=
    if entries.lookup "loadBalanced" = some "true" then options.set "loadBalanced" (.boolean true) else options
  if (options.get "replicaSet").truthy env.toLanguage ∧ (options.get "srvMaxHosts").positive then
    .error (parseError "Cannot combine replicaSet option with srvMaxHosts")
  else do
    checkLoadBalanced env hosts options true
    return options

/-- What follows the addresses: the hosts, and the options of the TXT record. -/
def resolveHosts (lookupAddress : String) (addresses : List SrvRecord) (options : MongoOptions ω) :
    Except AnyError (List HostAddress × MongoOptions ω) := do
  let hostAddresses ← addresses.mapM fun r =>
    HostAddress.ofString env.toRuntime (r.name ++ ":" ++ ToString.toString r.port)
  checkLoadBalanced env hostAddresses.length options true
  match dns.resolveTxt lookupAddress with
  | .ok record => return (hostAddresses, ← applyTxtRecord env dns hostAddresses.length record options)
  | .error (code, err) => if code ≠ "ENODATA" ∧ code ≠ "ENOTFOUND" then .error err else return (hostAddresses, options)

/-- `resolveSRVRecord(options, callback)`: the hosts, with the options as they are then. -/
def resolveSRVRecord (options : MongoOptions ω) : Except AnyError (List HostAddress × MongoOptions ω) :=
  match options.get "srvHost" with
  | .text lookupAddress =>
    if (splitText lookupAddress '.').length < 3 then
      .error (apiError "URI must include hostname, domain name, and tld")
    else do
      let srvServiceName ← (options.get "srvServiceName").toText env.toLanguage
      let addresses ← dns.resolveSrv ("_" ++ srvServiceName ++ "._tcp." ++ lookupAddress)
      if addresses.length = 0 then
        .error (apiError "No addresses found at host")
      else if addresses.any fun r => !matchesParentDomain r.name lookupAddress then
        .error (apiError "Server record does not share hostname with parent URI")
      else
        resolveHosts env dns lookupAddress addresses options
  | _ => .error (apiError "Option \"srvHost\" must not be empty")

/-! ## The hosts -/

section

variable {env dns} {options options' : MongoOptions ω} {hosts : List HostAddress} {lookupAddress : String}

theorem exists_of_mem_mapM {α β ε : Type} {f : α → Except ε β} :
    ∀ {l : List α} {l' : List β}, l.mapM f = .ok l' → ∀ b ∈ l', ∃ a ∈ l, f a = .ok b
  | [], l', h, b, hb => by
    cases h
    exact absurd hb List.not_mem_nil
  | a :: l, l', h, b, hb => by
    rw [List.mapM_cons] at h
    obtain ⟨b', hb', h⟩ := Run.bind_ok.1 h
    obtain ⟨l'', hl, h⟩ := Run.bind_ok.1 h
    cases h
    rcases List.mem_cons.1 hb with rfl | hb
    · exact ⟨a, List.mem_cons_self, hb'⟩
    · obtain ⟨a', ha', hf⟩ := exists_of_mem_mapM hl b hb
      exact ⟨a', List.mem_cons_of_mem _ ha', hf⟩

theorem resolveHosts_ok {addresses : List SrvRecord}
    (h : resolveHosts env dns lookupAddress addresses options = .ok (hosts, options')) :
    ∀ host ∈ hosts, ∃ r ∈ addresses,
      HostAddress.ofString env.toRuntime (r.name ++ ":" ++ ToString.toString r.port) = .ok host := by
  obtain ⟨hostAddresses, haddresses, h⟩ := Run.bind_ok.1 h
  obtain ⟨-, -, h⟩ := Run.bind_ok.1 h
  have hhosts : hostAddresses = hosts := by
    cases htxt : dns.resolveTxt lookupAddress with
    | ok record =>
      rw [htxt] at h
      obtain ⟨settled, -, h⟩ := Run.bind_ok.1 h
      exact congrArg Prod.fst (Except.ok.inj h)
    | error err =>
      rw [htxt] at h
      dsimp only at h
      split at h
      · cases h
      · exact congrArg Prod.fst (Except.ok.inj h)
  rw [← hhosts]
  exact exists_of_mem_mapM haddresses

/-- The hosts that are delivered are those of records that all match the parent. -/
theorem resolveSRVRecord_ok (hsrvHost : options.get "srvHost" = .text lookupAddress)
    (h : resolveSRVRecord env dns options = .ok (hosts, options')) :
    ∃ question addresses, dns.resolveSrv question = .ok addresses ∧
      (∀ r ∈ addresses, matchesParentDomain r.name lookupAddress = true) ∧
      ∀ host ∈ hosts, ∃ r ∈ addresses,
        HostAddress.ofString env.toRuntime (r.name ++ ":" ++ ToString.toString r.port) = .ok host := by
  rw [resolveSRVRecord, hsrvHost] at h
  dsimp only at h
  split at h
  · cases h
  · obtain ⟨srvServiceName, -, h⟩ := Run.bind_ok.1 h
    obtain ⟨addresses, haddresses, h⟩ := Run.bind_ok.1 h
    split at h
    · cases h
    · split at h
      · cases h
      · rename_i hmatches
        refine ⟨_, addresses, haddresses, ?_, resolveHosts_ok h⟩
        intro r hr
        by_contra hmismatch
        apply hmatches
        rw [List.any_eq_true]
        exact ⟨r, hr, by simp [hmismatch]⟩

theorem matchesParentDomain_eq (srvAddress parentDomain : String) :
    matchesParentDomain srvAddress parentDomain = Sdam.matchesParentDomain srvAddress parentDomain :=
  rfl

end

/-- A record matches a parent exactly when the labels after its first end in those of the parent, in both copies of
the check, and every host that a resolution delivers or the poller emits is that of a record in the domain of the
parent. -/
theorem delivered_hosts_share_domain (options : MongoOptions ω) (poller : Sdam.SrvPollerOptions) {parent : String}
    (hparent : IsHostName parent) (hsrvHost : options.get "srvHost" = .text parent) (hpoller : poller.srvHost = parent)
    (hdns : ∀ question addresses, dns.resolveSrv question = .ok addresses → ∀ r ∈ addresses, IsHostName r.name) :
    (∀ record, IsHostName record →
      (matchesParentDomain record parent = true ↔ SharesDomain record parent) ∧
      matchesParentDomain record parent = Sdam.matchesParentDomain record parent) ∧
    (∀ hosts options', resolveSRVRecord env dns options = .ok (hosts, options') →
      ∀ host ∈ hosts, ∃ record : SrvRecord, SharesDomain record.name parent ∧
        HostAddress.ofString env.toRuntime (record.name ++ ":" ++ ToString.toString record.port) = .ok host) ∧
    ∀ events s, Run.exec (Sdam.SrvPoller.step poller) {} events = some s →
      (∀ id now addresses, .answers id now (some addresses) ∈ events → ∀ r ∈ addresses, IsHostName r.name) →
      ∀ event ∈ s.emitted, ∀ record ∈ event, SharesDomain record.name parent := by
  refine ⟨?_, ?_, ?_⟩
  · intro record hrecord
    exact ⟨Sdam.matchesParentDomain_iff hrecord hparent, matchesParentDomain_eq record parent⟩
  · intro hosts options' h host hhost
    obtain ⟨question, addresses, haddresses, hmatches, hhosts⟩ := resolveSRVRecord_ok hsrvHost h
    obtain ⟨r, hr, hof⟩ := hhosts host hhost
    have hname := hdns question addresses haddresses r hr
    exact ⟨r, (Sdam.matchesParentDomain_iff hname hparent).1 (hmatches r hr), hof⟩
  · intro events s hs hnames event hevent record hrecord
    rcases Sdam.SrvPoller.emitted_exec hs event hevent with hempty | hrecords
    · exact absurd hempty List.not_mem_nil
    · obtain ⟨hmatches, id, now, answered, hanswer, hmem⟩ := hrecords record hrecord
      rw [hpoller] at hmatches
      exact (Sdam.matchesParentDomain_iff (hnames id now answered hanswer record hmem) hparent).1 hmatches

end

/-! ## A cluster with one host -/

def oneRecord : Dns where
  resolveSrv _ := .ok [⟨"db.example.com", 27017⟩]
  resolveTxt _ := .error ("ENODATA", { cls := .error, message := "queryTxt ENODATA cluster.example.com" })
  searchParams _ := []

def clusterOptions : MongoOptions String :=
  ⟨[], (OrderedMap.empty.set "srvHost" (.text "cluster.example.com")).set "srvServiceName" (.text "mongodb")⟩

theorem delivered_hosts_share_domain_one : ∃ hosts options',
    resolveSRVRecord plainEnvironment oneRecord clusterOptions = .ok (hosts, options') ∧ hosts.length = 1 ∧
      ∀ host ∈ hosts, ∃ record : SrvRecord, SharesDomain record.name "cluster.example.com" ∧
        HostAddress.ofString plainEnvironment.toRuntime (record.name ++ ":" ++ ToString.toString record.port) =
          .ok host := by
  have hresolved : ((resolveSRVRecord plainEnvironment oneRecord clusterOptions).toOption.any
      fun resolved => resolved.1.length = 1) = true := by
    decide +kernel
  have hshares := delivered_hosts_share_domain plainEnvironment oneRecord clusterOptions
    { srvHost := "cluster.example.com" } (by simp [IsHostName, Sdam.isLineTerminator]) rfl rfl (by
      rintro question addresses haddresses r hr
      obtain rfl := Except.ok.inj haddresses
      rw [List.mem_singleton.1 hr]
      simp [IsHostName, Sdam.isLineTerminator])
  generalize hrun : resolveSRVRecord plainEnvironment oneRecord clusterOptions = run at hresolved
  cases run with
  | error error => cases hresolved
  | ok resolved =>
    exact ⟨resolved.1, resolved.2, rfl, of_decide_eq_true hresolved, hshares.2.1 resolved.1 resolved.2 hrun⟩

end MongoDriver.Options
