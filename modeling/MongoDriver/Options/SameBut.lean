/-
Two runs of `parseOptions` that differ in the credentials alone. Of the options none but those of the credentials reads
them, so that what goes well with one value of the field goes well with every other, and leaves the same in all other
fields.
-/
import MongoDriver.Options.Precedence

namespace MongoDriver.Options

section

variable {ω σ : Type}

theorem ok_bind {ε : Type*} {α β : Type _} (a : α) (f : α → Except ε β) : (Except.ok a >>= f) = f a := rfl

/-- Two results that differ at most in their credentials. -/
structure SameBut (m m' : MongoOptions ω) : Prop where
  hosts : m'.hosts = m.hosts
  properties : ∀ t, t ≠ "credentials" → m'.properties.get? t = m.properties.get? t

/-- No component looks at the credentials. -/
def BlindToCredentials (env : Environment ω σ) : Prop :=
  ∀ key name values world m m', SameBut m m' →
    env.transform key name m' values world = env.transform key name m values world

namespace SameBut

variable {m m' : MongoOptions ω}

theorem refl (m : MongoOptions ω) : SameBut m m := ⟨rfl, fun _ _ => rfl⟩

theorem trans {m'' : MongoOptions ω} (h : SameBut m m') (h' : SameBut m' m'') : SameBut m m'' :=
  ⟨h'.hosts.trans h.hosts, fun t ht => (h'.properties t ht).trans (h.properties t ht)⟩

theorem get (h : SameBut m m') {t : String} (ht : t ≠ "credentials") : m'.get t = m.get t :=
  MongoOptions.get_congr (h.properties t ht)

theorem has (h : SameBut m m') {t : String} (ht : t ≠ "credentials") : m'.has t = m.has t :=
  MongoOptions.has_congr (h.properties t ht)

theorem set (h : SameBut m m') (name : String) (value : Value ω) : SameBut (m.set name value) (m'.set name value) := by
  refine ⟨h.hosts, fun t ht => ?_⟩
  unfold MongoOptions.set
  rw [OrderedMap.get?_set, OrderedMap.get?_set, h.properties t ht]

theorem set_credentials (m : MongoOptions ω) (value : Value ω) : SameBut m (m.set "credentials" value) :=
  ⟨rfl, fun _ ht => MongoOptions.properties_set_ne m value ht⟩

end SameBut

/-! ## In the loop -/

/-- The transforms that read the credentials. -/
def credentialsTransforms : List Transform := [.auth, .authMechanism, .authMechanismProperties, .authSource]

theorem transform_of_name : ∀ e ∈ OPTIONS, e.2.name e.1 ≠ "credentials" →
    ∀ transform, e.2.transform = some transform → transform ∉ credentialsTransforms := by
  have hall : ∀ e ∈ OPTIONS, e.2.name e.1 = "credentials" ∨ ∀ transform ∈ e.2.transform,
      transform ∉ credentialsTransforms := by
    decide +kernel
  intro e he hname transform htransform
  rcases hall e he with hcredentials | hother
  · exact absurd hcredentials hname
  · exact hother transform htransform

variable {env : Environment ω σ} {s s' t : Settings ω σ} {values : List (Value ω)} {key name : String}

theorem runTransform_sameBut (hblind : BlindToCredentials env) {transform : Transform}
    (htransform : transform ∉ credentialsTransforms) (hsame : SameBut s.options s'.options) (hworld : s'.world = s.world)
    {value : Value ω} (h : runTransform env transform key name values s = .ok (value, t)) :
    ∃ t', runTransform env transform key name values s' = .ok (value, t') ∧ SameBut t.options t'.options ∧
      t'.world = t.world := by
  cases transform with
  | auth | authMechanism | authMechanismProperties | authSource => simp [credentialsTransforms] at htransform
  | family =>
    obtain ⟨n, hn, h⟩ := Run.bind_ok.1 h
    split_ifs at h with hfamily
    cases h
    refine ⟨s', Run.bind_ok.2 ⟨n, hn, ?_⟩, hsame, hworld⟩
    rw [if_pos hfamily]
    rfl
  | file =>
    obtain ⟨path, hpath, h⟩ := Run.bind_ok.1 h
    obtain ⟨text, htext, h⟩ := Run.bind_ok.1 h
    cases h
    exact ⟨s', Run.bind_ok.2 ⟨path, hpath, Run.bind_ok.2 ⟨text, htext, rfl⟩⟩, hsame, hworld⟩
  | tlsAllowInvalidCertificates | tlsAllowInvalidHostnames =>
    obtain ⟨b, hb, h⟩ := Run.bind_ok.1 h
    cases h
    exact ⟨s', Run.bind_ok.2 ⟨b, hb, rfl⟩, hsame, hworld⟩
  | tlsInsecure =>
    obtain ⟨b, hb, h⟩ := Run.bind_ok.1 h
    cases h
    have hhostnames : s'.options.get "tlsAllowInvalidHostnames" = s.options.get "tlsAllowInvalidHostnames" :=
      hsame.get (by decide)
    refine ⟨_, Run.bind_ok.2 ⟨b, hb, rfl⟩, ?_, hworld⟩
    cases b with
    | true => exact (hsame.set _ _).set _ _
    | false =>
      simp only [Bool.false_eq_true, if_false, hhostnames]
      have hset := hsame.set "checkServerIdentity"
        (if (s.options.get "tlsAllowInvalidHostnames").truthy env.toLanguage then .other env.noop else .undefined)
      have hcertificates := hset.get (t := "tlsAllowInvalidCertificates") (by decide)
      rw [hcertificates]
      exact hset.set _ _
  | component =>
    obtain ⟨⟨value', world⟩, hvalue, h⟩ := Run.bind_ok.1 h
    cases h
    rw [← hblind key name values s.world s.options s'.options hsame, ← hworld] at hvalue
    exact ⟨{ s' with world }, Run.bind_ok.2 ⟨_, hvalue, rfl⟩, hsame, rfl⟩

theorem setOption_sameBut (hblind : BlindToCredentials env) {e : String × OptionDescriptor} (he : e ∈ OPTIONS)
    (hname : e.2.name e.1 ≠ "credentials") (hsame : SameBut s.options s'.options) (hworld : s'.world = s.world)
    (h : setOption env e.1 e.2 values s = .ok t) :
    ∃ t', setOption env e.1 e.2 values s' = .ok t' ∧ SameBut t.options t'.options ∧ t'.world = t.world := by
  cases htype : e.2.type with
  | some type =>
    unfold setOption
    simp only [htype]
    obtain ⟨hstring, hnull, rfl⟩ | ⟨value, hnot, hconvert, rfl⟩ := setOption_typed htype h
    · rw [if_pos ⟨hstring, hnull⟩]
      exact ⟨s', rfl, hsame, hworld⟩
    · rw [if_neg hnot, hconvert]
      exact ⟨_, rfl, hsame.set _ _, hworld⟩
  | none =>
    obtain ⟨transform, value, next, htransform, hrun, rfl⟩ := setOption_transform htype h
    obtain ⟨next', hrun', hnext, hworld'⟩ :=
      runTransform_sameBut hblind (transform_of_name e he hname transform htransform) hsame hworld hrun
    unfold setOption
    simp only [htype, htransform, hrun']
    exact ⟨_, rfl, hnext.set _ _, hworld'⟩

variable {allOptions : CaseInsensitiveMap (List (Value ω))}

/-- What the options beside the credentials make of two settings that differ in the credentials. -/
theorem foldlM_sameBut (hblind : BlindToCredentials env) {table : List (String × OptionDescriptor)}
    (htable : ∀ e ∈ table, e ∈ OPTIONS ∧ e.2.name e.1 ≠ "credentials") (hsame : SameBut s.options s'.options)
    (hworld : s'.world = s.world) (h : table.foldlM (setFrom env allOptions) s = .ok t) :
    ∃ t', table.foldlM (setFrom env allOptions) s' = .ok t' ∧ SameBut t.options t'.options ∧ t'.world = t.world := by
  induction table generalizing s s' with
  | nil =>
    cases h
    exact ⟨s', rfl, hsame, hworld⟩
  | cons e table ih =>
    obtain ⟨he, hname⟩ := htable e List.mem_cons_self
    have hrest : ∀ e ∈ table, e ∈ OPTIONS ∧ e.2.name e.1 ≠ "credentials" :=
      fun e he => htable e (List.mem_cons_of_mem _ he)
    obtain ⟨next, hstep, hrun⟩ := Run.foldlM_cons_ok.1 h
    have hnext : ∃ next', setFrom env allOptions s' e = .ok next' ∧ SameBut next.options next'.options ∧
        next'.world = next.world := by
      unfold setFrom at hstep ⊢
      cases hvalues : (allOptions.lookup env.toLanguage e.1).getD [] with
      | nil =>
        rw [hvalues] at hstep
        cases hstep
        exact ⟨s', rfl, hsame, hworld⟩
      | cons value values =>
        rw [hvalues] at hstep
        exact setOption_sameBut hblind he hname hsame hworld hstep
    obtain ⟨next', hstep', hsame', hworld'⟩ := hnext
    obtain ⟨t', hrun', hdone⟩ := ih hrest hsame' hworld' hrun
    exact ⟨t', Run.foldlM_cons_ok.2 ⟨next', hstep', hrun'⟩, hdone⟩

/-! ## After the loop -/

section

variable {m m' r : MongoOptions ω} {hasAuthSource : Bool}

theorem settleCredentials_sameBut (h : settleCredentials env hasAuthSource m = .ok r) : SameBut m r := by
  refine ⟨?_, fun t ht => settleCredentials_frame h ht⟩
  unfold settleCredentials at h
  simp only at h
  split_ifs at h
  · obtain ⟨text, -, h⟩ := Run.bind_ok.1 h
    cases h
  · obtain ⟨credentials, -, h⟩ := Run.bind_ok.1 h
    obtain ⟨-, -, h⟩ := Run.bind_ok.1 h
    cases h
    split_ifs
    · rfl
    · rfl
  · cases h
    rfl

theorem applyDbName_sameBut (h : SameBut m m') : SameBut (applyDbName env m) (applyDbName env m') := by
  unfold applyDbName
  rw [h.get (by decide)]
  split_ifs
  · exact h
  · exact h.set _ _

theorem checkTLSOptions_sameBut (h : SameBut m m') : checkTLSOptions m' = checkTLSOptions m := by
  have hnames : ∀ pair ∈ exclusiveTLSOptions, pair.1 ≠ "credentials" ∧ pair.2 ≠ "credentials" := by
    decide
  have hfind : ∀ pairs : List (String × String), (∀ pair ∈ pairs, pair ∈ exclusiveTLSOptions) →
      pairs.find? (fun pair => m'.has pair.1 && m'.has pair.2) =
        pairs.find? fun pair => m.has pair.1 && m.has pair.2 := by
    intro pairs hpairs
    induction pairs with
    | nil => rfl
    | cons pair pairs ih =>
      obtain ⟨hfirst, hsecond⟩ := hnames pair (hpairs pair List.mem_cons_self)
      rw [List.find?_cons, List.find?_cons, h.has hfirst, h.has hsecond,
        ih fun pair hpair => hpairs pair (List.mem_cons_of_mem _ hpair)]
  unfold checkTLSOptions
  rw [hfind _ fun _ hpair => hpair]

theorem validateLoadBalancedOptions_sameBut (hosts : Nat) (isSrv : Bool) (h : SameBut m m') :
    validateLoadBalancedOptions env hosts m' isSrv = validateLoadBalancedOptions env hosts m isSrv := by
  unfold validateLoadBalancedOptions
  rw [h.get (t := "loadBalanced") (by decide), h.get (t := "replicaSet") (by decide),
    h.get (t := "directConnection") (by decide), h.get (t := "srvMaxHosts") (by decide)]

theorem setEncrypter_sameBut {mongoClient : ClientArgument ω} {uri : String} {options : List (String × Value ω)}
    (hsame : SameBut m m') (h : setEncrypter env mongoClient uri options m = .ok r) :
    ∃ r', setEncrypter env mongoClient uri options m' = .ok r' ∧ SameBut r r' := by
  unfold setEncrypter at h ⊢
  cases mongoClient with
  | absent | options =>
    cases h
    exact ⟨m', rfl, hsame⟩
  | client =>
    simp only at h ⊢
    rw [hsame.get (by decide)]
    split_ifs at h ⊢
    · obtain ⟨⟨encrypter, autoEncrypter⟩, hencrypter, h⟩ := Run.bind_ok.1 h
      cases h
      exact ⟨_, Run.bind_ok.2 ⟨_, hencrypter, rfl⟩, (hsame.set _ _).set _ _⟩
    · cases h
      exact ⟨m', rfl, hsame⟩

theorem settleSrv_sameBut {url : ConnectionString env.toLanguage} {sources : Sources ω} (hsame : SameBut m m')
    (h : settleSrv env url sources m = .ok r) : ∃ r', settleSrv env url sources m' = .ok r' ∧ SameBut r r' := by
  unfold settleSrv at h ⊢
  have hset := hsame.set "srvHost" (url.hosts.head?.elim .undefined .text)
  simp only [hset.get (t := "directConnection") (by decide), hset.get (t := "srvMaxHosts") (by decide),
    hset.get (t := "replicaSet") (by decide)] at h ⊢
  split_ifs at h ⊢
  · cases h
    exact ⟨_, rfl, hset.set _ _⟩
  · cases h
    exact ⟨_, rfl, hset⟩
  · cases h
    exact ⟨_, rfl, hsame⟩

theorem checkConnection_sameBut {sources : Sources ω} (hsame : SameBut m m') :
    checkConnection env sources m' = checkConnection env sources m := by
  unfold checkConnection
  simp only [hsame.hosts, hsame.get (t := "directConnection") (by decide), hsame.get (t := "proxyHost") (by decide),
    hsame.get (t := "proxyPort") (by decide), hsame.get (t := "proxyUsername") (by decide),
    hsame.get (t := "proxyPassword") (by decide)]

/-- Where one set of options passes, so does one with other credentials that are settled, and keeps these. -/
theorem finish_sameBut {mongoClient : ClientArgument ω} {uri : String} {options : List (String × Value ω)}
    {url : ConnectionString env.toLanguage} {sources : Sources ω} (hsame : SameBut m m') {settled : MongoOptions ω}
    (hsettled : settleCredentials env ((sources.allOptions env).has env.toLanguage "authSource") m' = .ok settled)
    (h : finish env mongoClient uri options url sources m = .ok r) :
    ∃ r', finish env mongoClient uri options url sources m' = .ok r' ∧
      r'.get "credentials" = settled.get "credentials" := by
  obtain ⟨m₁, hsettle, h⟩ := Run.bind_ok.1 h
  obtain ⟨⟨⟩, htls, h⟩ := Run.bind_ok.1 h
  obtain ⟨⟨⟩, hlibrary, h⟩ := Run.bind_ok.1 h
  obtain ⟨⟨⟩, hbalanced, h⟩ := Run.bind_ok.1 h
  obtain ⟨m₂, hencrypt, h⟩ := Run.bind_ok.1 h
  obtain ⟨m₃, hsrv, h⟩ := Run.bind_ok.1 h
  obtain ⟨⟨⟩, hconnection, h⟩ := Run.bind_ok.1 h
  cases h
  have hsame₁ : SameBut m₁ settled := by
    have hm := settleCredentials_sameBut hsettle
    have hm' := settleCredentials_sameBut hsettled
    refine ⟨(hm'.hosts.trans hsame.hosts).trans hm.hosts.symm, fun t ht => ?_⟩
    rw [hm'.properties t ht, hsame.properties t ht, hm.properties t ht]
  have hnamed : SameBut (applyDbName env m₁) (applyDbName env settled) := applyDbName_sameBut hsame₁
  rw [← checkTLSOptions_sameBut hnamed] at htls
  have hbalanced' : checkLoadBalanced env url.hosts.length (applyDbName env settled) url.isSRV = .ok () := by
    unfold checkLoadBalanced at hbalanced ⊢
    rw [validateLoadBalancedOptions_sameBut _ _ hnamed]
    exact hbalanced
  obtain ⟨m₂', hencrypt', hsame₂⟩ := setEncrypter_sameBut hnamed hencrypt
  obtain ⟨m₃', hsrv', hsame₃⟩ := settleSrv_sameBut ((hsame₂.set "userSpecifiedAuthSource" _).set
    "userSpecifiedReplicaSet" _) hsrv
  rw [← checkConnection_sameBut hsame₃] at hconnection
  refine ⟨m₃', ?_, ?_⟩
  · exact Run.bind_ok.2 ⟨settled, hsettled, Run.bind_ok.2 ⟨(), htls, Run.bind_ok.2 ⟨(), hlibrary,
      Run.bind_ok.2 ⟨(), hbalanced', Run.bind_ok.2 ⟨m₂', hencrypt', Run.bind_ok.2 ⟨m₃', hsrv',
        Run.bind_ok.2 ⟨(), hconnection, rfl⟩⟩⟩⟩⟩⟩⟩
  · have htlsName : "credentials" ≠ "tls" := by decide
    have hdbName : "credentials" ≠ "dbName" := by decide
    rw [get_settleSrv hsrv' (by decide), if_neg fun hcond => htlsName hcond.1,
      MongoOptions.get_set_ne _ _ (by decide), MongoOptions.get_set_ne _ _ (by decide),
      setEncrypter_frame hencrypt' (by decide), get_applyDbName, if_neg fun hcond => hdbName hcond.1]

end

end

end MongoDriver.Options
