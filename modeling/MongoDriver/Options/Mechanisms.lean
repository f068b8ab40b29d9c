/-
Acceptance of `authMechanism` (`src/connection_string.ts`). The value is made a pattern between word boundaries,
without regard to case, and the first mechanism whose name the pattern matches is taken. The name of a mechanism
matches itself alone, but a part of a name between boundaries matches as well. What is taken is in the credentials that
the parser returns, unless they do not pass their own checks, or are dropped since nothing is in them.
-/
import MongoDriver.Options.ReadPreferences
import MongoDriver.Options.SameBut

namespace MongoDriver.Options

section

variable {ω σ : Type} (env : Environment ω σ)

/-- What is known of patterns: a word of letters, digits and hyphens stands for itself, and what is no pattern raises
a `SyntaxError`. -/
structure WholeWords : Prop where
  word : ∀ value : String, (∀ c ∈ value.toList, c.isAlphanum = true ∨ c = '-') →
    ∃ pattern, env.wholeWord value = .ok pattern ∧
      ∀ name ∈ AuthMechanism.values, pattern name = matchesWord value name
  syntaxError : ∀ value error, env.wholeWord value = .error error → error.cls ≠ .mongoParseError

/-! ## The names -/

/-- The name of a mechanism is found in no other name. -/
theorem filter_matchesWord :
    ∀ name ∈ AuthMechanism.values, AuthMechanism.values.filter (matchesWord name) = [name] := by
  decide

theorem characters_of_name : ∀ name ∈ AuthMechanism.values, ∀ c ∈ foldCase name, c.isAlphanum = true ∨ c = '-' := by
  have hall : (AuthMechanism.values.all fun name => (foldCase name).all fun c => c.isAlphanum || c == '-') = true := by
    decide
  intro name hname c hc
  have hchar := List.all_eq_true.1 (List.all_eq_true.1 hall name hname) c hc
  rwa [Bool.or_eq_true, beq_iff_eq] at hchar

theorem eq_of_foldCase : ∀ name ∈ AuthMechanism.values, ∀ name' ∈ AuthMechanism.values,
    foldCase name = foldCase name' → name = name' := by
  decide

theorem ne_empty_of_name : ∀ name ∈ AuthMechanism.values, name ≠ "" := by
  decide

theorem isAlphanum_of_toLower {c : Char} (h : c.toLower.isAlphanum = true ∨ c.toLower = '-') :
    c.isAlphanum = true ∨ c = '-' := by
  by_cases hupper : c.isUpper = true
  · left
    have halpha : c.isAlphanum = (c.isUpper || c.isLower || c.isDigit) := rfl
    rw [halpha, hupper]
    rfl
  · have hrange : ¬ (c.val ≥ 'A'.val ∧ c.val ≤ 'Z'.val) := fun h => hupper (decide_eq_true h)
    have hsame : c.toLower = c := by
      unfold Char.toLower
      rw [dif_neg hrange]
    rwa [hsame] at h

section

variable {env} {value name : String}

/-- A name, in whatever case, is a pattern for itself alone. -/
theorem filter_of_name (hwords : WholeWords env) (hname : name ∈ AuthMechanism.values)
    (hvalue : foldCase value = foldCase name) :
    ∃ pattern, env.wholeWord value = .ok pattern ∧ AuthMechanism.values.filter pattern = [name] := by
  have hplain : ∀ c ∈ value.toList, c.isAlphanum = true ∨ c = '-' := by
    intro c hc
    apply isAlphanum_of_toLower
    apply characters_of_name name hname
    rw [← hvalue]
    exact List.mem_map_of_mem hc
  obtain ⟨pattern, hpattern, hmatches⟩ := hwords.word value hplain
  refine ⟨pattern, hpattern, ?_⟩
  rw [← filter_matchesWord name hname]
  apply List.filter_congr
  intro other hother
  rw [hmatches other hother, matchesWord, matchesWord, hvalue]

end

/-! ## The credentials of a mechanism -/

def authOption : String × OptionDescriptor := ("auth", { target := some "credentials", transform := some .auth })

def authMechanismOption : String × OptionDescriptor :=
  ("authMechanism", { target := some "credentials", transform := some .authMechanism })

def authMechanismPropertiesOption : String × OptionDescriptor :=
  ("authMechanismProperties", { target := some "credentials", transform := some .authMechanismProperties })

def authSourceOption : String × OptionDescriptor :=
  ("authSource", { target := some "credentials", transform := some .authSource })

/-- What an option makes of the credentials, if it has a value. -/
def applied (transform : Value ω → Value ω → Except AnyError (Value ω)) (value : Option (Value ω))
    (credentials : Value ω) : Except AnyError (Value ω) :=
  value.elim (.ok credentials) (transform credentials)

section

variable (url : ConnectionString env.toLanguage) (options : List (String × Value ω))

/-- The credentials after `auth`. -/
def authCredentials : Except AnyError (Value ω) :=
  applied (authTransform env "credentials") (firstValue env url options "auth" authOption.2) .undefined

/-- What is given beside the mechanism. -/
def withRest (credentials : Value ω) : Except AnyError (Value ω) := do
  let credentials ← applied (authMechanismPropertiesTransform env)
    (firstValue env url options "authMechanismProperties" authMechanismPropertiesOption.2) credentials
  applied (authSourceTransform env) (firstValue env url options "authSource" authSourceOption.2) credentials

/-- The credentials that are given, with the mechanism of that value. -/
def givenCredentials (mechanism : String) : Except AnyError (Value ω) := do
  let credentials ← authCredentials env url options
  let credentials ← authMechanismTransform env credentials (.text mechanism)
  withRest env url options credentials

/-- The credentials that are given once they are checked, if they are not dropped, among options that are settled. -/
def settledCredentials (settings : MongoOptions ω) (mechanism : String) : Except AnyError (Value ω) := do
  let credentials ← givenCredentials env url options mechanism
  let settled ← settleCredentials env (givenValue env url options "authSource").isSome
    (settings.set "credentials" credentials)
  return settled.get "credentials"

end

/-! ## Merging -/

/-- Credentials with the mechanism. -/
def Selects (mechanism : String) (credentials : Value ω) : Prop :=
  credentials.truthy env.toLanguage = true ∧ credentials.member "mechanism" = .text mechanism

section

variable {env} {credentials result : Value ω} {mechanism : String}

theorem newMongoCredentials_selects {options : MongoCredentialsOptions ω} {frozen : Bool} (hne : mechanism ≠ "")
    (hmechanism : options.mechanism = .text mechanism) (h : newMongoCredentials env options frozen = .ok result) :
    Selects env mechanism result := by
  have htruthy : (Value.text mechanism : Value ω).truthy env.toLanguage = true := by
    simpa [Value.truthy] using hne
  unfold newMongoCredentials at h
  rw [hmechanism] at h
  simp only [htruthy, if_true] at h
  generalize Option.filter _ (env.processEnv "AWS_SESSION_TOKEN") = token at h
  cases token with
  | none | some =>
    simp only at h
    split_ifs at h <;> cases h <;> exact ⟨rfl, rfl⟩

theorem mergeCredentials_selects (hcredentials : Selects env mechanism credentials) (hne : mechanism ≠ "")
    {options : MongoCredentialsOptions ω} (hoptions : options.mechanism = .undefined)
    (h : mergeCredentials env credentials options = .ok result) : Selects env mechanism result := by
  refine newMongoCredentials_selects hne ?_ h
  rw [hoptions, hcredentials.2]
  rfl

theorem applied_selects {transform : Value ω → Value ω → Except AnyError (Value ω)} {value : Option (Value ω)}
    (hcredentials : Selects env mechanism credentials) (hne : mechanism ≠ "")
    (hmerge : ∀ value, transform credentials value = .ok result → ∃ options : MongoCredentialsOptions ω,
      options.mechanism = .undefined ∧ mergeCredentials env credentials options = .ok result)
    (h : applied transform value credentials = .ok result) : Selects env mechanism result := by
  cases value with
  | none =>
    cases h
    exact hcredentials
  | some value =>
    obtain ⟨options, hoptions, hmerged⟩ := hmerge value h
    exact mergeCredentials_selects hcredentials hne hoptions hmerged

theorem withRest_selects {url : ConnectionString env.toLanguage} {options : List (String × Value ω)}
    (hcredentials : Selects env mechanism credentials) (hne : mechanism ≠ "")
    (h : withRest env url options credentials = .ok result) : Selects env mechanism result := by
  obtain ⟨credentials', hproperties, h⟩ := Run.bind_ok.1 h
  have hwith : Selects env mechanism credentials' := by
    refine applied_selects hcredentials hne (fun value hvalue => ?_) hproperties
    unfold authMechanismPropertiesTransform at hvalue
    split at hvalue
    · obtain ⟨entries, -, hvalue⟩ := Run.bind_ok.1 hvalue
      exact ⟨_, rfl, hvalue⟩
    · split_ifs at hvalue
      exact ⟨_, rfl, hvalue⟩
  refine applied_selects hwith hne (fun value hvalue => ?_) h
  obtain ⟨text, -, hvalue⟩ := Run.bind_ok.1 hvalue
  exact ⟨_, rfl, hvalue⟩

theorem inheritDbName_selects {hasAuthSource : Bool} {dbName : Value ω} (hcredentials : Selects env mechanism credentials)
    (hne : mechanism ≠ "") (h : inheritDbName env hasAuthSource credentials dbName = .ok result) :
    Selects env mechanism result := by
  unfold inheritDbName at h
  split_ifs at h
  · exact mergeCredentials_selects hcredentials hne rfl h
  · cases h
    exact hcredentials

theorem get_delete_self (m : MongoOptions ω) (t : String) : (m.delete t).get t = .undefined := by
  unfold MongoOptions.delete MongoOptions.get
  rw [OrderedMap.get?_erase_self]
  rfl

/-- Settled credentials have their mechanism, or are dropped. -/
theorem settleCredentials_selects {hasAuthSource : Bool} {m m' : MongoOptions ω}
    (hcredentials : Selects env mechanism (m.get "credentials")) (hne : mechanism ≠ "")
    (h : settleCredentials env hasAuthSource m = .ok m') :
    m'.get "credentials" = .undefined ∨ Selects env mechanism (m'.get "credentials") := by
  unfold settleCredentials at h
  simp only [hcredentials.1, if_true] at h
  split_ifs at h
  · obtain ⟨text, -, h⟩ := Run.bind_ok.1 h
    cases h
  · obtain ⟨inherited, hinherited, h⟩ := Run.bind_ok.1 h
    obtain ⟨-, -, h⟩ := Run.bind_ok.1 h
    cases h
    split_ifs
    · exact .inl (get_delete_self _ _)
    · rw [MongoOptions.get_set_self]
      exact .inr (inheritDbName_selects hcredentials hne hinherited)

/-! ## The transform -/

variable {value name : String} {pattern : String → Bool} {names : List String}

theorem mem_of_filter (hnames : AuthMechanism.values.filter pattern = name :: names) :
    name ∈ AuthMechanism.values := by
  have hmem : name ∈ AuthMechanism.values.filter pattern := by
    rw [hnames]
    exact List.mem_cons_self
  exact List.mem_of_mem_filter hmem

theorem authMechanismTransform_selects (hpattern : env.wholeWord value = .ok pattern)
    (hnames : AuthMechanism.values.filter pattern = name :: names)
    (h : authMechanismTransform env credentials (.text value) = .ok result) : Selects env name result := by
  unfold authMechanismTransform at h
  simp only [Value.toText, bind, Except.bind, hpattern, hnames] at h
  exact newMongoCredentials_selects (ne_empty_of_name name (mem_of_filter hnames)) rfl h

/-- A pattern does what the first name does that it matches. -/
theorem authMechanismTransform_congr (hwords : WholeWords env) (hpattern : env.wholeWord value = .ok pattern)
    (hnames : AuthMechanism.values.filter pattern = name :: names) :
    authMechanismTransform env credentials (.text value) = authMechanismTransform env credentials (.text name) := by
  obtain ⟨pattern', hpattern', hnames'⟩ := filter_of_name hwords (mem_of_filter hnames) (rfl : foldCase name = _)
  unfold authMechanismTransform
  simp only [Value.toText, bind, Except.bind, hpattern, hnames, hpattern', hnames']

theorem authMechanismTransform_none (hpattern : env.wholeWord value = .ok pattern)
    (hnames : AuthMechanism.values.filter pattern = []) :
    Rejected (authMechanismTransform env credentials (.text value)) := by
  unfold authMechanismTransform
  simp only [Value.toText, bind, Except.bind, hpattern, hnames]
  exact ⟨_, rfl, rfl⟩

theorem authMechanismTransform_syntaxError {error : AnyError} (hpattern : env.wholeWord value = .error error) :
    authMechanismTransform env credentials (.text value) = .error error := by
  unfold authMechanismTransform
  simp only [Value.toText, bind, Except.bind, hpattern]

end

/-! ## Settings that follow the credentials -/

/-- From the settings, a run leaves the credentials that a computation gives, and all else as it is, or throws what
the computation throws. -/
def Follows (s : Settings ω σ) (credentials : Except AnyError (Value ω)) (run : Except AnyError (Settings ω σ)) : Prop :=
  (∀ c, credentials = .ok c → ∃ s', run = .ok s' ∧ SameBut s.options s'.options ∧ s'.world = s.world ∧
    s'.options.get "credentials" = c) ∧
  ∀ error, credentials = .error error → run = .error error

section

variable {env} {s : Settings ω σ} {credentials : Except AnyError (Value ω)} {run : Except AnyError (Settings ω σ)}

theorem Follows.ok (s : Settings ω σ) : Follows s (.ok (s.options.get "credentials")) (.ok s) := by
  constructor
  · rintro c ⟨⟩
    exact ⟨s, rfl, .refl _, rfl, rfl⟩
  · rintro error ⟨⟩

theorem Follows.bind {f : Value ω → Except AnyError (Value ω)} {g : Settings ω σ → Except AnyError (Settings ω σ)}
    (h : Follows s credentials run) (hnext : ∀ s' : Settings ω σ, Follows s' (f (s'.options.get "credentials")) (g s')) :
    Follows s (credentials >>= f) (run >>= g) := by
  cases credentials with
  | error error =>
    rw [h.2 error rfl]
    exact ⟨fun c hc => (by cases hc), fun error' herror => congrArg Except.error (Except.error.inj herror)⟩
  | ok c =>
    obtain ⟨s', rfl, hsame, hworld, rfl⟩ := h.1 c rfl
    refine ⟨fun c' hc' => ?_, fun error herror => (hnext s').2 error herror⟩
    obtain ⟨s'', hrun, hsame', hworld', hcredentials⟩ := (hnext s').1 c' hc'
    exact ⟨s'', hrun, hsame.trans hsame', hworld'.trans hworld, hcredentials⟩

/-- A round of the loop with one of the options of the credentials. -/
theorem follows_round {allOptions : CaseInsensitiveMap (List (Value ω))} {e : String × OptionDescriptor}
    {transform : Transform} (htype : e.2.type = none) (htransform : e.2.transform = some transform)
    (hname : e.2.name e.1 = "credentials") {f : Value ω → Value ω → Except AnyError (Value ω)}
    (hrun : ∀ values (s : Settings ω σ), runTransform env transform e.1 "credentials" values s = (do
      return (← f (s.options.get "credentials") (values.headD .undefined), s))) (s : Settings ω σ) :
    Follows s (applied f (valuesOf env allOptions e.1).head? (s.options.get "credentials"))
      (setFrom env allOptions s e) := by
  unfold setFrom valuesOf
  cases hvalues : (allOptions.lookup env.toLanguage e.1).getD [] with
  | nil => exact .ok s
  | cons value values =>
    simp only [setOption, htype, htransform, hname, hrun, List.head?_cons, applied, Option.elim_some, List.headD_cons]
    cases f (s.options.get "credentials") value with
    | error error => exact ⟨fun c hc => (by cases hc), fun error' herror => congrArg Except.error (Except.error.inj herror)⟩
    | ok c =>
      refine ⟨fun c' hc' => ⟨_, rfl, .set_credentials _ _, rfl, ?_⟩, fun error herror => (by cases herror)⟩
      rw [← Except.ok.inj hc']
      exact MongoOptions.get_set_self _ _ _

/-- What is settled depends on the credentials and the database alone. -/
theorem settleCredentials_congr {hasAuthSource : Bool} {m m' : MongoOptions ω}
    (hcredentials : m'.get "credentials" = m.get "credentials") (hdbName : m'.get "dbName" = m.get "dbName") :
    (settleCredentials env hasAuthSource m').map (·.get "credentials") =
      (settleCredentials env hasAuthSource m).map (·.get "credentials") := by
  unfold settleCredentials
  simp only [hcredentials, hdbName]
  split_ifs
  · cases (m.get "credentials").toText env.toLanguage <;> rfl
  · cases inheritDbName env hasAuthSource (m.get "credentials") (m.get "dbName") with
    | error error => rfl
    | ok credentials =>
      cases hvalid : validateCredentials env credentials with
      | error error => simp only [bind, Except.bind, hvalid, Except.map]
      | ok _ =>
        simp only [bind, Except.bind, hvalid, Except.map, pure, Except.pure]
        split_ifs
        · rw [get_delete_self, get_delete_self]
        · rw [MongoOptions.get_set_self, MongoOptions.get_set_self]
  · exact congrArg Except.ok hcredentials

end

/-! ## The run -/

/-- The options that are set after `auth` and depend on the mechanism. -/
def mechanismOptions : List String := ["authMechanism", "authMechanismProperties", "authSource"]

/-- What the parser makes of all other options. -/
def settingsBeside (uri : String) (mongoClient : ClientArgument ω) (options : List (String × Value ω)) (world : σ) :
    Except AnyError (Settings ω σ) := do
  let options := mongoClient.optionsOr options
  let url ← env.connectionString uri
  let hosts ← (if url.isSRV then .ok [] else url.hosts.mapM (Sdam.HostAddress.ofString env.toRuntime))
  let sources ← collectSources env url options
  checkTlsAndSsl env (sources.allOptions env)
  checkSupported env (sources.allKeys env)
  let settings ← (OPTIONS.filter fun e => e.1 ∉ mechanismOptions).foldlM (setFrom env (sources.allOptions env))
    { options := ⟨hosts, .empty⟩, world }
  let _ ← finish env mongoClient uri options url sources settings.options
  return settings

def appNameOption : String × OptionDescriptor :=
  ("appName", { target := some "metadata", transform := some .component })

theorem table_credentials : OPTIONS = [appNameOption, authOption] ++
    ([authMechanismOption, authMechanismPropertiesOption, authSourceOption] ++ OPTIONS.drop 5) := by
  decide

theorem table_beside : (OPTIONS.filter fun e => e.1 ∉ mechanismOptions) =
    [appNameOption, authOption] ++ OPTIONS.drop 5 := by
  decide +kernel

theorem table_rest : ∀ e ∈ OPTIONS.drop 5, e.2.name e.1 ≠ "credentials" := by
  decide +kernel

section

variable {env} {url : ConnectionString env.toLanguage} {options : List (String × Value ω)} {sources : Sources ω}

theorem head?_valuesOf_of_supported (hcollected : collectSources env url options = .ok sources)
    (hsupported : checkSupported env (sources.allKeys env) = .ok ()) {e : String × OptionDescriptor} (he : e ∈ OPTIONS)
    (hne : e ≠ tlsCertificateFile) :
    (valuesOf env (sources.allOptions env) e.1).head? = firstValue env url options e.1 e.2 := by
  rw [valuesOf, getD_allOptions hsupported he hne, head?_values hcollected he]

theorem has_authSource (hcollected : collectSources env url options = .ok sources)
    (hsupported : checkSupported env (sources.allKeys env) = .ok ()) :
    (sources.allOptions env).has env.toLanguage "authSource" = (givenValue env url options "authSource").isSome := by
  have hmem : authSourceOption ∈ OPTIONS := by decide
  have hfile : toLowerCase env.toLanguage "authSource" ≠ toLowerCase env.toLanguage "tlsCertificateFile" :=
    fun heq => absurd (eq_of_toLowerCase env.toLanguage hmem tlsCertificateFile_mem heq) (by decide)
  have hlookup : (sources.allOptions env).lookup env.toLanguage "authSource" =
      (sources.collected env).lookup env.toLanguage "authSource" := by
    unfold Sources.allOptions
    simp only
    split_ifs
    · rw [CaseInsensitiveMap.lookup_put, if_neg hfile]
    · rfl
  have hcollect := lookup_collected hsupported hmem
  rw [authSourceOption] at hcollect
  simp only at hcollect
  rw [CaseInsensitiveMap.has, hlookup, hcollect]
  by_cases hgiven : Given env url options "authSource"
  · have hhas : sources.has env "authSource" = true := (has_iff_given hcollected "authSource").2 hgiven
    have hkey : toLowerCase env.toLanguage "authSource" ∈ sources.allKeys env := by
      rw [Sources.allKeys, List.mem_eraseDups, List.mem_append, List.mem_append]
      rw [Sources.has, Bool.or_eq_true] at hhas
      rcases hhas with hobject | hurl
      · exact .inl (.inr (OrderedMap.mem_keys.2 (Option.isSome_iff_exists.1 hobject)))
      · exact .inl (.inl (OrderedMap.mem_keys.2 (Option.isSome_iff_exists.1 hurl)))
    rw [if_pos hkey, Option.isSome_iff_ne_none.2 hgiven]
    rfl
  · have hkey : toLowerCase env.toLanguage "authSource" ∉ sources.allKeys env :=
      notMem_allKeys hcollected hmem rfl hgiven
    rw [if_neg hkey]
    have hnone : givenValue env url options "authSource" = none := not_not.1 hgiven
    rw [hnone]
    rfl

/-- The rounds of the options of the credentials. -/
theorem follows_mechanism {allOptions : CaseInsensitiveMap (List (Value ω))}
    (hfirst : ∀ e ∈ [authMechanismOption, authMechanismPropertiesOption, authSourceOption],
      (valuesOf env allOptions e.1).head? = firstValue env url options e.1 e.2)
    {value : String} (hvalue : firstValue env url options "authMechanism" authMechanismOption.2 = some (.text value))
    (s : Settings ω σ) :
    Follows s (authMechanismTransform env (s.options.get "credentials") (.text value) >>= withRest env url options)
      ([authMechanismOption, authMechanismPropertiesOption, authSourceOption].foldlM (setFrom env allOptions) s) := by
  have hmechanism : Follows s (applied (authMechanismTransform env) (valuesOf env allOptions authMechanismOption.1).head?
      (s.options.get "credentials")) (setFrom env allOptions s authMechanismOption) :=
    follows_round rfl rfl rfl (fun _ _ => rfl) s
  have hproperties : ∀ s : Settings ω σ, Follows s (applied (authMechanismPropertiesTransform env)
      (valuesOf env allOptions authMechanismPropertiesOption.1).head? (s.options.get "credentials"))
      (setFrom env allOptions s authMechanismPropertiesOption) :=
    follows_round rfl rfl rfl fun _ _ => rfl
  have hsource : ∀ s : Settings ω σ, Follows s (applied (authSourceTransform env)
      (valuesOf env allOptions authSourceOption.1).head? (s.options.get "credentials"))
      (setFrom env allOptions s authSourceOption) :=
    follows_round rfl rfl rfl fun _ _ => rfl
  have hgiven : firstValue env url options authMechanismOption.1 authMechanismOption.2 = some (.text value) := hvalue
  rw [hfirst _ (by simp), hgiven] at hmechanism
  simp only [hfirst authMechanismPropertiesOption (by simp)] at hproperties
  simp only [hfirst authSourceOption (by simp)] at hsource
  simp only [List.foldlM_cons, List.foldlM_nil, bind_pure]
  exact hmechanism.bind fun s' => (hproperties s').bind hsource

theorem Follows.eq_ok {s s' : Settings ω σ} {credentials : Except AnyError (Value ω)}
    (h : Follows s credentials (.ok s')) : credentials = .ok (s'.options.get "credentials") := by
  cases credentials with
  | error error => cases h.2 error rfl
  | ok c =>
    obtain ⟨s'', hs'', -, -, hc⟩ := h.1 c rfl
    rw [Except.ok.inj hs'', hc]

theorem not_writes_credentials {e : String × OptionDescriptor} (h : e.2.name e.1 ≠ "credentials") :
    ¬ Writes e "credentials" := by
  rintro (hname | ⟨-, -, hfield⟩)
  · exact h hname
  · exact absurd hfield (by decide)

/-- What `auth` leaves is made of nothing but the value of `auth`. -/
theorem authCredentials_eq {allOptions : CaseInsensitiveMap (List (Value ω))} {start before : Settings ω σ}
    (hstart : start.options.get "credentials" = .undefined)
    (hfirst : (valuesOf env allOptions "auth").head? = firstValue env url options "auth" authOption.2)
    (h : [appNameOption, authOption].foldlM (setFrom env allOptions) start = .ok before) :
    authCredentials env url options = .ok (before.options.get "credentials") := by
  obtain ⟨named, hname, h⟩ := Run.foldlM_cons_ok.1 h
  obtain ⟨before', hauth, h⟩ := Run.foldlM_cons_ok.1 h
  cases h
  have hnone : named.options.get "credentials" = .undefined := by
    rw [← hstart]
    have hhead : [appNameOption].foldlM (setFrom env allOptions) start = .ok named :=
      Run.foldlM_cons_ok.2 ⟨named, hname, rfl⟩
    apply MongoOptions.get_congr (foldlM_setFrom_frame hhead ?_)
    rintro e he -
    obtain rfl := List.mem_singleton.1 he
    exact not_writes_credentials (by decide)
  have hfollows : Follows named (applied (authTransform env "credentials") (valuesOf env allOptions authOption.1).head?
      (named.options.get "credentials")) (setFrom env allOptions named authOption) :=
    follows_round rfl rfl rfl (fun _ _ => rfl) named
  rw [hauth, hnone] at hfollows
  have heq := hfollows.eq_ok
  rwa [authOption, hfirst] at heq

/-- The run goes on to the credentials that are settled, and fails as they do. -/
theorem parse_of_settled (hblind : BlindToCredentials env) {uri : String} (hurl : env.connectionString uri = .ok url)
    {mongoClient : ClientArgument ω} {settings : Settings ω σ} {world : σ}
    (hbeside : settingsBeside env uri mongoClient options world = .ok settings) {value : String}
    (hvalue : firstValue env url (mongoClient.optionsOr options) "authMechanism" authMechanismOption.2 =
      some (.text value)) :
    (∃ c, authCredentials env url (mongoClient.optionsOr options) = .ok c) ∧
    (∀ c, settledCredentials env url (mongoClient.optionsOr options) settings.options value = .ok c →
      ∃ s, parseOptions env uri mongoClient options world = .ok s ∧ s.options.get "credentials" = c) ∧
    ∀ error, settledCredentials env url (mongoClient.optionsOr options) settings.options value = .error error →
      parseOptions env uri mongoClient options world = .error error := by
  unfold settingsBeside at hbeside
  obtain ⟨url', hurl', hbeside⟩ := Run.bind_ok.1 hbeside
  obtain rfl := Except.ok.inj (hurl'.symm.trans hurl)
  obtain ⟨hosts, hhosts, hbeside⟩ := Run.bind_ok.1 hbeside
  obtain ⟨sources, hcollected, hbeside⟩ := Run.bind_ok.1 hbeside
  obtain ⟨⟨⟩, htls, hbeside⟩ := Run.bind_ok.1 hbeside
  obtain ⟨⟨⟩, hsupported, hbeside⟩ := Run.bind_ok.1 hbeside
  obtain ⟨settings', hloop, hbeside⟩ := Run.bind_ok.1 hbeside
  obtain ⟨m, hfinish, hbeside⟩ := Run.bind_ok.1 hbeside
  cases hbeside
  rw [table_beside, List.foldlM_append] at hloop
  obtain ⟨before, hbefore, hrest⟩ := Run.bind_ok.1 hloop
  have hfirst : ∀ e ∈ [appNameOption, authOption, authMechanismOption, authMechanismPropertiesOption, authSourceOption],
      (valuesOf env (sources.allOptions env) e.1).head? =
        firstValue env url' (mongoClient.optionsOr options) e.1 e.2 := by
    intro e he
    have htable : ∀ e ∈ [appNameOption, authOption, authMechanismOption, authMechanismPropertiesOption,
        authSourceOption], e ∈ OPTIONS ∧ e ≠ tlsCertificateFile := by
      decide
    exact head?_valuesOf_of_supported hcollected hsupported (htable e he).1 (htable e he).2
  have hauth : authCredentials env url' (mongoClient.optionsOr options) = .ok (before.options.get "credentials") :=
    authCredentials_eq rfl (hfirst authOption (by simp)) hbefore
  have hfollows := follows_mechanism (fun e he => hfirst e (by simp at he ⊢; tauto)) hvalue before
  have hgiven : givenCredentials env url' (mongoClient.optionsOr options) value =
      authMechanismTransform env (before.options.get "credentials") (.text value) >>=
        withRest env url' (mongoClient.optionsOr options) := by
    rw [givenCredentials, hauth]
    rfl
  -- what the run is, once the options up to `auth` are set
  have hrun : parseOptions env uri mongoClient options world = (do
      let s ← [authMechanismOption, authMechanismPropertiesOption, authSourceOption].foldlM
        (setFrom env (sources.allOptions env)) before
      let s ← (OPTIONS.drop 5).foldlM (setFrom env (sources.allOptions env)) s
      let mongoOptions ← finish env mongoClient uri (mongoClient.optionsOr options) url' sources s.options
      return { s with options := mongoOptions }) := by
    have hsplit : OPTIONS.foldlM (setFrom env (sources.allOptions env)) { options := ⟨hosts, .empty⟩, world } = (do
        let s ← [authMechanismOption, authMechanismPropertiesOption, authSourceOption].foldlM
          (setFrom env (sources.allOptions env)) before
        (OPTIONS.drop 5).foldlM (setFrom env (sources.allOptions env)) s) := by
      rw [table_credentials, List.foldlM_append, hbefore]
      exact List.foldlM_append
    unfold parseOptions
    simp only [hurl', hhosts, hcollected, htls, hsupported, hsplit, ok_bind, bind_assoc]
  refine ⟨⟨_, hauth⟩, ?_⟩
  rw [hrun, settledCredentials, ← has_authSource hcollected hsupported, hgiven]
  cases hcredentials : authMechanismTransform env (before.options.get "credentials") (.text value) >>=
      withRest env url' (mongoClient.optionsOr options) with
  | error error =>
    rw [hfollows.2 error hcredentials]
    exact ⟨fun c hc => (by cases hc), fun error' herror => congrArg Except.error (Except.error.inj herror)⟩
  | ok c =>
    obtain ⟨selected, hselected, hsame, hworld, hc⟩ := hfollows.1 c hcredentials
    have htable : ∀ e ∈ OPTIONS.drop 5, e ∈ OPTIONS ∧ e.2.name e.1 ≠ "credentials" :=
      fun e he => ⟨List.mem_of_mem_drop he, table_rest e he⟩
    obtain ⟨set, hset, hsame', -⟩ := foldlM_sameBut hblind htable hsame hworld hrest
    have hkept : set.options.get "credentials" = c := by
      rw [← hc]
      apply MongoOptions.get_congr (foldlM_setFrom_frame hset ?_)
      exact fun e he _ => not_writes_credentials (table_rest e he)
    have hcredentials : set.options.get "credentials" =
        (settings.options.set "credentials" c).get "credentials" := by
      rw [hkept, MongoOptions.get_set_self]
    have hdbName : set.options.get "dbName" = (settings.options.set "credentials" c).get "dbName" := by
      rw [hsame'.get (by decide), MongoOptions.get_set_ne _ _ (by decide)]
    have hsettle : (settleCredentials env ((sources.allOptions env).has env.toLanguage "authSource") set.options).map
          (·.get "credentials") =
        (settleCredentials env ((sources.allOptions env).has env.toLanguage "authSource")
          (settings.options.set "credentials" c)).map (·.get "credentials") :=
      settleCredentials_congr hcredentials hdbName
    have hchain : ∀ run : Except AnyError (MongoOptions ω), (do
        let settled ← run
        return settled.get "credentials") = run.map (·.get "credentials") := by
      intro run
      cases run with
      | error error => rfl
      | ok m => rfl
    rw [hselected, ok_bind, ok_bind, hset, ok_bind, hchain, ← hsettle]
    cases hsettled : settleCredentials env ((sources.allOptions env).has env.toLanguage "authSource")
        set.options with
    | error error =>
      refine ⟨fun c' hc' => (by cases hc'), fun error' herror => ?_⟩
      cases herror
      rw [finish, hsettled]
      rfl
    | ok settled =>
      obtain ⟨r, hr, hcredentials'⟩ := finish_sameBut hsame' hsettled hfinish
      refine ⟨fun c' hc' => ⟨{ set with options := r }, ?_, ?_⟩, fun error herror => (by cases herror)⟩
      · rw [hr]
        rfl
      · cases hc'
        exact hcredentials'

end

/-! ## Acceptance -/

/-- The value is known by its name: the name of a mechanism, in whatever case, is the mechanism of the credentials that
are returned, and any other value is rejected. -/
def ByName (value : String) (result : Except AnyError (Settings ω σ)) : Prop :=
  (∀ name ∈ AuthMechanism.values, foldCase value = foldCase name →
    ∃ s, result = .ok s ∧ (s.options.get "credentials").member "mechanism" = .text name) ∧
  ((∀ name ∈ AuthMechanism.values, foldCase value ≠ foldCase name) → Rejected result)

section

variable (url : ConnectionString env.toLanguage) (options : List (String × Value ω)) (settings : MongoOptions ω)
  (name : String)

/-- With the mechanism of that name the credentials that are given pass their checks, and are more than a source. -/
def Usable : Prop :=
  ∃ credentials, givenCredentials env url options name = .ok credentials ∧
    (name ∈ ["GSSAPI", "MONGODB-X509"] → Given env url options "authSource" →
      (credentials.member "source").isText "$external") ∧
    ∃ inherited, inheritDbName env (givenValue env url options "authSource").isSome credentials
        (settings.get "dbName") = .ok inherited ∧
      validateCredentials env inherited = .ok () ∧ isAuthSourceOnly inherited = false

/-- With the mechanism of that name the credentials that are given are rejected. -/
def Refused : Prop := Rejected (settledCredentials env url options settings name)

end

section

variable {env} {url : ConnectionString env.toLanguage} {options : List (String × Value ω)} {settings : MongoOptions ω}
  {value name : String} {pattern : String → Bool} {names : List String}

theorem settledCredentials_congr (hwords : WholeWords env) (hpattern : env.wholeWord value = .ok pattern)
    (hnames : AuthMechanism.values.filter pattern = name :: names) :
    settledCredentials env url options settings value = settledCredentials env url options settings name := by
  unfold settledCredentials givenCredentials
  simp only [authMechanismTransform_congr hwords hpattern hnames]

theorem givenCredentials_selects {credentials : Value ω} (hwords : WholeWords env) (hname : name ∈ AuthMechanism.values)
    (h : givenCredentials env url options name = .ok credentials) : Selects env name credentials := by
  obtain ⟨pattern, hpattern, hnames⟩ := filter_of_name hwords hname rfl
  obtain ⟨auth, -, h⟩ := Run.bind_ok.1 h
  obtain ⟨selected, hselected, h⟩ := Run.bind_ok.1 h
  exact withRest_selects (authMechanismTransform_selects hpattern hnames hselected) (ne_empty_of_name name hname) h

section

variable {hasAuthSource : Bool} {m m' : MongoOptions ω}

/-- The credentials have another source than that of their mechanism. -/
def OtherSource (hasAuthSource : Bool) (credentials : Value ω) : Prop :=
  (credentials.member "mechanism").isOneOf ["GSSAPI", "MONGODB-X509"] ∧ hasAuthSource ∧
    ¬ (credentials.member "source").isText "$external"

theorem settleCredentials_of_other (htruthy : (m.get "credentials").truthy env.toLanguage = true)
    (hother : OtherSource hasAuthSource (m.get "credentials")) : settleCredentials env hasAuthSource m ≠ .ok m' := by
  intro h
  unfold OtherSource at hother
  unfold settleCredentials at h
  simp only at h
  rw [if_pos htruthy, if_pos hother] at h
  obtain ⟨text, -, h⟩ := Run.bind_ok.1 h
  cases h

theorem settleCredentials_of_own (htruthy : (m.get "credentials").truthy env.toLanguage = true)
    (hown : ¬ OtherSource hasAuthSource (m.get "credentials")) :
    settleCredentials env hasAuthSource m = .ok m' ↔ ∃ inherited,
      inheritDbName env hasAuthSource (m.get "credentials") (m.get "dbName") = .ok inherited ∧
        validateCredentials env inherited = .ok () ∧
        m' = if isAuthSourceOnly inherited then (m.set "credentials" inherited).delete "credentials"
          else m.set "credentials" inherited := by
  unfold OtherSource at hown
  unfold settleCredentials
  simp only
  rw [if_pos htruthy, if_neg hown, Run.bind_ok]
  apply exists_congr
  intro inherited
  rw [Run.bind_ok]
  constructor
  · rintro ⟨hinherited, ⟨⟩, hvalid, hm⟩
    exact ⟨hinherited, hvalid, (Except.ok.inj hm).symm⟩
  · rintro ⟨hinherited, hvalid, rfl⟩
    exact ⟨hinherited, (), hvalid, rfl⟩

end

/-- Credentials are settled, and not dropped, if they are usable. -/
theorem usable_iff (hwords : WholeWords env) (hname : name ∈ AuthMechanism.values) :
    Usable env url options settings name ↔
      ∃ c, settledCredentials env url options settings name = .ok c ∧ Selects env name c := by
  unfold Usable settledCredentials
  cases hgiven : givenCredentials env url options name with
  | error error =>
    constructor
    · rintro ⟨credentials, hcredentials, -⟩
      cases hcredentials
    · rintro ⟨c, hc, -⟩
      cases hc
  | ok credentials =>
    have hselects : Selects env name credentials := givenCredentials_selects hwords hname hgiven
    have hmechanism : (credentials.member "mechanism").isOneOf ["GSSAPI", "MONGODB-X509"] = true ↔
        name ∈ ["GSSAPI", "MONGODB-X509"] := by
      rw [hselects.2]
      simp [Value.isOneOf, Value.isText]
    have hauthSource : (givenValue env url options "authSource").isSome = true ↔ Given env url options "authSource" :=
      Option.isSome_iff_ne_none
    have hdbName : (settings.set "credentials" credentials).get "dbName" = settings.get "dbName" :=
      MongoOptions.get_set_ne _ _ (by decide)
    have hself : (settings.set "credentials" credentials).get "credentials" = credentials :=
      MongoOptions.get_set_self _ _ _
    have hcondition : OtherSource (givenValue env url options "authSource").isSome credentials ↔
        ¬ (name ∈ ["GSSAPI", "MONGODB-X509"] → Given env url options "authSource" →
          (credentials.member "source").isText "$external") := by
      unfold OtherSource
      rw [hmechanism, hauthSource]
      tauto
    have htruthy : ((settings.set "credentials" credentials).get "credentials").truthy env.toLanguage = true := by
      rw [hself]
      exact hselects.1
    constructor
    · rintro ⟨given, hgivenOk, hsource, inherited, hinherited, hvalid, hmore⟩
      cases hgivenOk
      have hown : ¬ OtherSource (givenValue env url options "authSource").isSome credentials :=
        fun hother => hcondition.1 hother hsource
      rw [← hself] at hown
      have hsettled := (settleCredentials_of_own htruthy hown).2
        ⟨inherited, by rw [hself, hdbName]; exact hinherited, hvalid, rfl⟩
      refine ⟨inherited, ?_, inheritDbName_selects hselects (ne_empty_of_name name hname) hinherited⟩
      rw [ok_bind, hsettled, ok_bind, hmore]
      exact congrArg Except.ok (MongoOptions.get_set_self _ _ _)
    · rintro ⟨c, hc, hselected⟩
      rw [ok_bind] at hc
      obtain ⟨settled, hsettled, hc⟩ := Run.bind_ok.1 hc
      cases hc
      have hown : ¬ OtherSource (givenValue env url options "authSource").isSome
          ((settings.set "credentials" credentials).get "credentials") :=
        fun hother => settleCredentials_of_other htruthy hother hsettled
      obtain ⟨inherited, hinherited, hvalid, rfl⟩ := (settleCredentials_of_own htruthy hown).1 hsettled
      rw [hself, hdbName] at hinherited
      rw [hself] at hown
      refine ⟨credentials, rfl, not_not.1 (mt hcondition.2 hown), inherited, hinherited, hvalid, ?_⟩
      by_contra hsourceOnly
      rw [Bool.not_eq_false] at hsourceOnly
      rw [if_pos hsourceOnly, get_delete_self] at hselected
      exact absurd hselected.1 Bool.false_ne_true

theorem selects_of_settled (hwords : WholeWords env) (hname : name ∈ AuthMechanism.values) {c : Value ω}
    (h : settledCredentials env url options settings name = .ok c) (hc : c.member "mechanism" = .text name) :
    Selects env name c := by
  obtain ⟨credentials, hgiven, h⟩ := Run.bind_ok.1 h
  obtain ⟨settled, hsettled, h⟩ := Run.bind_ok.1 h
  cases h
  have hset : Selects env name ((settings.set "credentials" credentials).get "credentials") := by
    rw [MongoOptions.get_set_self]
    exact givenCredentials_selects hwords hname hgiven
  rcases settleCredentials_selects hset (ne_empty_of_name name hname) hsettled with hdropped | hselected
  · rw [hdropped] at hc
    cases hc
  · exact hselected

end

/-- Where the parser accepts all other options, a value is known by its name exactly if it is the name of a mechanism,
in whatever case, with which the credentials can be used, or is none and a pattern that matches no name but those with
which the credentials are rejected. -/
theorem byName_iff (hwords : WholeWords env) (hblind : BlindToCredentials env) {uri : String}
    {url : ConnectionString env.toLanguage} (hurl : env.connectionString uri = .ok url)
    {mongoClient : ClientArgument ω} {options : List (String × Value ω)} {world : σ} {settings : Settings ω σ}
    (hbeside : settingsBeside env uri mongoClient options world = .ok settings) {value : String}
    (hvalue : firstValue env url (mongoClient.optionsOr options) "authMechanism" authMechanismOption.2 =
      some (.text value)) :
    ByName value (parseOptions env uri mongoClient options world) ↔
      (∃ name ∈ AuthMechanism.values, foldCase value = foldCase name ∧
        Usable env url (mongoClient.optionsOr options) settings.options name) ∨
      (∀ name ∈ AuthMechanism.values, foldCase value ≠ foldCase name) ∧
        ∃ pattern, env.wholeWord value = .ok pattern ∧ ∀ name names,
          AuthMechanism.values.filter pattern = name :: names →
            Refused env url (mongoClient.optionsOr options) settings.options name := by
  obtain ⟨⟨auth, hauth⟩, haccepted, hfailed⟩ := parse_of_settled hblind hurl hbeside hvalue
  constructor
  · rintro ⟨hknown, hother⟩
    by_cases hname : ∃ name ∈ AuthMechanism.values, foldCase value = foldCase name
    · obtain ⟨name, hmem, hfold⟩ := hname
      refine .inl ⟨name, hmem, hfold, (usable_iff hwords hmem).2 ?_⟩
      obtain ⟨s, hs, hmechanism⟩ := hknown name hmem hfold
      obtain ⟨pattern, hpattern, hnames⟩ := filter_of_name hwords hmem hfold
      rw [settledCredentials_congr hwords hpattern hnames] at haccepted hfailed
      cases hsettled : settledCredentials env url (mongoClient.optionsOr options) settings.options name with
      | error error =>
        rw [hfailed error hsettled] at hs
        cases hs
      | ok c =>
        obtain ⟨s', hs', hc⟩ := haccepted c hsettled
        obtain rfl := Except.ok.inj (hs'.symm.trans hs)
        rw [hc] at hmechanism
        exact ⟨c, rfl, selects_of_settled hwords hmem hsettled hmechanism⟩
    · have hnone : ∀ name ∈ AuthMechanism.values, foldCase value ≠ foldCase name :=
        fun name hmem heq => hname ⟨name, hmem, heq⟩
      refine .inr ⟨hnone, ?_⟩
      obtain ⟨error, herror, hcls⟩ := hother hnone
      cases hpattern : env.wholeWord value with
      | error syntaxError =>
        have hsettled : settledCredentials env url (mongoClient.optionsOr options) settings.options value =
            .error syntaxError := by
          rw [settledCredentials, givenCredentials, hauth, ok_bind, authMechanismTransform_syntaxError hpattern]
          rfl
        obtain rfl := Except.error.inj ((hfailed _ hsettled).symm.trans herror)
        exact absurd hcls (hwords.syntaxError value _ hpattern)
      | ok pattern =>
        refine ⟨pattern, rfl, fun name names hnames => ?_⟩
        rw [settledCredentials_congr hwords hpattern hnames] at haccepted hfailed
        cases hsettled : settledCredentials env url (mongoClient.optionsOr options) settings.options name with
        | error error' =>
          obtain rfl := Except.error.inj ((hfailed _ hsettled).symm.trans herror)
          exact ⟨error', hsettled, hcls⟩
        | ok c =>
          obtain ⟨s, hs, -⟩ := haccepted c hsettled
          rw [hs] at herror
          cases herror
  · rintro (⟨name, hmem, hfold, husable⟩ | ⟨hnone, pattern, hpattern, hrefused⟩)
    · constructor
      · intro name' hmem' hfold'
        obtain rfl := eq_of_foldCase name hmem name' hmem' (hfold.symm.trans hfold')
        obtain ⟨pattern, hpattern, hnames⟩ := filter_of_name hwords hmem hfold
        obtain ⟨c, hsettled, hselected⟩ := (usable_iff hwords hmem).1 husable
        rw [← settledCredentials_congr hwords hpattern hnames] at hsettled
        obtain ⟨s, hs, hc⟩ := haccepted c hsettled
        refine ⟨s, hs, ?_⟩
        rw [hc]
        exact hselected.2
      · exact fun hother => absurd hfold (hother name hmem)
    · refine ⟨fun name hmem hfold => absurd hfold (hnone name hmem), fun _ => ?_⟩
      cases hnames : AuthMechanism.values.filter pattern with
      | nil =>
        have hnone' : Rejected (authMechanismTransform env auth (.text value)) :=
          authMechanismTransform_none hpattern hnames
        obtain ⟨error, herror, hcls⟩ := hnone'
        refine ⟨error, hfailed error ?_, hcls⟩
        rw [settledCredentials, givenCredentials, hauth, ok_bind, herror]
        rfl
      | cons name names =>
        obtain ⟨error, herror, hcls⟩ := hrefused name names hnames
        rw [← settledCredentials_congr hwords hpattern hnames] at herror
        exact ⟨error, hfailed error herror, hcls⟩

end

/-! ## In the run -/

theorem blind_withReadPreferences {ω σ : Type} (cls : PreferenceClass ω) {env : Environment ω σ}
    (hblind : BlindToCredentials env) : BlindToCredentials (withReadPreferences cls env) := by
  intro key name values world m m' hsame
  simp only [withReadPreferences, hsame.get (t := "readPreference") (by decide), hblind key name values world m m' hsame]

theorem blind_sample : BlindToCredentials (withReadPreferences sampleClass sampleEnvironment) :=
  blind_withReadPreferences sampleClass fun _ _ _ _ _ _ _ => rfl

theorem wholeWords_sample : WholeWords (withReadPreferences sampleClass sampleEnvironment) := by
  constructor
  · intro value hplain
    have hall : (value.toList.all fun c => c.isAlphanum || c == '-' || c == ' ') = true := by
      rw [List.all_eq_true]
      intro c hc
      rcases hplain c hc with hc | hc
      · simp [hc]
      · simp [hc]
    exact ⟨matchesWord value, if_pos hall, fun name _ => rfl⟩
  · intro value error herror
    have hunfold : (withReadPreferences sampleClass sampleEnvironment).wholeWord value =
      if value.toList.all fun c => c.isAlphanum || c == '-' || c == ' ' then .ok (matchesWord value)
      else .error { cls := .error, message := "Invalid regular expression" } := rfl
    rw [hunfold] at herror
    split_ifs at herror
    cases herror
    decide

theorem eq_ok_of_toOption {ε α : Type} {x : Except ε α} {a : α} (h : x.toOption = some a) : x = .ok a := by
  cases x with
  | error error => cases h
  | ok b => exact congrArg Except.ok (Option.some.inj h)

/-- A user, and the name of a mechanism in lower case. -/
def lowerOptions : List (String × Value SampleObject) :=
  [("auth", .object [("username", .text "user"), ("password", .text "pencil")]),
   ("authMechanism", .text "scram-sha-256")]

/-- The parser accepts the user, and the credentials are settled with the mechanism. -/
theorem lowerOptions_beside : ∃ settings, settingsBeside (withReadPreferences sampleClass sampleEnvironment)
    "mongodb://localhost" .absent lowerOptions () = .ok settings ∧
    ∃ c, settledCredentials (withReadPreferences sampleClass sampleEnvironment) sampleUrl lowerOptions settings.options
      "SCRAM-SHA-256" = .ok c ∧ Selects (withReadPreferences sampleClass sampleEnvironment) "SCRAM-SHA-256" c := by
  have htest : ((settingsBeside (withReadPreferences sampleClass sampleEnvironment) "mongodb://localhost" .absent
      lowerOptions ()).toOption.any fun settings =>
        (settledCredentials (withReadPreferences sampleClass sampleEnvironment) sampleUrl lowerOptions settings.options
          "SCRAM-SHA-256").toOption.any fun c =>
            c.truthy sampleLanguage && (c.member "mechanism").isText "SCRAM-SHA-256") = true := by
    decide +kernel
  obtain ⟨settings, hsettings, htest⟩ := (Option.any_eq_true _ _).1 htest
  obtain ⟨c, hc, htest⟩ := (Option.any_eq_true _ _).1 htest
  rw [Bool.and_eq_true] at htest
  exact ⟨settings, eq_ok_of_toOption hsettings, c, eq_ok_of_toOption hc, htest.1, Value.eq_of_isText htest.2⟩

/-- The name of a mechanism in lower case. -/
theorem byName_iff_lower : ByName "scram-sha-256" (parseOptions (withReadPreferences sampleClass sampleEnvironment)
    "mongodb://localhost" .absent lowerOptions ()) := by
  obtain ⟨settings, hbeside, hsettled⟩ := lowerOptions_beside
  have hurl : (withReadPreferences sampleClass sampleEnvironment).connectionString "mongodb://localhost" =
      .ok sampleUrl := congrArg Except.ok (if_neg (by decide))
  have hmem : "SCRAM-SHA-256" ∈ AuthMechanism.values := by decide
  apply (byName_iff _ wholeWords_sample blind_sample hurl hbeside (by rfl)).2
  exact .inl ⟨"SCRAM-SHA-256", hmem, by decide, (usable_iff wholeWords_sample hmem).2 hsettled⟩

/-- A part of a name selects a mechanism. -/
theorem part_of_name_selects : (∀ name ∈ AuthMechanism.values, foldCase "SCRAM" ≠ foldCase name) ∧
    firstValue (withReadPreferences sampleClass sampleEnvironment) sampleUrl sampleOptions "authMechanism"
      authMechanismOption.2 = some (.text "SCRAM") ∧
    (∃ s, parseOptions (withReadPreferences sampleClass sampleEnvironment) "mongodb://localhost" .absent sampleOptions
      () = .ok s ∧ ((s.options.get "credentials").member "mechanism").isText "SCRAM-SHA-1" = true) ∧
    ¬ ByName "SCRAM" (parseOptions (withReadPreferences sampleClass sampleEnvironment) "mongodb://localhost" .absent
      sampleOptions ()) := by
  have hpart : ∀ name ∈ AuthMechanism.values, foldCase "SCRAM" ≠ foldCase name := by
    decide
  obtain ⟨s, hrun, -, hmechanism⟩ := sampleOptions_run
  refine ⟨hpart, rfl, ⟨s, hrun, hmechanism⟩, fun hbyName => ?_⟩
  obtain ⟨error, herror, -⟩ := hbyName.2 hpart
  rw [hrun] at herror
  cases herror

end MongoDriver.Options
