/-
The loop of `parseOptions` over the table: an option writes the field of its own name, and `tlsInsecure` two more. A
field has in the end what the last option wrote that has a value and writes it.
-/
import MongoDriver.Options.Sources

namespace MongoDriver.Options

/-- Setting the option writes the field. -/
def Writes (e : String × OptionDescriptor) (t : String) : Prop :=
  e.2.name e.1 = t ∨
    e.2.type = none ∧ e.2.transform = some .tlsInsecure ∧ (t = "checkServerIdentity" ∨ t = "rejectUnauthorized")

section

variable {ω σ : Type} {env : Environment ω σ} {t : String}

/-! ## One option -/

theorem runTransform_frame {transform : Transform} {key name : String} {values : List (Value ω)} {value : Value ω}
    {s s' : Settings ω σ} (h : runTransform env transform key name values s = .ok (value, s'))
    (ht : transform = .tlsInsecure → t ≠ "checkServerIdentity" ∧ t ≠ "rejectUnauthorized") :
    s'.options.properties.get? t = s.options.properties.get? t := by
  cases transform with
  | auth | authMechanism | authMechanismProperties | authSource | tlsAllowInvalidCertificates
  | tlsAllowInvalidHostnames =>
    obtain ⟨value, -, h⟩ := Run.bind_ok.1 h
    cases h
    rfl
  | file =>
    obtain ⟨path, -, h⟩ := Run.bind_ok.1 h
    obtain ⟨text, -, h⟩ := Run.bind_ok.1 h
    cases h
    rfl
  | family =>
    obtain ⟨n, -, h⟩ := Run.bind_ok.1 h
    split_ifs at h
    cases h
    rfl
  | component =>
    obtain ⟨⟨value, world⟩, -, h⟩ := Run.bind_ok.1 h
    cases h
    rfl
  | tlsInsecure =>
    obtain ⟨hcheck, hreject⟩ := ht rfl
    obtain ⟨b, -, h⟩ := Run.bind_ok.1 h
    cases h
    cases b with
    | false =>
      simp only [Bool.false_eq_true, if_false]
      rw [MongoOptions.properties_set_ne _ _ hreject, MongoOptions.properties_set_ne _ _ hcheck]
    | true =>
      simp only [if_true]
      rw [MongoOptions.properties_set_ne _ _ hreject, MongoOptions.properties_set_ne _ _ hcheck]

/-- What setting an option with a type does. -/
theorem setOption_typed {e : String × OptionDescriptor} {type : OptionType} (htype : e.2.type = some type)
    {values : List (Value ω)} {s s' : Settings ω σ} (h : setOption env e.1 e.2 values s = .ok s') :
    (type = .string ∧ (values.headD .undefined).isNullish ∧ s' = s) ∨
      ∃ value, ¬ (type = .string ∧ (values.headD .undefined).isNullish) ∧
        convert env (e.2.name e.1) type (values.headD .undefined) = .ok value ∧
        s' = { s with options := s.options.set (e.2.name e.1) value } := by
  unfold setOption at h
  simp only [htype] at h
  by_cases hnull : type = .string ∧ (values.headD .undefined).isNullish
  · rw [if_pos hnull] at h
    cases h
    exact .inl ⟨hnull.1, hnull.2, rfl⟩
  · rw [if_neg hnull] at h
    obtain ⟨value, hconvert, h⟩ := Run.bind_ok.1 h
    cases h
    exact .inr ⟨value, hnull, hconvert, rfl⟩

/-- What setting an option without a type does. -/
theorem setOption_transform {e : String × OptionDescriptor} (htype : e.2.type = none) {values : List (Value ω)}
    {s s' : Settings ω σ} (h : setOption env e.1 e.2 values s = .ok s') :
    ∃ transform value next, e.2.transform = some transform ∧
      runTransform env transform e.1 (e.2.name e.1) values s = .ok (value, next) ∧
      s' = { next with options := next.options.set (e.2.name e.1) value } := by
  unfold setOption at h
  simp only [htype] at h
  cases htransform : e.2.transform with
  | none =>
    rw [htransform] at h
    cases h
  | some transform =>
    rw [htransform] at h
    obtain ⟨⟨value, next⟩, hrun, h⟩ := Run.bind_ok.1 h
    cases h
    exact ⟨transform, value, next, rfl, hrun, rfl⟩

theorem setOption_frame {e : String × OptionDescriptor} {values : List (Value ω)} {s s' : Settings ω σ}
    (h : setOption env e.1 e.2 values s = .ok s') (ht : ¬ Writes e t) :
    s'.options.properties.get? t = s.options.properties.get? t := by
  have hname : t ≠ e.2.name e.1 := fun heq => ht (.inl heq.symm)
  cases htype : e.2.type with
  | some type =>
    obtain ⟨-, -, rfl⟩ | ⟨value, -, -, rfl⟩ := setOption_typed htype h
    · rfl
    · exact MongoOptions.properties_set_ne _ _ hname
  | none =>
    obtain ⟨transform, value, next, htransform, hrun, rfl⟩ := setOption_transform htype h
    rw [MongoOptions.properties_set_ne _ _ hname]
    apply runTransform_frame hrun
    rintro rfl
    exact ⟨fun heq => ht (.inr ⟨htype, htransform, .inl heq⟩), fun heq => ht (.inr ⟨htype, htransform, .inr heq⟩)⟩

/-- The contents of a file. -/
theorem setOption_file {e : String × OptionDescriptor} (htype : e.2.type = none)
    (hfile : e.2.transform = some .file) {values : List (Value ω)} {s s' : Settings ω σ}
    (h : setOption env e.1 e.2 values s = .ok s') : ∃ text, s'.options.get (e.2.name e.1) = .text text := by
  obtain ⟨transform, value, next, htransform, hrun, rfl⟩ := setOption_transform htype h
  obtain rfl := Option.some.inj (htransform.symm.trans hfile)
  obtain ⟨path, -, hrun⟩ := Run.bind_ok.1 hrun
  obtain ⟨text, -, hrun⟩ := Run.bind_ok.1 hrun
  cases hrun
  exact ⟨text, MongoOptions.get_set_self _ _ _⟩

/-- What `tlsInsecure` writes, where the two options it reads are not set. -/
theorem setOption_tlsInsecure {e : String × OptionDescriptor} (htype : e.2.type = none)
    (hinsecure : e.2.transform = some .tlsInsecure) (hname : e.2.name e.1 = "tlsInsecure")
    {values : List (Value ω)} {s s' : Settings ω σ} (h : setOption env e.1 e.2 values s = .ok s')
    (hcertificates : s.options.get "tlsAllowInvalidCertificates" = .undefined)
    (hhostnames : s.options.get "tlsAllowInvalidHostnames" = .undefined) :
    ∃ b, getBoolean env.toLanguage "tlsInsecure" (values.headD .undefined) = .ok b ∧
      s'.options.get "rejectUnauthorized" = .boolean !b ∧
      s'.options.get "checkServerIdentity" = if b then .other env.noop else .undefined := by
  obtain ⟨transform, value, next, htransform, hrun, rfl⟩ := setOption_transform htype h
  obtain rfl := Option.some.inj (htransform.symm.trans hinsecure)
  obtain ⟨b, hboolean, hrun⟩ := Run.bind_ok.1 hrun
  rw [hname] at hboolean
  cases hrun
  refine ⟨b, hboolean, ?_⟩
  have hreject : "rejectUnauthorized" ≠ "tlsInsecure" := by decide
  have hcheck : "checkServerIdentity" ≠ "tlsInsecure" := by decide
  have hdistinct : "checkServerIdentity" ≠ "rejectUnauthorized" := by decide
  have hread : "tlsAllowInvalidCertificates" ≠ "checkServerIdentity" := by decide
  rw [hname, MongoOptions.get_set_ne _ _ hreject, MongoOptions.get_set_ne _ _ hcheck]
  cases b with
  | true =>
    simp only [if_true, Bool.not_true]
    rw [MongoOptions.get_set_self, MongoOptions.get_set_ne _ _ hdistinct, MongoOptions.get_set_self]
    exact ⟨rfl, rfl⟩
  | false =>
    simp only [Bool.false_eq_true, if_false, Bool.not_false]
    rw [MongoOptions.get_set_self, MongoOptions.get_set_ne _ _ hdistinct, MongoOptions.get_set_self,
      MongoOptions.get_set_ne _ _ hread, hcertificates, hhostnames]
    exact ⟨rfl, rfl⟩

/-! ## The loop -/

variable {allOptions : CaseInsensitiveMap (List (Value ω))}

/-- The values that the loop sets an option from. -/
def valuesOf (env : Environment ω σ) (allOptions : CaseInsensitiveMap (List (Value ω))) (key : String) :
    List (Value ω) :=
  (allOptions.lookup env.toLanguage key).getD []

theorem setFrom_cases {e : String × OptionDescriptor} {s s' : Settings ω σ}
    (h : setFrom env allOptions s e = .ok s') :
    (valuesOf env allOptions e.1 = [] ∧ s' = s) ∨
      (valuesOf env allOptions e.1 ≠ [] ∧ setOption env e.1 e.2 (valuesOf env allOptions e.1) s = .ok s') := by
  unfold setFrom at h
  unfold valuesOf
  cases hvalues : (allOptions.lookup env.toLanguage e.1).getD [] with
  | nil =>
    rw [hvalues] at h
    cases h
    exact .inl ⟨rfl, rfl⟩
  | cons value values =>
    rw [hvalues] at h
    exact .inr ⟨List.cons_ne_nil _ _, h⟩

/-- A field that no option with a value writes stays as it is. -/
theorem foldlM_setFrom_frame {table : List (String × OptionDescriptor)} {s s' : Settings ω σ}
    (h : table.foldlM (setFrom env allOptions) s = .ok s')
    (ht : ∀ e ∈ table, valuesOf env allOptions e.1 ≠ [] → ¬ Writes e t) :
    s'.options.properties.get? t = s.options.properties.get? t := by
  induction table generalizing s with
  | nil =>
    cases h
    rfl
  | cons e table ih =>
    obtain ⟨next, hstep, hrun⟩ := Run.foldlM_cons_ok.1 h
    rw [ih hrun fun e' he' => ht e' (List.mem_cons_of_mem e he')]
    obtain ⟨-, rfl⟩ | ⟨hne, hset⟩ := setFrom_cases hstep
    · rfl
    · exact setOption_frame hset (ht e List.mem_cons_self hne)

/-- The field after the loop is what the last option wrote that has a value and writes it. -/
theorem foldlM_setFrom_last {before after : List (String × OptionDescriptor)} {e : String × OptionDescriptor}
    {s s' : Settings ω σ} (h : (before ++ e :: after).foldlM (setFrom env allOptions) s = .ok s')
    (hne : valuesOf env allOptions e.1 ≠ [])
    (hafter : ∀ e' ∈ after, valuesOf env allOptions e'.1 ≠ [] → ¬ Writes e' t) :
    ∃ u u', before.foldlM (setFrom env allOptions) s = .ok u ∧
      setOption env e.1 e.2 (valuesOf env allOptions e.1) u = .ok u' ∧ s'.options.get t = u'.options.get t := by
  rw [List.foldlM_append] at h
  obtain ⟨u, hbefore, hrest⟩ := Run.bind_ok.1 h
  obtain ⟨u', hstep, hrun⟩ := Run.foldlM_cons_ok.1 hrest
  obtain ⟨hnil, -⟩ | ⟨-, hset⟩ := setFrom_cases hstep
  · exact absurd hnil hne
  · exact ⟨u, u', hbefore, hset, MongoOptions.get_congr (foldlM_setFrom_frame hrun hafter)⟩

end

/-! ## After the loop -/

/-- The fields that are written after the loop, beside `dbName` and `tls`. -/
def settledNames : List String :=
  ["credentials", "encrypter", "autoEncrypter", "userSpecifiedAuthSource", "userSpecifiedReplicaSet", "srvHost"]

section

variable {ω σ : Type} {env : Environment ω σ} {t : String} {m m' : MongoOptions ω}

theorem settleCredentials_frame {hasAuthSource : Bool} (h : settleCredentials env hasAuthSource m = .ok m')
    (ht : t ≠ "credentials") : m'.properties.get? t = m.properties.get? t := by
  unfold settleCredentials at h
  simp only at h
  by_cases htruthy : (m.get "credentials").truthy env.toLanguage
  · rw [if_pos htruthy] at h
    split_ifs at h
    · obtain ⟨text, -, h⟩ := Run.bind_ok.1 h
      cases h
    · obtain ⟨credentials, -, h⟩ := Run.bind_ok.1 h
      obtain ⟨-, -, h⟩ := Run.bind_ok.1 h
      cases h
      split_ifs
      · rw [MongoOptions.properties_delete_ne _ ht, MongoOptions.properties_set_ne _ _ ht]
      · rw [MongoOptions.properties_set_ne _ _ ht]
  · rw [if_neg htruthy] at h
    cases h
    rfl

theorem get_applyDbName (m : MongoOptions ω) (t : String) :
    (applyDbName env m).get t =
      if t = "dbName" ∧ ¬ (m.get t).truthy env.toLanguage then .text "test" else m.get t := by
  unfold applyDbName
  by_cases hname : t = "dbName"
  · subst hname
    by_cases htruthy : (m.get "dbName").truthy env.toLanguage
    · rw [if_pos htruthy, if_neg fun h => h.2 htruthy]
    · rw [if_neg htruthy, if_pos ⟨rfl, htruthy⟩, MongoOptions.get_set_self]
  · have hnot : ¬ (t = "dbName" ∧ ¬ (m.get t).truthy env.toLanguage) := fun h => hname h.1
    rw [if_neg hnot]
    split_ifs
    · rfl
    · exact MongoOptions.get_set_ne _ _ hname

theorem setEncrypter_frame {mongoClient : ClientArgument ω} {uri : String} {options : List (String × Value ω)}
    (h : setEncrypter env mongoClient uri options m = .ok m') (ht : t ≠ "encrypter" ∧ t ≠ "autoEncrypter") :
    m'.get t = m.get t := by
  unfold setEncrypter at h
  cases mongoClient with
  | absent | options =>
    cases h
    rfl
  | client =>
    simp only at h
    split_ifs at h
    · obtain ⟨⟨encrypter, autoEncrypter⟩, -, h⟩ := Run.bind_ok.1 h
      cases h
      rw [MongoOptions.get_set_ne _ _ ht.2, MongoOptions.get_set_ne _ _ ht.1]
    · cases h
      rfl

theorem get_settleSrv {url : ConnectionString env.toLanguage} {sources : Sources ω}
    (h : settleSrv env url sources m = .ok m') (ht : t ≠ "srvHost") :
    m'.get t = if t = "tls" ∧ url.isSRV ∧ ¬ sources.has env "tls" ∧ ¬ sources.has env "ssl" then .boolean true
      else m.get t := by
  unfold settleSrv at h
  by_cases hsrv : url.isSRV
  · simp only [hsrv, if_true] at h
    split_ifs at h with hdirect hmax hgiven
    · cases h
      by_cases hname : t = "tls"
      · subst hname
        rw [MongoOptions.get_set_self, if_pos ⟨rfl, hsrv, hgiven⟩]
      · rw [MongoOptions.get_set_ne _ _ hname, MongoOptions.get_set_ne _ _ ht, if_neg fun h => hname h.1]
    · cases h
      rw [MongoOptions.get_set_ne _ _ ht, if_neg fun h => hgiven h.2.2]
  · simp only [hsrv, Bool.false_eq_true, if_false] at h
    split_ifs at h
    cases h
    rw [if_neg fun h => hsrv h.2.1]

/-- What becomes of a field that the loop has set. -/
theorem get_finish {mongoClient : ClientArgument ω} {uri : String} {options : List (String × Value ω)}
    {url : ConnectionString env.toLanguage} {sources : Sources ω}
    (h : finish env mongoClient uri options url sources m = .ok m') (ht : t ∉ settledNames) :
    m'.get t =
      if t = "tls" ∧ url.isSRV ∧ ¬ sources.has env "tls" ∧ ¬ sources.has env "ssl" then .boolean true
      else if t = "dbName" ∧ ¬ (m.get t).truthy env.toLanguage then .text "test"
      else m.get t := by
  simp only [settledNames, List.mem_cons, List.not_mem_nil, or_false, not_or] at ht
  obtain ⟨hcredentials, hencrypter, hautoEncrypter, hauthSource, hreplicaSet, hsrvHost⟩ := ht
  obtain ⟨m₁, hsettle, h⟩ := Run.bind_ok.1 h
  obtain ⟨-, -, h⟩ := Run.bind_ok.1 h
  obtain ⟨-, -, h⟩ := Run.bind_ok.1 h
  obtain ⟨-, -, h⟩ := Run.bind_ok.1 h
  obtain ⟨m₂, hencrypt, h⟩ := Run.bind_ok.1 h
  obtain ⟨m₃, hsrv, h⟩ := Run.bind_ok.1 h
  obtain ⟨-, -, h⟩ := Run.bind_ok.1 h
  cases h
  rw [get_settleSrv hsrv hsrvHost, MongoOptions.get_set_ne _ _ hreplicaSet, MongoOptions.get_set_ne _ _ hauthSource,
    setEncrypter_frame hencrypt ⟨hencrypter, hautoEncrypter⟩, get_applyDbName,
    MongoOptions.get_congr (settleCredentials_frame hsettle hcredentials)]

end

end MongoDriver.Options
