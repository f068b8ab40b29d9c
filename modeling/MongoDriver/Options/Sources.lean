/-
What the sources of `parseOptions` say about one name: the object's last value that is not null, the first value of
the URI under any capitalisation, and the default. The maps of the source give these, and for an option of the table
the list of all values is the object's, as an array, with the URI's and the default behind it.
-/
import MongoDriver.Options.ParseOptions

namespace MongoDriver.Options

section

variable {ω σ : Type}

/-! ## What is said about a name -/

/-- The value the object gives. -/
def objectValue (js : Language ω) (options : List (String × Value ω)) (key : String) : Option (Value ω) :=
  ((options.filter fun e => !e.2.isNullish).reverse.find? fun e => toLowerCase js e.1 = toLowerCase js key).map
    Prod.snd

/-- The options that stand in a connection string, in the order in which they stand there. -/
def uriEntries (js : Language ω) (url : ConnectionString js) : List (String × Value ω) :=
  (match pathDatabase js url with
    | .ok (some dbName) => [("dbName", .text dbName)]
    | _ => []) ++
  ((match urlAuth js url with
    | .ok (some auth) => [("auth", auth)]
    | _ => []) ++
  url.searchParams.entries.map fun e => (e.1, .text e.2))

/-- The first value in the connection string, under any capitalisation of the name. -/
def uriValue (js : Language ω) (url : ConnectionString js) (key : String) : Option (Value ω) :=
  ((uriEntries js url).find? fun e => toLowerCase js e.1 = toLowerCase js key).map Prod.snd

variable (env : Environment ω σ) (url : ConnectionString env.toLanguage) (options : List (String × Value ω))

/-- The object's value, or else the URI's. -/
def givenValue (key : String) : Option (Value ω) :=
  (objectValue env.toLanguage options key).or (uriValue env.toLanguage url key)

def Given (key : String) : Prop := givenValue env url options key ≠ none

/-- The value that `setOption` looks at: an array of the object's stands for its first element, or for nothing. -/
def firstValue (key : String) (descriptor : OptionDescriptor) : Option (Value ω) :=
  (((objectValue env.toLanguage options key).bind fun v => (toArray v).head?).or
    (uriValue env.toLanguage url key)).or (descriptor.default.map (·.value env key))

end

/-! ## Maps -/

namespace CaseInsensitiveMap

variable {ω α : Type} {js : Language ω}

theorem get?_foldl_put (entries : List (String × α)) (map : CaseInsensitiveMap α) (k : String) :
    (entries.foldl (fun map (e : String × α) => put js map e.1 e.2) map).get? k =
      ((entries.reverse.find? fun e => toLowerCase js e.1 = k).map Prod.snd).or (map.get? k) := by
  induction entries generalizing map with
  | nil => rfl
  | cons e entries ih =>
    rw [List.foldl_cons, ih, List.reverse_cons, List.find?_append, put, OrderedMap.get?_set]
    cases entries.reverse.find? fun e => toLowerCase js e.1 = k with
    | some found => rfl
    | none =>
      by_cases h : toLowerCase js e.1 = k
      · simp [h]
      · have hne : ¬ k = toLowerCase js e.1 := fun heq => h heq.symm
        simp [h, hne]

theorem get?_new (entries : List (String × α)) (k : String) :
    (new js entries).get? k = (entries.reverse.find? fun e => toLowerCase js e.1 = k).map Prod.snd := by
  rw [new, get?_foldl_put, OrderedMap.get?_empty, Option.or_none]

theorem lookup_put (map : CaseInsensitiveMap α) (name key : String) (value : α) :
    (put js map name value).lookup js key =
      if toLowerCase js key = toLowerCase js name then some value else map.lookup js key :=
  OrderedMap.get?_set map _ _ value

end CaseInsensitiveMap

/-! ## Names of the table -/

section

variable {ω : Type} (js : Language ω)

theorem toLowerCase_of_ascii {text : String} (h : text.toList.all (·.toNat < 128) = true) :
    toLowerCase js text = String.ofList (text.toList.map Char.toLower) := by
  rw [toLowerCase, if_pos h]

/-- The names are in ASCII, and stay so in lower case. -/
theorem ascii_OPTIONS : ∀ e ∈ OPTIONS, e.1.toList.all (·.toNat < 128) = true ∧
    (e.1.toList.map Char.toLower).all (·.toNat < 128) = true ∧
    (e.1.toList.map Char.toLower).map Char.toLower = e.1.toList.map Char.toLower := by
  decide +kernel

theorem toLowerCase_name {e : String × OptionDescriptor} (h : e ∈ OPTIONS) :
    toLowerCase js e.1 = String.ofList (e.1.toList.map Char.toLower) :=
  toLowerCase_of_ascii js (ascii_OPTIONS e h).1

theorem toLowerCase_toLowerCase {e : String × OptionDescriptor} (h : e ∈ OPTIONS) :
    toLowerCase js (toLowerCase js e.1) = toLowerCase js e.1 := by
  obtain ⟨-, hascii, hidem⟩ := ascii_OPTIONS e h
  rw [toLowerCase_name js h, toLowerCase_of_ascii js (by rw [String.toList_ofList]; exact hascii),
    String.toList_ofList, hidem]

/-- A number for a text, to tell texts apart by. -/
def codeOf (chars : List Char) : Nat := chars.foldl (fun n c => 128 * n + c.toNat) 0

theorem nodup_codes : (OPTIONS.map fun e => codeOf (e.1.toList.map Char.toLower)).Nodup := by
  decide

/-- No two names of the table differ in case only. -/
theorem eq_of_toLowerCase {e e' : String × OptionDescriptor} (h : e ∈ OPTIONS) (h' : e' ∈ OPTIONS)
    (heq : toLowerCase js e.1 = toLowerCase js e'.1) : e = e' := by
  rw [toLowerCase_name js h, toLowerCase_name js h', String.ofList_inj] at heq
  exact List.inj_on_of_nodup_map nodup_codes h h' (congrArg codeOf heq)

end

/-! ## The maps of the sources -/

theorem find?_of_unique {α : Type*} {p : α → Bool} {a : α} {l : List α} (ha : a ∈ l) (hp : p a = true)
    (hunique : ∀ b ∈ l, p b = true → b = a) : l.find? p = some a := by
  cases hfind : l.find? p with
  | none => exact absurd hp (List.find?_eq_none.1 hfind a ha)
  | some b => rw [hunique b (List.mem_of_find?_eq_some hfind) (List.find?_some hfind)]

section

variable {ω σ : Type} {js : Language ω}

theorem lookup_collectObjectOptions (options : List (String × Value ω)) (key : String) :
    (collectObjectOptions js options).lookup js key = objectValue js options key :=
  CaseInsensitiveMap.get?_new _ _

theorem lookup_defaultOptions (env : Environment ω σ) {e : String × OptionDescriptor} (h : e ∈ OPTIONS) :
    (defaultOptions env).lookup env.toLanguage e.1 = e.2.default.map (·.value env e.1) := by
  rw [CaseInsensitiveMap.lookup, defaultOptions, CaseInsensitiveMap.get?_new]
  have hentry : ∀ p ∈ OPTIONS.filterMap (fun e => e.2.default.map fun fallback => (e.1, fallback.value env e.1)),
      toLowerCase env.toLanguage p.1 = toLowerCase env.toLanguage e.1 →
      e.2.default.map (fun fallback => (e.1, fallback.value env e.1)) = some p := by
    intro p hp hlower
    obtain ⟨e', he', hmap⟩ := List.mem_filterMap.1 hp
    obtain ⟨fallback, hfallback, rfl⟩ := Option.map_eq_some_iff.1 hmap
    rw [← eq_of_toLowerCase env.toLanguage he' h hlower, hfallback, Option.map_some]
  cases hdefault : e.2.default with
  | none =>
    rw [List.find?_eq_none.2 fun p hp hlower => ?_]
    · rfl
    · have hnone := hentry p (List.mem_reverse.1 hp) (of_decide_eq_true hlower)
      rw [hdefault] at hnone
      cases hnone
  | some fallback =>
    rw [find?_of_unique (a := (e.1, fallback.value env e.1))]
    · rfl
    · rw [List.mem_reverse, List.mem_filterMap]
      exact ⟨e, h, by rw [hdefault, Option.map_some]⟩
    · exact decide_eq_true rfl
    · intro p hp hlower
      have hsome := hentry p (List.mem_reverse.1 hp) (of_decide_eq_true hlower)
      rw [hdefault, Option.map_some] at hsome
      exact (Option.some.inj hsome).symm

/-! ## The options of the connection string -/

variable {url : ConnectionString js}

/-- The parameters so far: the first spelling of each name decides. -/
theorem foldlM_collectParam (seen : List (String × String)) {rest : List (String × String)}
    {base m m' : CaseInsensitiveMap (List (Value ω))}
    (hm : ∀ k, m.get? k = (base.get? k).or ((seen.find? fun e => toLowerCase js e.1 = k).map fun e =>
      (url.searchParams.getAll e.1).map .text))
    (h : (rest.map (·.1)).foldlM (collectParam js url) m = .ok m') (k : String) :
    m'.get? k = (base.get? k).or (((seen ++ rest).find? fun e => toLowerCase js e.1 = k).map fun e =>
      (url.searchParams.getAll e.1).map .text) := by
  induction rest generalizing seen m with
  | nil =>
    cases h
    rw [List.append_nil, hm]
  | cons e rest ih =>
    rw [List.map_cons] at h
    obtain ⟨next, hstep, hrun⟩ := Run.foldlM_cons_ok.1 h
    rw [← List.singleton_append, ← List.append_assoc]
    refine ih (seen ++ [e]) (fun k => ?_) hrun
    rw [collectParam] at hstep
    split_ifs at hstep with hempty hhas
    · -- a spelling of the name came before
      obtain rfl := Except.ok.inj hstep
      rw [hm, List.find?_append]
      by_cases hname : toLowerCase js e.1 = k
      · subst hname
        rw [CaseInsensitiveMap.has, CaseInsensitiveMap.lookup, hm] at hhas
        cases hbase : base.get? (toLowerCase js e.1) with
        | some values => rfl
        | none =>
          rw [hbase, Option.none_or, Option.isSome_map] at hhas
          obtain ⟨first, hfirst⟩ := Option.isSome_iff_exists.1 hhas
          rw [hfirst]
          rfl
      · rw [List.find?_singleton, if_neg (by simpa using hname), Option.or_none]
    · obtain rfl := Except.ok.inj hstep
      rw [CaseInsensitiveMap.put, OrderedMap.get?_set, List.find?_append, List.find?_singleton]
      split_ifs with hk hname hname
      · subst hk
        rw [CaseInsensitiveMap.has, CaseInsensitiveMap.lookup, hm] at hhas
        have hnone := Option.not_isSome_iff_eq_none.1 hhas
        rw [Option.or_eq_none_iff, Option.map_eq_none_iff] at hnone
        rw [hnone.1, hnone.2]
        rfl
      · exact absurd (by rw [hk]; exact decide_eq_true rfl) hname
      · exact absurd (of_decide_eq_true hname).symm hk
      · rw [hm, Option.or_none]

/-- What stands in front of the parameters. -/
def headEntries (dbName : Option String) (auth : Option (Value ω)) : List (String × Value ω) :=
  dbName.elim [] (fun dbName => [("dbName", .text dbName)]) ++ auth.elim [] fun auth => [("auth", auth)]

theorem uriEntries_eq {dbName : Option String} {auth : Option (Value ω)} (hdbName : pathDatabase js url = .ok dbName)
    (hauth : urlAuth js url = .ok auth) :
    uriEntries js url = headEntries dbName auth ++ url.searchParams.entries.map fun e => (e.1, .text e.2) := by
  rw [uriEntries, hdbName, hauth, headEntries, List.append_assoc]
  cases dbName with
  | none =>
    cases auth with
    | none => rfl
    | some auth => rfl
  | some dbName =>
    cases auth with
    | none => rfl
    | some auth => rfl

theorem auth_ne_dbName : toLowerCase js "auth" ≠ toLowerCase js "dbName" := by
  rw [toLowerCase_of_ascii js (by decide), toLowerCase_of_ascii js (by decide)]
  decide

theorem get?_headOptions (dbName : Option String) (auth : Option (Value ω)) (k : String) :
    (headOptions js dbName auth).get? k =
      ((headEntries dbName auth).find? fun e => toLowerCase js e.1 = k).map fun e => [e.2] := by
  have hempty : (OrderedMap.empty : CaseInsensitiveMap (List (Value ω))).get? k = none := rfl
  cases dbName with
  | none =>
    cases auth with
    | none => rfl
    | some auth =>
      simp only [headOptions, Option.elim, CaseInsensitiveMap.put, OrderedMap.get?_set, headEntries, hempty,
        List.nil_append, List.find?_singleton, decide_eq_true_eq, eq_comm (a := k)]
      split_ifs
      all_goals rfl
  | some dbName =>
    cases auth with
    | none =>
      simp only [headOptions, Option.elim, CaseInsensitiveMap.put, OrderedMap.get?_set, headEntries, hempty,
        List.append_nil, List.find?_singleton, decide_eq_true_eq, eq_comm (a := k)]
      split_ifs
      all_goals rfl
    | some auth =>
      simp only [headOptions, Option.elim, CaseInsensitiveMap.put, OrderedMap.get?_set, headEntries, hempty,
        List.find?_append, List.find?_singleton, decide_eq_true_eq, eq_comm (a := k)]
      split_ifs with hauth hdbName hdbName
      · exact absurd (hauth.trans hdbName.symm) auth_ne_dbName
      all_goals rfl

/-- The map of the URI's options has the name exactly where the URI gives it, and begins with its first value. -/
theorem lookup_collectUrlOptions {m : CaseInsensitiveMap (List (Value ω))} (h : collectUrlOptions js url = .ok m)
    (key : String) : (m.lookup js key).isSome = (uriValue js url key).isSome ∧
      ((m.lookup js key).getD []).head? = uriValue js url key := by
  obtain ⟨dbName, hdbName, h⟩ := Run.bind_ok.1 h
  obtain ⟨auth, hauth, h⟩ := Run.bind_ok.1 h
  have hrun := foldlM_collectParam [] (fun k => (Option.or_none).symm) h (toLowerCase js key)
  rw [CaseInsensitiveMap.lookup, hrun, get?_headOptions, List.nil_append, uriValue, uriEntries_eq hdbName hauth,
    List.find?_append, List.find?_map]
  cases (headEntries dbName auth).find? fun e => toLowerCase js e.1 = toLowerCase js key with
  | some e => exact ⟨rfl, rfl⟩
  | none =>
    cases hparam : url.searchParams.entries.find? fun e => toLowerCase js e.1 = toLowerCase js key with
    | none =>
      simp only [Function.comp_def, hparam]
      exact ⟨rfl, rfl⟩
    | some e =>
      have hfirst := url.searchParams.first key e.1 e.2 hparam
      simp only [Function.comp_def, hparam, Option.map_some, Option.map_none, Option.none_or, Option.getD_some,
        List.head?_map, hfirst]
      exact ⟨rfl, trivial⟩

/-- The parameters that were read have values. -/
theorem value_ne_empty {rest : List (String × String)} {m m' : CaseInsensitiveMap (List (Value ω))}
    (h : (rest.map (·.1)).foldlM (collectParam js url) m = .ok m') :
    ∀ e ∈ rest, "" ∉ url.searchParams.getAll e.1 := by
  induction rest generalizing m with
  | nil => exact fun e he => absurd he List.not_mem_nil
  | cons e rest ih =>
    rw [List.map_cons] at h
    obtain ⟨next, hstep, hrun⟩ := Run.foldlM_cons_ok.1 h
    intro e' he'
    rcases List.mem_cons.1 he' with rfl | hin
    · intro hempty
      rw [collectParam, if_pos hempty] at hstep
      cases hstep
    · exact ih hrun e' hin

theorem pathDatabase_ne_empty {dbName : String} (h : pathDatabase js url = .ok (some dbName)) : dbName ≠ "" := by
  unfold pathDatabase at h
  by_cases hpath : url.pathname ≠ "/" ∧ url.pathname ≠ ""
  · rw [if_pos hpath] at h
    obtain ⟨decoded, -, h⟩ := Run.bind_ok.1 h
    by_cases hempty : decoded = ""
    · rw [if_neg (not_not_intro hempty)] at h
      cases h
    · rw [if_pos hempty] at h
      cases h
      exact hempty
  · rw [if_neg hpath] at h
    cases h

/-- What the URI gives is a text that is not empty, but for the credentials. -/
theorem uriValue_text {m : CaseInsensitiveMap (List (Value ω))} (h : collectUrlOptions js url = .ok m) {key : String}
    (hkey : toLowerCase js "auth" ≠ toLowerCase js key) {value : Value ω} (hvalue : uriValue js url key = some value) :
    ∃ s, value = .text s ∧ s ≠ "" := by
  obtain ⟨dbName, hdbName, h⟩ := Run.bind_ok.1 h
  obtain ⟨auth, hauth, h⟩ := Run.bind_ok.1 h
  rw [uriValue, uriEntries_eq hdbName hauth, List.find?_append, List.find?_map] at hvalue
  cases hhead : (headEntries dbName auth).find? fun e => toLowerCase js e.1 = toLowerCase js key with
  | some e =>
    rw [hhead] at hvalue
    obtain rfl := Option.some.inj hvalue
    have hname := List.find?_some hhead
    simp only [decide_eq_true_eq] at hname
    have hmem := List.mem_of_find?_eq_some hhead
    rw [headEntries, List.mem_append] at hmem
    rcases hmem with hdb | hcredentials
    · cases dbName with
      | none => exact absurd hdb List.not_mem_nil
      | some dbName =>
        obtain rfl := List.mem_singleton.1 hdb
        exact ⟨dbName, rfl, pathDatabase_ne_empty hdbName⟩
    · cases auth with
      | none => exact absurd hcredentials List.not_mem_nil
      | some auth =>
        obtain rfl := List.mem_singleton.1 hcredentials
        exact absurd hname hkey
  | none =>
    rw [hhead, Option.none_or] at hvalue
    cases hparam : url.searchParams.entries.find? fun e => toLowerCase js e.1 = toLowerCase js key with
    | none =>
      simp only [Function.comp_def, hparam] at hvalue
      cases hvalue
    | some e =>
      simp only [Function.comp_def, hparam, Option.map_some, Option.some.injEq] at hvalue
      refine ⟨e.2, hvalue.symm, fun hempty => ?_⟩
      apply value_ne_empty h e (List.mem_of_find?_eq_some hparam)
      rw [← hempty]
      exact List.mem_of_mem_head? (url.searchParams.first key e.1 e.2 hparam)

end

/-! ## All values of a name -/

section

variable {ω σ : Type} {env : Environment ω σ} {url : ConnectionString env.toLanguage}
  {options : List (String × Value ω)} {sources : Sources ω}

theorem collectSources_ok (h : collectSources env url options = .ok sources) :
    collectUrlOptions env.toLanguage url = .ok sources.urlOptions ∧
      sources.objectOptions = collectObjectOptions env.toLanguage options := by
  obtain ⟨urlOptions, hurl, h⟩ := Run.bind_ok.1 h
  simp only at h
  split_ifs at h
  cases h
  exact ⟨hurl, rfl⟩

theorem has_iff_given (h : collectSources env url options = .ok sources) (key : String) :
    sources.has env key = true ↔ Given env url options key := by
  obtain ⟨hurl, hobject⟩ := collectSources_ok h
  rw [Sources.has, CaseInsensitiveMap.has, CaseInsensitiveMap.has, hobject, lookup_collectObjectOptions,
    (lookup_collectUrlOptions hurl key).1, Given, givenValue, ← Option.isSome_or, Option.isSome_iff_ne_none]

theorem head?_values (h : collectSources env url options = .ok sources) {e : String × OptionDescriptor}
    (he : e ∈ OPTIONS) : (sources.values env e.1).head? = firstValue env url options e.1 e.2 := by
  obtain ⟨hurl, hobject⟩ := collectSources_ok h
  have harray : ∀ v : Option (Value ω), ((v.map toArray).getD []).head? = v.bind fun v => (toArray v).head? := by
    intro v
    cases v with
    | none => rfl
    | some v => rfl
  have hdefault : ∀ fallback : Fallback, toArray (fallback.value env e.1) = [fallback.value env e.1] := by
    intro fallback
    cases fallback with
    | boolean b => rfl
    | number n => rfl
    | text s => rfl
    | object => rfl
  rw [Sources.values, List.head?_append, List.head?_append, (lookup_collectUrlOptions hurl e.1).2, harray, harray,
    hobject, lookup_collectObjectOptions, lookup_defaultOptions env he, firstValue, Option.or_assoc]
  cases e.2.default with
  | none => rfl
  | some fallback => rw [Option.map_some, Option.bind_some, hdefault, List.head?_cons]

/-! ## The map of all values -/

def tlsCertificateFile : String × OptionDescriptor :=
  ("tlsCertificateFile", { target := some "cert", transform := some .file })

def tlsCertificateKeyFile : String × OptionDescriptor :=
  ("tlsCertificateKeyFile", { target := some "key", transform := some .file })

theorem tlsCertificateFile_mem : tlsCertificateFile ∈ OPTIONS := List.mem_of_getElem? (i := 72) (by decide)

theorem tlsCertificateKeyFile_mem : tlsCertificateKeyFile ∈ OPTIONS := List.mem_of_getElem? (i := 73) (by decide)

/-- The supported keys are names of the table, in lower case. -/
theorem toLowerCase_of_supported (hsupported : checkSupported env (sources.allKeys env) = .ok ()) {k : String}
    (hk : k ∈ sources.allKeys env) : toLowerCase env.toLanguage k = k := by
  unfold checkSupported at hsupported
  simp only at hsupported
  split_ifs at hsupported with hnone
  have hmem : k ∈ OPTIONS.map fun e => toLowerCase env.toLanguage e.1 := by
    by_contra hnot
    exact List.not_mem_nil (hnone ▸ List.mem_filter.2 ⟨hk, decide_eq_true hnot⟩)
  obtain ⟨e, he, rfl⟩ := List.mem_map.1 hmem
  exact toLowerCase_toLowerCase env.toLanguage he

theorem values_toLowerCase {e : String × OptionDescriptor} (he : e ∈ OPTIONS) :
    sources.values env (toLowerCase env.toLanguage e.1) = sources.values env e.1 := by
  unfold Sources.values CaseInsensitiveMap.lookup
  rw [toLowerCase_toLowerCase env.toLanguage he]

theorem values_of_notMem {e : String × OptionDescriptor}
    (h : toLowerCase env.toLanguage e.1 ∉ sources.allKeys env) : sources.values env e.1 = [] := by
  rw [Sources.allKeys, List.mem_eraseDups, List.mem_append, List.mem_append, not_or, not_or] at h
  have hnone : ∀ {α : Type} (m : CaseInsensitiveMap α), toLowerCase env.toLanguage e.1 ∉ m.keys →
      m.lookup env.toLanguage e.1 = none := by
    intro α m hm
    by_contra hsome
    exact hm (OrderedMap.mem_keys.2 (Option.ne_none_iff_exists'.1 hsome))
  rw [Sources.values, hnone _ h.1.1, hnone _ h.1.2, hnone _ h.2]
  rfl

theorem lookup_collected (hsupported : checkSupported env (sources.allKeys env) = .ok ())
    {e : String × OptionDescriptor} (he : e ∈ OPTIONS) :
    (sources.collected env).lookup env.toLanguage e.1 =
      if toLowerCase env.toLanguage e.1 ∈ sources.allKeys env then some (sources.values env e.1) else none := by
  have hentries : sources.collected env = ((sources.allKeys env).map fun k => (k, sources.values env k)).foldl
      (fun map (e : String × List (Value ω)) => CaseInsensitiveMap.put env.toLanguage map e.1 e.2) .empty := by
    rw [List.foldl_map]
    rfl
  rw [hentries, CaseInsensitiveMap.lookup, CaseInsensitiveMap.get?_foldl_put, OrderedMap.get?_empty, Option.or_none]
  split_ifs with hmem
  · rw [find?_of_unique (a := (toLowerCase env.toLanguage e.1, sources.values env (toLowerCase env.toLanguage e.1))),
      Option.map_some, values_toLowerCase he]
    · rw [List.mem_reverse]
      exact List.mem_map_of_mem hmem
    · exact decide_eq_true (toLowerCase_toLowerCase env.toLanguage he)
    · intro p hp hname
      obtain ⟨k, hk, rfl⟩ := List.mem_map.1 (List.mem_reverse.1 hp)
      have hkey := of_decide_eq_true hname
      rw [toLowerCase_of_supported hsupported hk] at hkey
      rw [hkey]
  · rw [Option.map_eq_none_iff, List.find?_eq_none]
    intro p hp hname
    obtain ⟨k, hk, rfl⟩ := List.mem_map.1 (List.mem_reverse.1 hp)
    have hkey := of_decide_eq_true hname
    rw [toLowerCase_of_supported hsupported hk] at hkey
    exact hmem (hkey ▸ hk)

theorem getD_collected (hsupported : checkSupported env (sources.allKeys env) = .ok ())
    {e : String × OptionDescriptor} (he : e ∈ OPTIONS) :
    ((sources.collected env).lookup env.toLanguage e.1).getD [] = sources.values env e.1 := by
  rw [lookup_collected hsupported he]
  split_ifs with hmem
  · rfl
  · exact (values_of_notMem hmem).symm

theorem getD_allOptions (hsupported : checkSupported env (sources.allKeys env) = .ok ())
    {e : String × OptionDescriptor} (he : e ∈ OPTIONS) (hne : e ≠ tlsCertificateFile) :
    ((sources.allOptions env).lookup env.toLanguage e.1).getD [] = sources.values env e.1 := by
  rw [← getD_collected hsupported he]
  unfold Sources.allOptions
  simp only
  split_ifs
  · have hname : toLowerCase env.toLanguage e.1 ≠ toLowerCase env.toLanguage "tlsCertificateFile" :=
      fun heq => hne (eq_of_toLowerCase env.toLanguage he tlsCertificateFile_mem heq)
    rw [CaseInsensitiveMap.lookup_put, if_neg hname]
  · rfl

theorem notMem_allKeys (h : collectSources env url options = .ok sources) {e : String × OptionDescriptor}
    (he : e ∈ OPTIONS) (hdefault : e.2.default = none) (hnot : ¬ Given env url options e.1) :
    toLowerCase env.toLanguage e.1 ∉ sources.allKeys env := by
  have hhas : ¬ sources.has env e.1 = true := fun hhas => hnot ((has_iff_given h e.1).1 hhas)
  rw [Sources.has, Bool.or_eq_true, not_or] at hhas
  rw [Sources.allKeys, List.mem_eraseDups, List.mem_append, List.mem_append]
  rintro ((hurl | hobject) | hfallback)
  · obtain ⟨values, hvalues⟩ := OrderedMap.mem_keys.1 hurl
    exact hhas.2 (Option.isSome_of_eq_some hvalues)
  · obtain ⟨value, hvalue⟩ := OrderedMap.mem_keys.1 hobject
    exact hhas.1 (Option.isSome_of_eq_some hvalue)
  · obtain ⟨value, hvalue⟩ := OrderedMap.mem_keys.1 hfallback
    have hlookup := lookup_defaultOptions env he
    rw [CaseInsensitiveMap.lookup, hvalue, hdefault] at hlookup
    cases hlookup

/-- A certificate file that is not given is the file of the key. -/
theorem getD_tlsCertificateFile (h : collectSources env url options = .ok sources)
    (hsupported : checkSupported env (sources.allKeys env) = .ok ())
    (hnot : ¬ Given env url options tlsCertificateFile.1) :
    ((sources.allOptions env).lookup env.toLanguage tlsCertificateFile.1).getD [] =
      sources.values env tlsCertificateKeyFile.1 := by
  have hfile : (sources.collected env).lookup env.toLanguage tlsCertificateFile.1 = none := by
    rw [lookup_collected hsupported tlsCertificateFile_mem,
      if_neg (notMem_allKeys h tlsCertificateFile_mem rfl hnot)]
  have hfileName : "tlsCertificateFile" = tlsCertificateFile.1 := rfl
  have hkeyName : "tlsCertificateKeyFile" = tlsCertificateKeyFile.1 := rfl
  unfold Sources.allOptions
  rw [hfileName, hkeyName]
  simp only
  split_ifs with hkey
  · rw [CaseInsensitiveMap.lookup_put, if_pos rfl, Option.getD_some,
      getD_collected hsupported tlsCertificateKeyFile_mem]
  · have hkeyFile : ¬ (sources.collected env).has env.toLanguage tlsCertificateKeyFile.1 := by
      intro hhas
      refine hkey ⟨hhas, ?_⟩
      rw [CaseInsensitiveMap.has, hfile]
      exact Bool.false_ne_true
    rw [CaseInsensitiveMap.has, Option.not_isSome_iff_eq_none] at hkeyFile
    rw [hfile, ← getD_collected hsupported tlsCertificateKeyFile_mem, hkeyFile]

end

end MongoDriver.Options
