/-
The field of an option with a type, against what it is to be set from: the object's value, else the first value of the
URI, else its default. The source puts the values of all sources into one list and takes the first, which is the
object's value unless this is an array: of an array it takes the first element, and the next source's value if there
is none. A field without a value may be written by another option, and two fields are settled after the loop.
-/
import MongoDriver.Options.Conversions
import MongoDriver.Options.Fields

namespace MongoDriver.Options

section

variable {ω σ : Type}

/-! ## What is to be set, and when it is -/

section

variable (env : Environment ω σ) (url : ConnectionString env.toLanguage) (options : List (String × Value ω))
  (e : String × OptionDescriptor) (type : OptionType)

/-- The default. SRV turns on TLS by default, and the database is `test` by default. -/
def fallbackValue : Value ω :=
  match e.2.default with
  | some fallback => fallback.value env e.1
  | none =>
    if e.2.name e.1 = "tls" ∧ url.isSRV then .boolean true
    else if e.2.name e.1 = "dbName" then .text "test"
    else .undefined

/-- What the option is to become. -/
def resolved : Except AnyError (Value ω) :=
  match givenValue env url options e.1 with
  | some value => convert env (e.2.name e.1) type value
  | none => .ok (fallbackValue env url e)

/-- `tlsInsecure`, where it has a value. -/
def tlsInsecureSetting : Option Bool :=
  (firstValue env url options tlsInsecure.1 tlsInsecure.2).bind fun value =>
    (getBoolean env.toLanguage "tlsInsecure" value).toOption

/-- The value is no array, or one whose first element stands for the whole. -/
def ReadAsWhole (value : Value ω) : Prop :=
  ∀ values, value = .array values → ∃ first rest, values = first :: rest ∧ ¬ first.isNullish ∧
    convert env (e.2.name e.1) type value = convert env (e.2.name e.1) type first

/-- No other option writes the field of an option without a value: not `tlsInsecure`, and not the file of the client's
key, which stands for that of the certificate. -/
structure LeftAlone : Prop where
  rejectUnauthorized : e.2.name e.1 = "rejectUnauthorized" → tlsInsecureSetting env url options = none
  checkServerIdentity : e.2.name e.1 = "checkServerIdentity" → tlsInsecureSetting env url options ≠ some true
  cert : e.2.name e.1 = "cert" → firstValue env url options tlsCertificateKeyFile.1 tlsCertificateKeyFile.2 = none

/-- Where the source keeps to the precedence. A given value is read as a whole, or `tlsInsecure` says the same as
`sslValidate`; the name of the database is not empty; the field of an option that is not given is left alone. -/
structure Honoured : Prop where
  whole : ∀ value, givenValue env url options e.1 = some value →
    (e.1 = "sslValidate" → tlsInsecureSetting env url options = none) → ReadAsWhole env e type value
  insecure : ∀ value, givenValue env url options e.1 = some value →
    e.1 = "sslValidate" → ∀ b, tlsInsecureSetting env url options = some b →
      convert env (e.2.name e.1) type value = .ok (.boolean !b)
  database : ∀ value, givenValue env url options e.1 = some value →
    e.1 = "dbName" → convert env (e.2.name e.1) type value ≠ .ok (.text "")
  absent : givenValue env url options e.1 = none → LeftAlone env url options e

end

/-! ## After the loop -/

theorem table_settled : ∀ e ∈ OPTIONS, e.2.type.isSome → e.2.name e.1 ∉ settledNames ∧ e.1 ≠ "auth" ∧
    (e.2.name e.1 = "tls" → (e.1 = "tls" ∨ e.1 = "ssl") ∧ e.2.type = some .boolean) ∧
    (e.2.name e.1 = "dbName" → e.1 = "dbName" ∧ e.2.type = some .string) ∧
    (e.1 = "dbName" → e.2.name e.1 = "dbName") ∧
    (e.2.default.isSome → e.2.name e.1 ∉ ["tls", "dbName", "rejectUnauthorized", "checkServerIdentity", "cert"]) := by
  decide +kernel

variable {env : Environment ω σ} {url : ConnectionString env.toLanguage} {options : List (String × Value ω)}
  {e : String × OptionDescriptor} {type : OptionType} {sources : Sources ω} {s₀ s : Settings ω σ}

/-- What the field is in the end: `dbName` and `tls` have defaults of their own. -/
structure Finished (env : Environment ω σ) (url : ConnectionString env.toLanguage)
    (options : List (String × Value ω)) (e : String × OptionDescriptor) (field final : Value ω) : Prop where
  given : Given env url options e.1 →
    final = if e.2.name e.1 = "dbName" ∧ ¬ field.truthy env.toLanguage then .text "test" else field
  absent : ¬ Given env url options e.1 →
    final = if e.2.name e.1 = "tls" ∧ url.isSRV then .boolean true
      else if e.2.name e.1 = "dbName" ∧ ¬ field.truthy env.toLanguage then .text "test" else field

/-- No option with the target is given. -/
theorem Alone.not_given (halone : Alone env url options e) (hnot : ¬ Given env url options e.1) {key : String}
    {descriptor : OptionDescriptor} (hmem : (key, descriptor) ∈ OPTIONS)
    (hname : descriptor.name key = e.2.name e.1) : ¬ Given env url options key := by
  by_cases hkey : key = e.1
  · rw [hkey]
    exact hnot
  · exact halone (key, descriptor) hmem hkey hname

theorem tls_mem : ("tls", { type := some .boolean }) ∈ OPTIONS := List.mem_of_getElem? (i := 68) (by decide)

theorem ssl_mem : ("ssl", { target := some "tls", type := some .boolean }) ∈ OPTIONS :=
  List.mem_of_getElem? (i := 61) (by decide)

theorem finished_of_finish (h : Looped env url options sources s₀ s) (he : e ∈ OPTIONS) (htype : e.2.type.isSome)
    (halone : Alone env url options e) {mongoClient : ClientArgument ω} {uri : String} {m : MongoOptions ω}
    (hfinish : finish env mongoClient uri options url sources s.options = .ok m) :
    Finished env url options e (s.options.get (e.2.name e.1)) (m.get (e.2.name e.1)) := by
  obtain ⟨hsettled, -, htls, -⟩ := table_settled e he htype
  constructor
  · intro hgiven
    rw [get_finish hfinish hsettled]
    have hnot : ¬ (e.2.name e.1 = "tls" ∧ url.isSRV ∧ ¬ sources.has env "tls" ∧ ¬ sources.has env "ssl") := by
      rintro ⟨hname, -, hnotTls, hnotSsl⟩
      rw [has_iff_given h.collected] at hnotTls hnotSsl
      rcases (htls hname).1 with hkey | hkey
      · exact hnotTls (hkey ▸ hgiven)
      · exact hnotSsl (hkey ▸ hgiven)
    rw [if_neg hnot]
  · intro hnot
    rw [get_finish hfinish hsettled]
    by_cases hname : e.2.name e.1 = "tls"
    · have hnotTls : ¬ sources.has env "tls" := by
        rw [has_iff_given h.collected]
        exact halone.not_given hnot tls_mem hname.symm
      have hnotSsl : ¬ sources.has env "ssl" := by
        rw [has_iff_given h.collected]
        exact halone.not_given hnot ssl_mem hname.symm
      by_cases hsrv : url.isSRV
      · rw [if_pos ⟨hname, hsrv, hnotTls, hnotSsl⟩, if_pos ⟨hname, hsrv⟩]
      · have hnotFinish : ¬ (e.2.name e.1 = "tls" ∧ url.isSRV ∧ ¬ sources.has env "tls" ∧ ¬ sources.has env "ssl") :=
          fun hcond => hsrv hcond.2.1
        have hnotHere : ¬ (e.2.name e.1 = "tls" ∧ url.isSRV) := fun hcond => hsrv hcond.2
        rw [if_neg hnotFinish, if_neg hnotHere]
    · have hnotFinish : ¬ (e.2.name e.1 = "tls" ∧ url.isSRV ∧ ¬ sources.has env "tls" ∧ ¬ sources.has env "ssl") :=
        fun hcond => hname hcond.1
      have hnotHere : ¬ (e.2.name e.1 = "tls" ∧ url.isSRV) := fun hcond => hname hcond.1
      rw [if_neg hnotFinish, if_neg hnotHere]

/-! ## An option without a value -/

theorem tlsInsecureSetting_none (hnone : firstValue env url options tlsInsecure.1 tlsInsecure.2 = none) :
    tlsInsecureSetting env url options = none := by
  rw [tlsInsecureSetting, hnone, Option.bind_none]

theorem tlsInsecureSetting_some {first : Value ω} {b : Bool}
    (hfirst : firstValue env url options tlsInsecure.1 tlsInsecure.2 = some first)
    (hboolean : getBoolean env.toLanguage "tlsInsecure" first = .ok b) :
    tlsInsecureSetting env url options = some b := by
  rw [tlsInsecureSetting, hfirst, Option.bind_some, hboolean]
  rfl

theorem ne_tlsCertificateFile (htype : e.2.type.isSome) : e ≠ tlsCertificateFile := by
  rintro rfl
  cases htype

theorem tlsInsecure_ne : tlsInsecure ≠ tlsCertificateFile := by
  decide

/-- The field of an option without a value is left undefined where no other option writes it, and is no array. -/
theorem field_without_value (h : Looped env url options sources s₀ s) (he : e ∈ OPTIONS) (htype : e.2.type.isSome)
    (halone : Alone env url options e) (hnil : firstValue env url options e.1 e.2 = none) :
    (s.options.get (e.2.name e.1) = .undefined ↔ LeftAlone env url options e) ∧
      ∀ values, s.options.get (e.2.name e.1) ≠ .array values := by
  rw [← h.valuesOf_eq_nil_iff he (ne_tlsCertificateFile htype)] at hnil
  by_cases hinsecure : e.2.name e.1 = "checkServerIdentity" ∨ e.2.name e.1 = "rejectUnauthorized"
  · have hcert : e.2.name e.1 ≠ "cert" := by
      intro heq
      rw [heq] at hinsecure
      exact absurd hinsecure (by decide)
    cases hfirst : firstValue env url options tlsInsecure.1 tlsInsecure.2 with
    | none =>
      have hvalues := (h.valuesOf_eq_nil_iff tlsInsecure_mem tlsInsecure_ne).2 hfirst
      have hunset := h.field_unset he htype halone hnil (fun heq => absurd heq hcert) fun _ => hvalues
      have hsetting := tlsInsecureSetting_none hfirst
      rw [hunset]
      refine ⟨⟨fun _ => ⟨fun _ => hsetting, fun _ => ?_, fun heq => absurd heq hcert⟩, fun _ => rfl⟩,
        fun values harray => (by cases harray)⟩
      rw [hsetting]
      exact fun heq => (by cases heq)
    | some first =>
      have hhead := h.head?_valuesOf tlsInsecure_mem tlsInsecure_ne
      rw [hfirst] at hhead
      obtain ⟨b, hboolean, hreject, hcheck⟩ :=
        h.field_of_tlsInsecure he htype halone hinsecure (.inr hnil) hhead
      have hsetting := tlsInsecureSetting_some hfirst hboolean
      rcases hinsecure with hname | hname
      · rw [hcheck hname]
        have hother : e.2.name e.1 ≠ "rejectUnauthorized" := by
          rw [hname]
          decide
        cases b with
        | true =>
          refine ⟨⟨fun heq => (by cases heq), fun hleft => ?_⟩, fun values harray => (by cases harray)⟩
          exact absurd hsetting (hleft.checkServerIdentity hname)
        | false =>
          refine ⟨⟨fun _ => ⟨fun heq => absurd heq hother, fun _ => ?_, fun heq => absurd heq hcert⟩, fun _ => rfl⟩,
            fun values harray => (by cases harray)⟩
          rw [hsetting]
          exact fun heq => (by cases heq)
      · rw [hreject hname]
        refine ⟨⟨fun heq => (by cases heq), fun hleft => ?_⟩, fun values harray => (by cases harray)⟩
        cases hsetting.symm.trans (hleft.rejectUnauthorized hname)
  · rw [not_or] at hinsecure
    obtain ⟨hcheck, hreject⟩ := hinsecure
    have hquiet : ¬ (e.2.name e.1 = "checkServerIdentity" ∨ e.2.name e.1 = "rejectUnauthorized") :=
      not_or.2 ⟨hcheck, hreject⟩
    by_cases hcert : e.2.name e.1 = "cert"
    · have hfileKey : tlsCertificateFile.1 ≠ e.1 := by
        intro heq
        exact ne_tlsCertificateFile htype (eq_of_key tlsCertificateFile_mem he heq).symm
      have hvalues := h.valuesOf_tlsCertificateFile (halone _ tlsCertificateFile_mem hfileKey hcert.symm)
      by_cases hkeyFile : firstValue env url options tlsCertificateKeyFile.1 tlsCertificateKeyFile.2 = none
      · have hunset := h.field_unset he htype halone hnil (fun _ => hvalues.2 hkeyFile) (fun heq => absurd heq hquiet)
        rw [hunset]
        exact ⟨⟨fun _ => ⟨fun heq => absurd heq hreject, fun heq => absurd heq hcheck, fun _ => hkeyFile⟩,
          fun _ => rfl⟩, fun values harray => (by cases harray)⟩
      · obtain ⟨text, htext⟩ := h.field_of_file he htype halone hcert hnil fun heq => hkeyFile (hvalues.1 heq)
        rw [htext]
        exact ⟨⟨fun heq => (by cases heq), fun hleft => absurd (hleft.cert hcert) hkeyFile⟩,
          fun values harray => (by cases harray)⟩
    · have hunset := h.field_unset he htype halone hnil (fun heq => absurd heq hcert) (fun heq => absurd heq hquiet)
      rw [hunset]
      exact ⟨⟨fun _ => ⟨fun heq => absurd heq hreject, fun heq => absurd heq hcheck, fun heq => absurd heq hcert⟩,
        fun _ => rfl⟩, fun values harray => (by cases harray)⟩

/-! ## An option that is not given -/

theorem fallback_not_nullish (fallback : Fallback) (key : String) :
    ¬ (fallback.value env key : Value ω).isNullish = true := by
  cases fallback with
  | boolean | number | text | object =>
    intro hnull
    cases hnull

theorem LeftAlone.of_name (hreject : e.2.name e.1 ≠ "rejectUnauthorized")
    (hcheck : e.2.name e.1 ≠ "checkServerIdentity") (hcert : e.2.name e.1 ≠ "cert") : LeftAlone env url options e := by
  constructor
  · exact fun heq => absurd heq hreject
  · exact fun heq => absurd heq hcheck
  · exact fun heq => absurd heq hcert

theorem absent_iff (h : Looped env url options sources s₀ s) (he : e ∈ OPTIONS) (htype : e.2.type = some type)
    (halone : Alone env url options e) {final : Value ω}
    (hfinished : Finished env url options e (s.options.get (e.2.name e.1)) final)
    (hnone : givenValue env url options e.1 = none) :
    fallbackValue env url e = final ↔ LeftAlone env url options e := by
  have htyped : e.2.type.isSome := by rw [htype]; rfl
  have hnot : ¬ Given env url options e.1 := not_not.2 hnone
  rw [hfinished.absent hnot, fallbackValue]
  cases hdefault : e.2.default with
  | some fallback =>
    obtain ⟨-, -, -, -, -, hnames⟩ := table_settled e he htyped
    specialize hnames (by rw [hdefault]; rfl)
    simp only [List.mem_cons, List.not_mem_nil, or_false, not_or] at hnames
    obtain ⟨htls, hdbName, hreject, hcheck, hcert⟩ := hnames
    have hfits := defaults_fit e he
    rw [htype, hdefault] at hfits
    have hfirst : firstValue env url options e.1 e.2 = some (fallback.value env e.1) := by
      rw [givenValue, Option.or_eq_none_iff] at hnone
      rw [firstValue, hnone.1, hnone.2, hdefault]
      rfl
    rw [← h.head?_valuesOf he (ne_tlsCertificateFile htyped)] at hfirst
    have hfield := h.field_of_value he htype halone
      (fun heq => absurd ((table_shared e he htyped).2.2 heq).1 hreject) hfirst
      fun hnull => fallback_not_nullish fallback e.1 hnull.2
    rw [convert_fallback hfits] at hfield
    rw [← Except.ok.inj hfield]
    simp only [htls, hdbName, false_and, if_false, true_iff]
    exact .of_name hreject hcheck hcert
  | none =>
    have hfirst := Looped.firstValue_eq_none hnot hdefault
    obtain ⟨hunset, -⟩ := field_without_value h he htyped halone hfirst
    by_cases hspecial : e.2.name e.1 = "tls" ∨ e.2.name e.1 = "dbName"
    · have hleft : LeftAlone env url options e := by
        rcases hspecial with hname | hname
        · apply LeftAlone.of_name
          all_goals rw [hname]; decide
        · apply LeftAlone.of_name
          all_goals rw [hname]; decide
      rw [hunset.2 hleft]
      simp [Value.truthy, hleft]
    · rw [not_or] at hspecial
      simp only [hspecial.1, hspecial.2, false_and, if_false]
      rw [eq_comm]
      exact hunset

/-! ## An option that is given -/

theorem readAsWhole_iff {value first : Value ω} (hfirst : (toArray value).head? = some first)
    (hnull : ¬ first.isNullish = true) :
    ReadAsWhole env e type value ↔
      convert env (e.2.name e.1) type value = convert env (e.2.name e.1) type first := by
  cases value with
  | array values =>
    cases values with
    | nil => cases hfirst
    | cons head rest =>
      obtain rfl := Option.some.inj hfirst
      constructor
      · intro hwhole
        obtain ⟨first, tail, hvalues, -, hconvert⟩ := hwhole _ rfl
        rw [List.cons.injEq] at hvalues
        rw [hconvert, hvalues.1]
      · intro hconvert values hvalues
        exact ⟨head, rest, (Value.array.inj hvalues).symm, hnull, hconvert⟩
  | _ =>
    obtain rfl := Option.some.inj hfirst
    exact ⟨fun _ => rfl, fun _ values hvalues => (by cases hvalues)⟩

theorem auth_mem : ("auth", { target := some "credentials", transform := some .auth }) ∈ OPTIONS :=
  List.mem_of_getElem? (i := 1) (by decide)

/-- What the URI gives for an option with a type is a text that is not empty. -/
theorem uriValue_of_typed (h : collectSources env url options = .ok sources) (he : e ∈ OPTIONS)
    (htype : e.2.type.isSome) {value : Value ω} (hvalue : uriValue env.toLanguage url e.1 = some value) :
    ∃ text, value = .text text ∧ text ≠ "" := by
  apply uriValue_text (collectSources_ok h).1 (fun heq => ?_) hvalue
  have hauth := eq_of_toLowerCase env.toLanguage auth_mem he heq
  rw [← hauth] at htype
  cases htype

/-- A given value is read through its first element; an array without elements leaves it to the URI and the
default. -/
theorem firstValue_of_given (h : collectSources env url options = .ok sources) (he : e ∈ OPTIONS)
    (htype : e.2.type.isSome) {value : Value ω} (hvalue : givenValue env url options e.1 = some value) :
    (∀ first, (toArray value).head? = some first → firstValue env url options e.1 e.2 = some first) ∧
      (value = .array [] → firstValue env url options e.1 e.2 =
        (uriValue env.toLanguage url e.1).or (e.2.default.map (·.value env e.1))) := by
  rw [givenValue] at hvalue
  rw [firstValue]
  cases hobject : objectValue env.toLanguage options e.1 with
  | some v =>
    rw [hobject] at hvalue
    obtain rfl := Option.some.inj hvalue
    constructor
    · intro first hfirst
      rw [Option.bind_some, hfirst]
      rfl
    · rintro rfl
      rfl
  | none =>
    rw [hobject, Option.none_or] at hvalue
    obtain ⟨text, rfl, -⟩ := uriValue_of_typed h he htype hvalue
    constructor
    · intro first hfirst
      rw [Option.bind_none, Option.none_or, hvalue]
      exact hfirst
    · intro harray
      cases harray

/-- An option with an array without elements has the text of the URI or its default for a value, if any. -/
theorem firstValue_of_empty (h : collectSources env url options = .ok sources) (he : e ∈ OPTIONS)
    (htype : e.2.type = some type) (hvalue : givenValue env url options e.1 = some (.array [])) {first : Value ω}
    (hfirst : firstValue env url options e.1 e.2 = some first) :
    (∃ text, first = .text text ∧ text ≠ "") ∨
      ∃ fallback : Fallback, fallback.fits type = true ∧ first = fallback.value env e.1 := by
  rw [(firstValue_of_given h he (by rw [htype]; rfl) hvalue).2 rfl] at hfirst
  cases huri : uriValue env.toLanguage url e.1 with
  | some value =>
    rw [huri] at hfirst
    obtain rfl := Option.some.inj hfirst
    exact .inl (uriValue_of_typed h he (by rw [htype]; rfl) huri)
  | none =>
    rw [huri, Option.none_or] at hfirst
    obtain ⟨fallback, hdefault, rfl⟩ := Option.map_eq_some_iff.1 hfirst
    have hfits := defaults_fit e he
    rw [htype, hdefault] at hfits
    exact .inr ⟨fallback, hfits, rfl⟩

/-- The object's and the URI's values are not null. -/
theorem givenValue_not_nullish (h : collectSources env url options = .ok sources) (he : e ∈ OPTIONS)
    (htype : e.2.type.isSome) {value : Value ω} (hvalue : givenValue env url options e.1 = some value) :
    ¬ value.isNullish = true := by
  rw [givenValue] at hvalue
  cases hobject : objectValue env.toLanguage options e.1 with
  | some v =>
    rw [hobject] at hvalue
    obtain rfl := Option.some.inj hvalue
    obtain ⟨entry, hentry, rfl⟩ := Option.map_eq_some_iff.1 hobject
    have hmem := List.mem_filter.1 (List.mem_reverse.1 (List.mem_of_find?_eq_some hentry))
    simpa using hmem.2
  | none =>
    rw [hobject, Option.none_or] at hvalue
    obtain ⟨text, rfl, -⟩ := uriValue_of_typed h he htype hvalue
    intro hnull
    cases hnull

/-- A text is converted to a text, and the name of the database falls back on `test` if it is empty. -/
theorem final_eq_iff (he : e ∈ OPTIONS) (htype : e.2.type = some type) {value field final : Value ω}
    (hfinal : final = if e.2.name e.1 = "dbName" ∧ ¬ field.truthy env.toLanguage then .text "test" else field)
    (hconvert : convert env (e.2.name e.1) type value = .ok field) :
    field = final ↔ (e.1 = "dbName" → convert env (e.2.name e.1) type value ≠ .ok (.text "")) := by
  obtain ⟨-, -, -, hstring, hname, -⟩ := table_settled e he (by rw [htype]; rfl)
  by_cases hkey : e.1 = "dbName"
  · obtain rfl := Option.some.inj (htype.symm.trans (hstring (hname hkey)).2)
    obtain ⟨text, -, hfield⟩ := Run.bind_ok.1 hconvert
    obtain rfl := Except.ok.inj hfield
    rw [hfinal, hconvert]
    by_cases hempty : text = ""
    · subst hempty
      rw [if_pos ⟨hname hkey, by simp [Value.truthy]⟩]
      constructor
      · intro heq
        exact absurd (Value.text.inj heq) (by decide)
      · intro hne
        exact absurd rfl (hne hkey)
    · rw [if_neg fun hcond => hcond.2 (decide_eq_true hempty)]
      refine ⟨fun _ _ heq => ?_, fun _ => rfl⟩
      exact hempty (Value.text.inj (Except.ok.inj heq))
  · rw [hfinal, if_neg fun hcond => hkey (hstring hcond.1).1]
    exact ⟨fun _ heq => absurd heq hkey, fun _ => rfl⟩

/-- A database that is an array is not named `test` because its first element is empty. -/
theorem array_ne_test (he : e ∈ OPTIONS) (htype : e.2.type = some type) (hname : e.2.name e.1 = "dbName")
    {first : Value ω} {rest : List (Value ω)} (hfirst : Value.elementText env.toLanguage first = .ok "") :
    convert env (e.2.name e.1) type (.array (first :: rest)) ≠ .ok (.text "test") := by
  obtain ⟨-, -, -, hstring, -⟩ := table_settled e he (by rw [htype]; rfl)
  obtain rfl := Option.some.inj (htype.symm.trans (hstring hname).2)
  intro hconvert
  obtain ⟨text, htext, heq⟩ := Run.bind_ok.1 hconvert
  obtain rfl := Value.text.inj (Except.ok.inj heq)
  exact toText_array_ne hfirst (by decide) htext

/-- A value with the conversion that the field has in the end is converted like its first element. -/
theorem convert_eq_of_final (he : e ∈ OPTIONS) (htype : e.2.type = some type) {value first field final : Value ω}
    (hfinal : final = if e.2.name e.1 = "dbName" ∧ ¬ field.truthy env.toLanguage then .text "test" else field)
    (hfirst : (toArray value).head? = some first) (hnull : ¬ first.isNullish = true)
    (hfield : convert env (e.2.name e.1) type first = .ok field)
    (hvalue : convert env (e.2.name e.1) type value = .ok final) :
    convert env (e.2.name e.1) type value = convert env (e.2.name e.1) type first := by
  cases value with
  | array values =>
    cases values with
    | nil => cases hfirst
    | cons head rest =>
      obtain rfl := Option.some.inj hfirst
      by_cases htest : e.2.name e.1 = "dbName" ∧ ¬ field.truthy env.toLanguage
      · obtain ⟨-, -, -, hstring, -⟩ := table_settled e he (by rw [htype]; rfl)
        obtain rfl := Option.some.inj (htype.symm.trans (hstring htest.1).2)
        obtain ⟨text, htext, heq⟩ := Run.bind_ok.1 hfield
        obtain rfl := Except.ok.inj heq
        have hempty : text = "" := by simpa [Value.truthy] using htest.2
        rw [hempty, ← elementText_eq hnull] at htext
        rw [hfinal, if_pos htest] at hvalue
        exact absurd hvalue (array_ne_test he htype htest.1 htext)
      · rw [hvalue, hfield, hfinal, if_neg htest]
  | _ =>
    obtain rfl := Option.some.inj hfirst
    rfl

/-- A text is under a name of its own. -/
theorem leftAlone_of_string (he : e ∈ OPTIONS) (htype : e.2.type = some .string) : LeftAlone env url options e := by
  obtain ⟨hnames, hcert, hvalidate⟩ := table_shared e he (by rw [htype]; rfl)
  have hnot : ¬ (e.1 = "sslValidate" ∨ e.2.type = some .any) := by
    rintro (hkey | hany)
    · cases htype.symm.trans (hvalidate hkey).2
    · cases htype.symm.trans hany
  apply LeftAlone.of_name
  · exact fun heq => hnot (hnames (.inr heq))
  · exact fun heq => hnot (hnames (.inl heq))
  · exact fun heq => hnot (.inr (hcert heq))

section

variable (h : Looped env url options sources s₀ s) (he : e ∈ OPTIONS) (htype : e.2.type = some type)
  (halone : Alone env url options e) {final : Value ω}
  (hfinished : Finished env url options e (s.options.get (e.2.name e.1)) final)

include h he htype halone hfinished

/-- The value is read through an element. -/
theorem given_of_first
    (hinsecure : e.1 = "sslValidate" → valuesOf env (sources.allOptions env) tlsInsecure.1 = []) {value first : Value ω}
    (hvalue : givenValue env url options e.1 = some value) (hfirst : (toArray value).head? = some first)
    (hnull : ¬ first.isNullish = true) :
    convert env (e.2.name e.1) type value = .ok final ↔ ReadAsWhole env e type value ∧
      (e.1 = "dbName" → convert env (e.2.name e.1) type value ≠ .ok (.text "")) := by
  have htyped : e.2.type.isSome := by rw [htype]; rfl
  have hgiven : Given env url options e.1 := by
    rw [Given, hvalue]
    exact Option.some_ne_none value
  have hhead := h.head?_valuesOf he (ne_tlsCertificateFile htyped)
  rw [(firstValue_of_given h.collected he htyped hvalue).1 first hfirst] at hhead
  have hfield := h.field_of_value he htype halone hinsecure hhead fun hboth => hnull hboth.2
  have hfinal := hfinished.given hgiven
  have hiff := final_eq_iff he htype hfinal hfield
  rw [readAsWhole_iff hfirst hnull]
  constructor
  · intro hconvert
    have hsame := convert_eq_of_final he htype hfinal hfirst hnull hfield hconvert
    refine ⟨hsame, ?_⟩
    rw [hsame, ← hiff]
    rw [hsame, hfield] at hconvert
    exact Except.ok.inj hconvert
  · rintro ⟨hsame, hempty⟩
    rw [hsame, ← hiff] at hempty
    rw [hsame, hfield, hempty]

/-- The first element is null. -/
theorem given_of_null
    (hinsecure : e.1 = "sslValidate" → valuesOf env (sources.allOptions env) tlsInsecure.1 = [])
    {first : Value ω} {rest : List (Value ω)} (hvalue : givenValue env url options e.1 = some (.array (first :: rest)))
    (hnull : first.isNullish = true) : convert env (e.2.name e.1) type (.array (first :: rest)) ≠ .ok final := by
  have htyped : e.2.type.isSome := by rw [htype]; rfl
  have hgiven : Given env url options e.1 := by
    rw [Given, hvalue]
    exact Option.some_ne_none _
  have hfinal := hfinished.given hgiven
  have hhead := h.head?_valuesOf he (ne_tlsCertificateFile htyped)
  rw [(firstValue_of_given h.collected he htyped hvalue).1 first rfl] at hhead
  by_cases hstring : type = .string
  · subst hstring
    rw [h.field_of_null he htype halone hhead hnull] at hfinal
    intro hconvert
    by_cases hname : e.2.name e.1 = "dbName"
    · rw [hfinal, if_pos ⟨hname, by simp [Value.truthy]⟩] at hconvert
      exact array_ne_test he htype hname (elementText_nullish hnull) hconvert
    · rw [hfinal, if_neg fun hcond => hname hcond.1] at hconvert
      obtain ⟨text, -, heq⟩ := Run.bind_ok.1 hconvert
      cases heq
  · have hfield := h.field_of_value he htype halone hinsecure hhead fun hboth => hstring hboth.1
    by_cases hany : type = .any
    · subst hany
      obtain ⟨-, -, -, hname, -⟩ := table_settled e he htyped
      rw [if_neg fun hcond => (by cases htype.symm.trans (hname hcond.1).2), ← Except.ok.inj hfield] at hfinal
      rintro heq
      rw [hfinal] at heq
      rw [← Except.ok.inj heq] at hnull
      cases hnull
    · exact absurd hfield (convert_nullish_ne_ok hnull hstring hany _)

/-- There is no element. -/
theorem given_of_empty
    (hinsecure : e.1 = "sslValidate" → valuesOf env (sources.allOptions env) tlsInsecure.1 = [])
    (hvalue : givenValue env url options e.1 = some (.array [])) :
    convert env (e.2.name e.1) type (.array []) ≠ .ok final := by
  have htyped : e.2.type.isSome := by rw [htype]; rfl
  have hgiven : Given env url options e.1 := by
    rw [Given, hvalue]
    exact Option.some_ne_none _
  have hfinal := hfinished.given hgiven
  by_cases hplain : type = .string ∨ type = .any
  · -- the text that the option is set from, if it is
    have htext : ∀ first, firstValue env url options e.1 e.2 = some first →
        ∃ text, text ≠ "" ∧ s.options.get (e.2.name e.1) = .text text := by
      intro first hfirst
      have hfirstText : ∃ text, first = .text text ∧ text ≠ "" := by
        obtain htext | ⟨fallback, hfits, rfl⟩ := firstValue_of_empty h.collected he htype hvalue hfirst
        · exact htext
        · rcases hplain with rfl | rfl
          · cases fallback with
            | text text => exact ⟨text, rfl, of_decide_eq_true hfits⟩
            | _ => cases hfits
          · cases fallback with
            | _ => cases hfits
      obtain ⟨text, rfl, hne⟩ := hfirstText
      rw [← h.head?_valuesOf he (ne_tlsCertificateFile htyped)] at hfirst
      have hfield := h.field_of_value he htype halone hinsecure hfirst fun hboth => (by cases hboth.2)
      refine ⟨text, hne, ?_⟩
      rcases hplain with rfl | rfl
      · exact (Except.ok.inj hfield).symm
      · exact (Except.ok.inj hfield).symm
    rcases hplain with rfl | rfl
    · intro hconvert
      obtain ⟨empty, hempty, heq⟩ := Run.bind_ok.1 hconvert
      rw [Value.toText, Value.joinText] at hempty
      obtain rfl := Except.ok.inj hempty
      rw [← Except.ok.inj heq] at hfinal
      cases hfirst : firstValue env url options e.1 e.2 with
      | none =>
        rw [(field_without_value h he htyped halone hfirst).1.2 (leftAlone_of_string he htype)] at hfinal
        split_ifs at hfinal
        exact absurd (Value.text.inj hfinal) (by decide)
      | some first =>
        obtain ⟨text, hne, hfield⟩ := htext first hfirst
        rw [hfield, if_neg fun hcond => hcond.2 (decide_eq_true hne)] at hfinal
        exact hne (Value.text.inj hfinal).symm
    · obtain ⟨-, -, -, hname, -⟩ := table_settled e he htyped
      rw [if_neg fun hcond => (by cases htype.symm.trans (hname hcond.1).2)] at hfinal
      intro hconvert
      rw [← Except.ok.inj hconvert] at hfinal
      cases hfirst : firstValue env url options e.1 e.2 with
      | none => exact (field_without_value h he htyped halone hfirst).2 [] hfinal.symm
      | some first =>
        obtain ⟨text, -, hfield⟩ := htext first hfirst
        rw [hfield] at hfinal
        cases hfinal
  · rw [not_or] at hplain
    exact convert_empty_ne_ok hplain.1 hplain.2 final

theorem given_iff
    (hinsecure : e.1 = "sslValidate" → valuesOf env (sources.allOptions env) tlsInsecure.1 = []) {value : Value ω}
    (hvalue : givenValue env url options e.1 = some value) :
    convert env (e.2.name e.1) type value = .ok final ↔ ReadAsWhole env e type value ∧
      (e.1 = "dbName" → convert env (e.2.name e.1) type value ≠ .ok (.text "")) := by
  have htyped : e.2.type.isSome := by rw [htype]; rfl
  cases hfirst : (toArray value).head? with
  | some first =>
    by_cases hnull : first.isNullish = true
    · cases value with
      | array values =>
        cases values with
        | nil => cases hfirst
        | cons head rest =>
          obtain rfl := Option.some.inj hfirst
          have hne := given_of_null h he htype halone hfinished hinsecure hvalue hnull
          refine ⟨fun heq => absurd heq hne, ?_⟩
          rintro ⟨hwhole, -⟩
          obtain ⟨first, tail, hvalues, hnot, -⟩ := hwhole _ rfl
          rw [List.cons.injEq] at hvalues
          rw [hvalues.1] at hnull
          exact absurd hnull hnot
      | _ =>
        obtain rfl := Option.some.inj hfirst
        exact absurd hnull (givenValue_not_nullish h.collected he htyped hvalue)
    · exact given_of_first h he htype halone hfinished hinsecure hvalue hfirst hnull
  | none =>
    cases value with
    | array values =>
      obtain rfl : values = [] := List.head?_eq_none_iff.1 hfirst
      have hne := given_of_empty h he htype halone hfinished hinsecure hvalue
      refine ⟨fun heq => absurd heq hne, ?_⟩
      rintro ⟨hwhole, -⟩
      obtain ⟨first, tail, hvalues, -⟩ := hwhole _ rfl
      cases hvalues
    | _ => cases hfirst

/-- `sslValidate` beside `tlsInsecure`. -/
theorem sslValidate_iff (hkey : e.1 = "sslValidate")
    {first : Value ω} (hfirst : firstValue env url options tlsInsecure.1 tlsInsecure.2 = some first) {value : Value ω}
    (hvalue : givenValue env url options e.1 = some value) :
    ∃ b, tlsInsecureSetting env url options = some b ∧ final = .boolean !b := by
  have htyped : e.2.type.isSome := by rw [htype]; rfl
  have hgiven : Given env url options e.1 := by
    rw [Given, hvalue]
    exact Option.some_ne_none _
  obtain ⟨hreject, -⟩ := (table_shared e he htyped).2.2 hkey
  have hhead := h.head?_valuesOf tlsInsecure_mem tlsInsecure_ne
  rw [hfirst] at hhead
  obtain ⟨b, hboolean, hfield, -⟩ := h.field_of_tlsInsecure he htyped halone (.inr hreject) (.inl hkey) hhead
  refine ⟨b, tlsInsecureSetting_some hfirst hboolean, ?_⟩
  have hname : e.2.name e.1 ≠ "dbName" := by
    rw [hreject]
    decide
  rw [hfinished.given hgiven, if_neg fun hcond => hname hcond.1, hfield hreject]

end

/-! ## Both together -/

theorem honoured_of_given {value : Value ω} (hvalue : givenValue env url options e.1 = some value) :
    Honoured env url options e type ↔
      ((e.1 = "sslValidate" → tlsInsecureSetting env url options = none) → ReadAsWhole env e type value) ∧
      (e.1 = "sslValidate" → ∀ b, tlsInsecureSetting env url options = some b →
        convert env (e.2.name e.1) type value = .ok (.boolean !b)) ∧
      (e.1 = "dbName" → convert env (e.2.name e.1) type value ≠ .ok (.text "")) := by
  constructor
  · intro hhonoured
    exact ⟨hhonoured.whole value hvalue, hhonoured.insecure value hvalue, hhonoured.database value hvalue⟩
  · rintro ⟨hwhole, hinsecure, hdatabase⟩
    have hsame : ∀ value', givenValue env url options e.1 = some value' → value' = value := by
      intro value' heq
      exact Option.some.inj (heq.symm.trans hvalue)
    constructor
    · intro value' heq
      rw [hsame value' heq]
      exact hwhole
    · intro value' heq
      rw [hsame value' heq]
      exact hinsecure
    · intro value' heq
      rw [hsame value' heq]
      exact hdatabase
    · intro heq
      cases hvalue.symm.trans heq

theorem honoured_of_absent (hnone : givenValue env url options e.1 = none) :
    Honoured env url options e type ↔ LeftAlone env url options e := by
  have hnot : ∀ value, givenValue env url options e.1 ≠ some value := by
    intro value heq
    cases hnone.symm.trans heq
  constructor
  · exact fun hhonoured => hhonoured.absent hnone
  · intro hleft
    constructor
    · exact fun value heq => absurd heq (hnot value)
    · exact fun value heq => absurd heq (hnot value)
    · exact fun value heq => absurd heq (hnot value)
    · exact fun _ => hleft

theorem resolved_of_given {value : Value ω} (hvalue : givenValue env url options e.1 = some value) :
    resolved env url options e type = convert env (e.2.name e.1) type value := by
  rw [resolved, hvalue]

theorem resolved_of_absent (hnone : givenValue env url options e.1 = none) :
    resolved env url options e type = .ok (fallbackValue env url e) := by
  rw [resolved, hnone]

theorem resolved_iff (h : Looped env url options sources s₀ s) (he : e ∈ OPTIONS) (htype : e.2.type = some type)
    (halone : Alone env url options e) {final : Value ω}
    (hfinished : Finished env url options e (s.options.get (e.2.name e.1)) final) :
    resolved env url options e type = .ok final ↔ Honoured env url options e type := by
  cases hvalue : givenValue env url options e.1 with
  | none =>
    rw [resolved_of_absent hvalue, honoured_of_absent hvalue, ← absent_iff h he htype halone hfinished hvalue]
    exact ⟨fun heq => Except.ok.inj heq, fun heq => congrArg Except.ok heq⟩
  | some value =>
    rw [resolved_of_given hvalue, honoured_of_given hvalue]
    by_cases hkey : e.1 = "sslValidate"
    · have hname : e.1 ≠ "dbName" := by
        rw [hkey]
        decide
      cases hfirst : firstValue env url options tlsInsecure.1 tlsInsecure.2 with
      | none =>
        have hsetting := tlsInsecureSetting_none hfirst
        have hvalues := (h.valuesOf_eq_nil_iff tlsInsecure_mem tlsInsecure_ne).2 hfirst
        apply (given_iff h he htype halone hfinished (fun _ => hvalues) hvalue).trans
        simp [hsetting]
      | some first =>
        obtain ⟨b, hsetting, rfl⟩ := sslValidate_iff h he htype halone hfinished hkey hfirst hvalue
        simp [hkey, hsetting]
    · apply (given_iff h he htype halone hfinished (fun heq => absurd heq hkey) hvalue).trans
      simp [hkey]

end

end MongoDriver.Options
