/-
The fields of the options with a type after the loop of `parseOptions`. Which options of the table write a field of
another one, and in which order, is read off the table once; an option whose target no other given option shares has
its own first value in its field, or, without a value, what `tlsInsecure` or a certificate file left there.
-/
import MongoDriver.Options.Setting

namespace MongoDriver.Options

/-! ## The table -/

def tlsInsecure : String × OptionDescriptor := ("tlsInsecure", { transform := some .tlsInsecure })

theorem tlsInsecure_mem : tlsInsecure ∈ OPTIONS := List.mem_of_getElem? (i := 75) (by decide)

/-- An option with a default shares its target with no option that has a type. -/
theorem default_unshared : ∀ e' ∈ OPTIONS, e'.2.default.isSome → ∀ e ∈ OPTIONS, e.2.type.isSome →
    e.2.name e.1 = e'.2.name e'.1 → e.1 = e'.1 := by
  decide +kernel

/-- A file stands before the options with a type that share its target, and `tlsInsecure` behind `sslValidate` and
before the others whose fields it writes. -/
theorem table_order : OPTIONS.Pairwise fun e e' =>
    (e.2.type.isSome → (e'.2.transform = some .file → e'.2.name e'.1 ≠ e.2.name e.1) ∧
      (e'.2.transform = some .tlsInsecure →
        e.2.name e.1 = "checkServerIdentity" ∨ e.2.name e.1 = "rejectUnauthorized" → e.1 = "sslValidate")) ∧
    (e.2.transform = some .tlsInsecure → e'.1 ≠ "sslValidate") := by
  decide

/-- What is set under the names that `tlsInsecure` and the certificate file write. -/
theorem table_shared : ∀ e ∈ OPTIONS, e.2.type.isSome →
    (e.2.name e.1 = "checkServerIdentity" ∨ e.2.name e.1 = "rejectUnauthorized" →
      e.1 = "sslValidate" ∨ e.2.type = some .any) ∧
    (e.2.name e.1 = "cert" → e.2.type = some .any) ∧
    (e.1 = "sslValidate" → e.2.name e.1 = "rejectUnauthorized" ∧ e.2.type = some .boolean) := by
  decide +kernel

theorem table_transforms : ∀ e ∈ OPTIONS,
    (e.2.transform = some .tlsInsecure → e.1 = tlsInsecure.1) ∧
    e.2.name e.1 ≠ "tlsAllowInvalidCertificates" ∧ e.2.name e.1 ≠ "tlsAllowInvalidHostnames" := by
  decide +kernel

theorem nodup_OPTIONS : OPTIONS.Nodup := List.Nodup.of_map _ nodup_codes

theorem eq_of_key {e e' : String × OptionDescriptor} (h : e ∈ OPTIONS) (h' : e' ∈ OPTIONS) (heq : e.1 = e'.1) :
    e = e' :=
  List.inj_on_of_nodup_map nodup_codes h h' (by rw [heq])

theorem key_ne_of_split {e : String × OptionDescriptor} {before after : List (String × OptionDescriptor)}
    (hsplit : OPTIONS = before ++ e :: after) : (∀ e' ∈ before, e'.1 ≠ e.1) ∧ ∀ e' ∈ after, e'.1 ≠ e.1 := by
  have he : e ∈ OPTIONS := hsplit ▸ List.mem_append_right before List.mem_cons_self
  have hnodup := nodup_OPTIONS
  rw [hsplit] at hnodup
  constructor
  · intro e' hbefore heq
    obtain rfl := eq_of_key (hsplit ▸ List.mem_append_left _ hbefore) he heq
    exact (List.disjoint_of_nodup_append hnodup) hbefore List.mem_cons_self
  · intro e' hafter heq
    obtain rfl := eq_of_key (hsplit ▸ List.mem_append_right before (List.mem_cons_of_mem e hafter)) he heq
    exact (List.nodup_cons.1 (List.nodup_append.1 hnodup).2.1).1 hafter

/-! ## Values of the loop -/

section

variable {ω σ : Type} {env : Environment ω σ} {url : ConnectionString env.toLanguage}
  {options : List (String × Value ω)} {sources : Sources ω} {e e' : String × OptionDescriptor}

/-- No other given option has the target. -/
def Alone (env : Environment ω σ) (url : ConnectionString env.toLanguage) (options : List (String × Value ω))
    (e : String × OptionDescriptor) : Prop :=
  ∀ e' ∈ OPTIONS, e'.1 ≠ e.1 → e'.2.name e'.1 = e.2.name e.1 → ¬ Given env url options e'.1

/-- The sources were read, and the loop went through the table. -/
structure Looped (env : Environment ω σ) (url : ConnectionString env.toLanguage) (options : List (String × Value ω))
    (sources : Sources ω) (s s' : Settings ω σ) : Prop where
  collected : collectSources env url options = .ok sources
  supported : checkSupported env (sources.allKeys env) = .ok ()
  loop : OPTIONS.foldlM (setFrom env (sources.allOptions env)) s = .ok s'
  initial : ∀ t, s.options.get t = .undefined

variable {s s' : Settings ω σ}

namespace Looped

theorem head?_valuesOf (h : Looped env url options sources s s') (he : e ∈ OPTIONS) (hne : e ≠ tlsCertificateFile) :
    (valuesOf env (sources.allOptions env) e.1).head? = firstValue env url options e.1 e.2 := by
  rw [valuesOf, getD_allOptions h.supported he hne, head?_values h.collected he]

theorem valuesOf_eq_nil_iff (h : Looped env url options sources s s') (he : e ∈ OPTIONS)
    (hne : e ≠ tlsCertificateFile) :
    valuesOf env (sources.allOptions env) e.1 = [] ↔ firstValue env url options e.1 e.2 = none := by
  rw [← h.head?_valuesOf he hne, List.head?_eq_none_iff]

theorem valuesOf_tlsCertificateFile (h : Looped env url options sources s s')
    (hnot : ¬ Given env url options tlsCertificateFile.1) :
    valuesOf env (sources.allOptions env) tlsCertificateFile.1 = [] ↔
      firstValue env url options tlsCertificateKeyFile.1 tlsCertificateKeyFile.2 = none := by
  rw [valuesOf, getD_tlsCertificateFile h.collected h.supported hnot, ← List.head?_eq_none_iff,
    head?_values h.collected tlsCertificateKeyFile_mem]

theorem firstValue_eq_none (hgiven : ¬ Given env url options e.1) (hdefault : e.2.default = none) :
    firstValue env url options e.1 e.2 = none := by
  rw [Given, ne_eq, not_not, givenValue, Option.or_eq_none_iff] at hgiven
  rw [firstValue, hgiven.1, hgiven.2, hdefault]
  rfl

/-- Another option with the target has no value, but for the certificate file. -/
theorem valuesOf_other (h : Looped env url options sources s s') (he : e ∈ OPTIONS) (htype : e.2.type.isSome)
    (halone : Alone env url options e) (he' : e' ∈ OPTIONS) (hne : e'.1 ≠ e.1)
    (hname : e'.2.name e'.1 = e.2.name e.1) (hfile : e' ≠ tlsCertificateFile) :
    valuesOf env (sources.allOptions env) e'.1 = [] := by
  rw [h.valuesOf_eq_nil_iff he' hfile]
  apply firstValue_eq_none (halone e' he' hne hname)
  by_contra hsome
  exact hne (default_unshared e' he' (Option.isSome_iff_ne_none.2 hsome) e he htype hname.symm).symm

/-! ## The field of an option with a value -/

/-- Behind an option with a type nothing writes its field, but for `tlsInsecure` that of `sslValidate`. -/
theorem after_quiet (h : Looped env url options sources s s') (htype : e.2.type.isSome)
    (halone : Alone env url options e)
    (hvalidate : e.1 = "sslValidate" → valuesOf env (sources.allOptions env) tlsInsecure.1 = [])
    {before after : List (String × OptionDescriptor)} (hsplit : OPTIONS = before ++ e :: after) :
    ∀ e' ∈ after, valuesOf env (sources.allOptions env) e'.1 ≠ [] → ¬ Writes e' (e.2.name e.1) := by
  intro e' hafter hne hwrites
  have he : e ∈ OPTIONS := hsplit ▸ List.mem_append_right before List.mem_cons_self
  have he' : e' ∈ OPTIONS := hsplit ▸ List.mem_append_right before (List.mem_cons_of_mem e hafter)
  have hkey := (key_ne_of_split hsplit).2 e' hafter
  have horder := table_order
  rw [hsplit] at horder
  obtain ⟨hfile, hinsecure⟩ := ((List.pairwise_cons.1 (List.pairwise_append.1 horder).2.1).1 e' hafter).1 htype
  rcases hwrites with hname | ⟨-, htransform, hnames⟩
  · apply hne
    apply h.valuesOf_other he htype halone he' hkey hname
    rintro rfl
    exact hfile rfl hname
  · apply hne
    rw [(table_transforms e' he').1 htransform]
    exact hvalidate (hinsecure htransform hnames)

theorem field_of_value (h : Looped env url options sources s s') (he : e ∈ OPTIONS) {type : OptionType}
    (htype : e.2.type = some type) (halone : Alone env url options e)
    (hvalidate : e.1 = "sslValidate" → valuesOf env (sources.allOptions env) tlsInsecure.1 = []) {first : Value ω}
    (hfirst : (valuesOf env (sources.allOptions env) e.1).head? = some first)
    (hnull : ¬ (type = .string ∧ first.isNullish)) :
    convert env (e.2.name e.1) type first = .ok (s'.options.get (e.2.name e.1)) := by
  obtain ⟨before, after, hsplit⟩ := List.append_of_mem he
  have hne : valuesOf env (sources.allOptions env) e.1 ≠ [] := by
    intro hnil
    rw [hnil] at hfirst
    cases hfirst
  have hhead : (valuesOf env (sources.allOptions env) e.1).headD .undefined = first := by
    rw [List.headD_eq_head?_getD, hfirst, Option.getD_some]
  have hloop := h.loop
  rw [hsplit] at hloop
  obtain ⟨u, u', -, hset, hget⟩ := foldlM_setFrom_last hloop hne
    (h.after_quiet (by rw [htype]; rfl) halone hvalidate hsplit)
  rw [hget]
  obtain ⟨hstring, hnullish, -⟩ | ⟨value, -, hconvert, rfl⟩ := setOption_typed htype hset
  · rw [hhead] at hnullish
    exact absurd ⟨hstring, hnullish⟩ hnull
  · rw [MongoOptions.get_set_self]
    rw [hhead] at hconvert
    exact hconvert

/-! ## The field of an option without a value -/

/-- No option with a value writes the field. -/
theorem field_unwritten (h : Looped env url options sources s s') {t : String}
    (hquiet : ∀ e' ∈ OPTIONS, valuesOf env (sources.allOptions env) e'.1 ≠ [] → ¬ Writes e' t) :
    s'.options.get t = .undefined := by
  rw [MongoOptions.get_congr (foldlM_setFrom_frame h.loop hquiet), h.initial]

/-- An option that leaves its field alone. -/
theorem quiet_of_other (h : Looped env url options sources s s') (he : e ∈ OPTIONS) (htype : e.2.type.isSome)
    (halone : Alone env url options e)
    (hcert : e.2.name e.1 = "cert" → valuesOf env (sources.allOptions env) tlsCertificateFile.1 = [])
    (hinsecure : e.2.name e.1 = "checkServerIdentity" ∨ e.2.name e.1 = "rejectUnauthorized" →
      valuesOf env (sources.allOptions env) tlsInsecure.1 = []) (he' : e' ∈ OPTIONS) (hkey : e'.1 ≠ e.1)
    (hne : valuesOf env (sources.allOptions env) e'.1 ≠ []) : ¬ Writes e' (e.2.name e.1) := by
  rintro (hname | ⟨-, htransform, hnames⟩)
  · apply hne
    apply h.valuesOf_other he htype halone he' hkey hname
    rintro rfl
    exact hne (hcert hname.symm)
  · apply hne
    rw [(table_transforms e' he').1 htransform]
    exact hinsecure hnames

theorem field_unset (h : Looped env url options sources s s') (he : e ∈ OPTIONS) (htype : e.2.type.isSome)
    (halone : Alone env url options e) (hnil : valuesOf env (sources.allOptions env) e.1 = [])
    (hcert : e.2.name e.1 = "cert" → valuesOf env (sources.allOptions env) tlsCertificateFile.1 = [])
    (hinsecure : e.2.name e.1 = "checkServerIdentity" ∨ e.2.name e.1 = "rejectUnauthorized" →
      valuesOf env (sources.allOptions env) tlsInsecure.1 = []) :
    s'.options.get (e.2.name e.1) = .undefined := by
  apply h.field_unwritten
  intro e' he' hne
  by_cases hkey : e'.1 = e.1
  · rw [hkey] at hne
    exact absurd hnil hne
  · exact h.quiet_of_other he htype halone hcert hinsecure he' hkey hne

/-- A text that is null leaves its field alone. -/
theorem field_of_null (h : Looped env url options sources s s') (he : e ∈ OPTIONS)
    (htype : e.2.type = some .string) (halone : Alone env url options e) {first : Value ω}
    (hfirst : (valuesOf env (sources.allOptions env) e.1).head? = some first) (hnull : first.isNullish) :
    s'.options.get (e.2.name e.1) = .undefined := by
  have htyped : e.2.type.isSome := by rw [htype]; rfl
  obtain ⟨hnames, hcert, hvalidate⟩ := table_shared e he htyped
  have hnotValidate : e.1 ≠ "sslValidate" := by
    intro heq
    cases htype.symm.trans (hvalidate heq).2
  have hnotCert : e.2.name e.1 ≠ "cert" := by
    intro heq
    cases htype.symm.trans (hcert heq)
  have hnotInsecure : ¬ (e.2.name e.1 = "checkServerIdentity" ∨ e.2.name e.1 = "rejectUnauthorized") := by
    intro heq
    rcases hnames heq with hkey | hany
    · exact hnotValidate hkey
    · cases htype.symm.trans hany
  obtain ⟨before, after, hsplit⟩ := List.append_of_mem he
  have hne : valuesOf env (sources.allOptions env) e.1 ≠ [] := by
    intro hnil
    rw [hnil] at hfirst
    cases hfirst
  have hloop := h.loop
  rw [hsplit] at hloop
  obtain ⟨u, u', hbefore, hset, hget⟩ := foldlM_setFrom_last hloop hne
    (h.after_quiet htyped halone (fun heq => absurd heq hnotValidate) hsplit)
  rw [hget]
  obtain ⟨-, -, rfl⟩ | ⟨value, hnot, -⟩ := setOption_typed htype hset
  · rw [MongoOptions.get_congr (foldlM_setFrom_frame hbefore ?_), h.initial]
    intro e' he' hne'
    apply h.quiet_of_other he htyped halone (fun heq => absurd heq hnotCert) (fun heq => absurd heq hnotInsecure)
      (hsplit ▸ List.mem_append_left _ he') ((key_ne_of_split hsplit).1 e' he') hne'
  · refine absurd ⟨rfl, ?_⟩ hnot
    rw [List.headD_eq_head?_getD, hfirst]
    exact hnull

/-! ## Fields of two options -/

/-- What `tlsInsecure` writes stands in the end, but for an option of its own behind it. -/
theorem field_of_tlsInsecure (h : Looped env url options sources s s') (he : e ∈ OPTIONS) (htype : e.2.type.isSome)
    (halone : Alone env url options e)
    (hname : e.2.name e.1 = "checkServerIdentity" ∨ e.2.name e.1 = "rejectUnauthorized")
    (hvalue : e.1 = "sslValidate" ∨ valuesOf env (sources.allOptions env) e.1 = []) {first : Value ω}
    (hfirst : (valuesOf env (sources.allOptions env) tlsInsecure.1).head? = some first) :
    ∃ b, getBoolean env.toLanguage "tlsInsecure" first = .ok b ∧
      (e.2.name e.1 = "rejectUnauthorized" → s'.options.get (e.2.name e.1) = .boolean !b) ∧
      (e.2.name e.1 = "checkServerIdentity" →
        s'.options.get (e.2.name e.1) = if b then .other env.noop else .undefined) := by
  obtain ⟨before, after, hsplit⟩ := List.append_of_mem tlsInsecure_mem
  have hne : valuesOf env (sources.allOptions env) tlsInsecure.1 ≠ [] := by
    intro hnil
    rw [hnil] at hfirst
    cases hfirst
  have hquiet : ∀ e' ∈ after, valuesOf env (sources.allOptions env) e'.1 ≠ [] → ¬ Writes e' (e.2.name e.1) := by
    intro e' hafter hne' hwrites
    have he' : e' ∈ OPTIONS := hsplit ▸ List.mem_append_right before (List.mem_cons_of_mem _ hafter)
    have horder := table_order
    rw [hsplit] at horder
    have hbehind := ((List.pairwise_cons.1 (List.pairwise_append.1 horder).2.1).1 e' hafter).2 rfl
    rcases hwrites with hname' | ⟨-, htransform, -⟩
    · by_cases hkey : e'.1 = e.1
      · rcases hvalue with hvalidate | hnil
        · exact hbehind (hkey.trans hvalidate)
        · rw [hkey] at hne'
          exact hne' hnil
      · apply hne'
        apply h.valuesOf_other he htype halone he' hkey hname'
        rintro rfl
        rcases hname with heq | heq
        · exact absurd (hname'.trans heq) (by decide)
        · exact absurd (hname'.trans heq) (by decide)
    · exact (key_ne_of_split hsplit).2 e' hafter ((table_transforms e' he').1 htransform)
  have hloop := h.loop
  rw [hsplit] at hloop
  obtain ⟨u, u', hbefore, hset, hget⟩ := foldlM_setFrom_last hloop hne hquiet
  have hread : ∀ t, t = "tlsAllowInvalidCertificates" ∨ t = "tlsAllowInvalidHostnames" →
      u.options.get t = .undefined := by
    intro t ht
    rw [MongoOptions.get_congr (foldlM_setFrom_frame hbefore ?_), h.initial]
    rintro e' he' - (hname' | ⟨-, -, hnames⟩)
    · obtain ⟨-, hcertificates, hhostnames⟩ := table_transforms e' (hsplit ▸ List.mem_append_left _ he')
      rcases ht with rfl | rfl
      · exact hcertificates hname'
      · exact hhostnames hname'
    · rcases ht with rfl | rfl
      · exact absurd hnames (by decide)
      · exact absurd hnames (by decide)
  obtain ⟨b, hboolean, hreject, hcheck⟩ := setOption_tlsInsecure rfl rfl rfl hset (hread _ (.inl rfl))
    (hread _ (.inr rfl))
  rw [List.headD_eq_head?_getD, hfirst, Option.getD_some] at hboolean
  refine ⟨b, hboolean, fun heq => ?_, fun heq => ?_⟩
  · rw [hget, heq]
    exact hreject
  · rw [hget, heq]
    exact hcheck

/-- The certificate file stands in the end where no certificate is given. -/
theorem field_of_file (h : Looped env url options sources s s') (he : e ∈ OPTIONS) (htype : e.2.type.isSome)
    (halone : Alone env url options e) (hname : e.2.name e.1 = "cert")
    (hnil : valuesOf env (sources.allOptions env) e.1 = [])
    (hne : valuesOf env (sources.allOptions env) tlsCertificateFile.1 ≠ []) :
    ∃ text, s'.options.get (e.2.name e.1) = .text text := by
  obtain ⟨before, after, hsplit⟩ := List.append_of_mem tlsCertificateFile_mem
  have hquiet : ∀ e' ∈ after, valuesOf env (sources.allOptions env) e'.1 ≠ [] → ¬ Writes e' (e.2.name e.1) := by
    intro e' hafter hne'
    have he' : e' ∈ OPTIONS := hsplit ▸ List.mem_append_right before (List.mem_cons_of_mem _ hafter)
    rintro (hname' | ⟨-, -, hnames⟩)
    · by_cases hkey : e'.1 = e.1
      · rw [hkey] at hne'
        exact hne' hnil
      · apply hne'
        apply h.valuesOf_other he htype halone he' hkey hname'
        rintro rfl
        exact (key_ne_of_split hsplit).2 _ hafter rfl
    · rw [hname] at hnames
      exact absurd hnames (by decide)
  have hloop := h.loop
  rw [hsplit] at hloop
  obtain ⟨u, u', -, hset, hget⟩ := foldlM_setFrom_last hloop hne hquiet
  obtain ⟨text, htext⟩ := setOption_file rfl rfl hset
  refine ⟨text, ?_⟩
  rw [hget, hname]
  exact htext

end Looped

end

end MongoDriver.Options
