/-
The precedence of the sources of `parseOptions` over a whole run: an option whose target no other given option shares
is set as it is to be exactly where the source reads its value as a whole and leaves its field alone. An array is not
kept whole.
-/
import MongoDriver.Options.Resolved

namespace MongoDriver.Options

/-! ## Every accepted run -/

section

variable {ω σ : Type} {env : Environment ω σ} {url : ConnectionString env.toLanguage} {s : Settings ω σ}

/-- What an accepted run went through. -/
theorem parseOptions_ok {uri : String} {mongoClient : ClientArgument ω} {options : List (String × Value ω)} {world : σ}
    (hurl : env.connectionString uri = .ok url) (h : parseOptions env uri mongoClient options world = .ok s) :
    ∃ sources s₀ s₁, Looped env url (mongoClient.optionsOr options) sources s₀ s₁ ∧
      finish env mongoClient uri (mongoClient.optionsOr options) url sources s₁.options = .ok s.options := by
  unfold parseOptions at h
  obtain ⟨url', hurl', h⟩ := Run.bind_ok.1 h
  obtain rfl := Except.ok.inj (hurl'.symm.trans hurl)
  obtain ⟨hosts, -, h⟩ := Run.bind_ok.1 h
  obtain ⟨sources, hcollected, h⟩ := Run.bind_ok.1 h
  obtain ⟨-, -, h⟩ := Run.bind_ok.1 h
  obtain ⟨⟨⟩, hsupported, h⟩ := Run.bind_ok.1 h
  obtain ⟨s₁, hloop, h⟩ := Run.bind_ok.1 h
  obtain ⟨m, hfinish, h⟩ := Run.bind_ok.1 h
  cases h
  exact ⟨sources, _, s₁, ⟨hcollected, hsupported, hloop, fun t => rfl⟩, hfinish⟩

/-- An option with a type whose target no other given option shares is set from the object's value, else from the
first value of the URI, else from its default, exactly where the source keeps to that. -/
theorem precedence_iff (env : Environment ω σ) {uri : String} {url : ConnectionString env.toLanguage}
    (hurl : env.connectionString uri = .ok url) {mongoClient : ClientArgument ω} {options : List (String × Value ω)}
    {world : σ} {s : Settings ω σ} (h : parseOptions env uri mongoClient options world = .ok s)
    {e : String × OptionDescriptor} (he : e ∈ OPTIONS) {type : OptionType} (htype : e.2.type = some type)
    (halone : Alone env url (mongoClient.optionsOr options) e) :
    resolved env url (mongoClient.optionsOr options) e type = .ok (s.options.get (e.2.name e.1)) ↔
      Honoured env url (mongoClient.optionsOr options) e type := by
  obtain ⟨sources, s₀, s₁, hlooped, hfinish⟩ := parseOptions_ok hurl h
  exact resolved_iff hlooped he htype halone
    (finished_of_finish hlooped he (by rw [htype]; rfl) halone hfinish)

end

/-! ## A run -/

/-- A runtime, for addresses without a port and texts in ASCII. -/
def plainLanguage : Language String where
  url text := some (String.ofList (text.toList.drop 10), none)
  decodeURIComponent := some
  toLowerCase text := text
  fractionText _ := ""
  objectText _ := .ok "[object Object]"
  otherText := .ok
  otherTruthy _ := true
  isFunction _ := false

/-- `mongodb://localhost`. -/
def plainUrl : ConnectionString plainLanguage where
  isSRV := false
  hosts := ["localhost"]
  pathname := ""
  username := ""
  password := none
  searchParams := ⟨[], fun _ => [], fun key k value h => (by cases h)⟩

/-- Objects are known by the names of the options that have them as values. -/
def plainEnvironment : Environment String Unit where
  toLanguage := plainLanguage
  connectionString _ := .ok plainUrl
  readFileSync _ := .error { cls := .error, message := "ENOENT: no such file or directory" }
  processEnv _ := none
  noop := "() => undefined"
  wholeWord value := .ok (· == value)
  instanceOf key := key
  transform _ name _ _ world := .ok (if name = "compressors" then .array [.text "none"] else .other name, world)
  encrypter _ _ := .error { cls := .mongoInvalidArgumentError, message := "" }

/-- Two certificate authorities, and an option that is false. -/
def severalAuthorities : List (String × Value String) :=
  [("ca", .array [.text "a", .text "b"]), ("retryWrites", .boolean false)]

theorem severalAuthorities_accepted : ((parseOptions plainEnvironment "mongodb://localhost" .absent severalAuthorities
    ()).toOption.any fun s => (s.options.get "ca").isText "a") = true := by
  decide +kernel

theorem severalAuthorities_run : ∃ s, parseOptions plainEnvironment "mongodb://localhost" .absent severalAuthorities
    () = .ok s ∧ s.options.get "ca" = .text "a" := by
  have haccepted := severalAuthorities_accepted
  generalize parseOptions plainEnvironment "mongodb://localhost" .absent severalAuthorities () = run at haccepted
  cases run with
  | error error => cases haccepted
  | ok s =>
    refine ⟨s, rfl, ?_⟩
    have hfield : (s.options.get "ca").isText "a" = true := haccepted
    generalize s.options.get "ca" = field at hfield
    cases field with
    | text text => exact congrArg Value.text (of_decide_eq_true hfield)
    | _ => cases hfield

theorem givenValue_severalAuthorities (key : String) : givenValue plainEnvironment plainUrl severalAuthorities key =
    if toLowerCase plainLanguage key = "retrywrites" then some (.boolean false)
    else if toLowerCase plainLanguage key = "ca" then some (.array [.text "a", .text "b"]) else none := by
  have hretryWrites : toLowerCase plainLanguage "retryWrites" = "retrywrites" := by decide
  have hca : toLowerCase plainLanguage "ca" = "ca" := by decide
  have hunfold : givenValue plainEnvironment plainUrl severalAuthorities key =
      (objectValue plainLanguage severalAuthorities key).or none := rfl
  have hfilter : ([("ca", .array [.text "a", .text "b"]), ("retryWrites", .boolean false)] :
      List (String × Value String)).filter (fun e => !e.2.isNullish) =
      [("ca", .array [.text "a", .text "b"]), ("retryWrites", .boolean false)] := rfl
  rw [hunfold, Option.or_none, objectValue, severalAuthorities, hfilter]
  by_cases hfirst : toLowerCase plainLanguage key = "retrywrites"
  · simp [hfirst, hretryWrites]
  · by_cases hsecond : toLowerCase plainLanguage key = "ca"
    · simp [hsecond, hretryWrites, hca]
    · simp only [List.reverse_cons, List.reverse_nil, List.nil_append, List.cons_append, List.find?_cons, hretryWrites,
        hca, Ne.symm hfirst, Ne.symm hsecond, hfirst, hsecond, decide_false, List.find?_nil, Option.map_none, if_false]

theorem severalAuthorities_alone {e : String × OptionDescriptor} (h : ∀ e' ∈ OPTIONS, e'.1 ≠ e.1 →
    e'.2.name e'.1 = e.2.name e.1 → toLowerCase plainLanguage e'.1 ≠ "retrywrites" ∧
      toLowerCase plainLanguage e'.1 ≠ "ca") : Alone plainEnvironment plainUrl severalAuthorities e := by
  intro e' he' hkey hname hgiven
  obtain ⟨hfirst, hsecond⟩ := h e' he' hkey hname
  apply hgiven
  rw [givenValue_severalAuthorities, if_neg hfirst, if_neg hsecond]

def retryWrites : String × OptionDescriptor := ("retryWrites", { type := some .boolean, default := some (.boolean true) })

def certificateAuthorities : String × OptionDescriptor := ("ca", { type := some .any })

/-- An option that is false stays so. -/
theorem precedence_iff_false : ∃ s, parseOptions plainEnvironment "mongodb://localhost" .absent severalAuthorities
    () = .ok s ∧ s.options.get "retryWrites" = .boolean false := by
  obtain ⟨s, hrun, -⟩ := severalAuthorities_run
  refine ⟨s, hrun, ?_⟩
  have hvalue : givenValue plainEnvironment plainUrl severalAuthorities retryWrites.1 = some (.boolean false) := by
    rw [givenValue_severalAuthorities, if_pos (by decide)]
  have hhonoured : Honoured plainEnvironment plainUrl severalAuthorities retryWrites .boolean := by
    rw [honoured_of_given hvalue]
    refine ⟨fun _ values harray => (by cases harray), fun heq => ?_, fun heq => ?_⟩
    · exact absurd heq (by decide)
    · exact absurd heq (by decide)
  have hurl : plainEnvironment.connectionString "mongodb://localhost" = .ok plainUrl := rfl
  have hresolved := (precedence_iff plainEnvironment hurl hrun
    (List.mem_of_getElem? (i := 54) (by decide) : retryWrites ∈ OPTIONS) rfl
    (severalAuthorities_alone (by decide +kernel))).2 hhonoured
  exact (Except.ok.inj ((resolved_of_given hvalue).symm.trans hresolved)).symm

/-- Of several certificate authorities the first alone is kept. -/
theorem array_is_taken_apart : ∃ s, parseOptions plainEnvironment "mongodb://localhost" .absent severalAuthorities
    () = .ok s ∧ Alone plainEnvironment plainUrl severalAuthorities certificateAuthorities ∧
      resolved plainEnvironment plainUrl severalAuthorities certificateAuthorities .any =
        .ok (.array [.text "a", .text "b"]) ∧
      s.options.get "ca" = .text "a" := by
  obtain ⟨s, hrun, hfield⟩ := severalAuthorities_run
  have hvalue : givenValue plainEnvironment plainUrl severalAuthorities certificateAuthorities.1 =
      some (.array [.text "a", .text "b"]) := by
    rw [givenValue_severalAuthorities, if_neg (by decide), if_pos (by decide)]
  exact ⟨s, hrun, severalAuthorities_alone (by decide +kernel), resolved_of_given hvalue, hfield⟩

end MongoDriver.Options
