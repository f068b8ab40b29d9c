/-
The values of a name that the sources of `parseOptions` give in several capitalisations. Of the properties of the
object the last decides, and of the parameters of the connection string all those that are spelled like the first; the
values under the other spellings are lost.
-/
import MongoDriver.Options.Fields

namespace MongoDriver.Options

/-! ## What is given, read and lost -/

/-- `getAll` of a name, as it is spelled first, gives the values of this spelling. -/
def SearchParams.Spelled {ω : Type} {js : Language ω} (params : SearchParams js) : Prop :=
  ∀ key k value, params.entries.find? (fun e => toLowerCase js e.1 = toLowerCase js key) = some (k, value) →
    params.getAll k = (params.entries.filter (·.1 = k)).map Prod.snd

section

variable {ω : Type} (js : Language ω) (url : ConnectionString js) (options : List (String × Value ω)) (key : String)

/-- The properties of the object that are the name in some capitalisation. -/
def objectEntries : List (String × Value ω) :=
  options.filter fun e => !e.2.isNullish && toLowerCase js e.1 = toLowerCase js key

/-- The parameters of the connection string that are the name in some capitalisation. -/
def namedParams : List (String × String) :=
  url.searchParams.entries.filter fun e => toLowerCase js e.1 = toLowerCase js key

/-- A parameter is spelled like the first that is the name. -/
def spelledFirst (e : String × String) : Bool := (namedParams js url key).head?.any fun first => e.1 = first.1

/-- All values of the name, arrays taken apart: the object's, and then the connection string's. -/
def givenValues : List (Value ω) :=
  ((objectEntries js options key).flatMap fun e => toArray e.2) ++ (namedParams js url key).map fun e => .text e.2

/-- The values under the spellings that decide. -/
def readValues : List (Value ω) :=
  ((objectEntries js options key).getLast?.elim [] fun e => toArray e.2) ++
    ((namedParams js url key).filter (spelledFirst js url key)).map fun e => .text e.2

/-- The values under the other spellings. -/
def lostValues : List (Value ω) :=
  ((objectEntries js options key).dropLast.flatMap fun e => toArray e.2) ++
    ((namedParams js url key).filter fun e => !spelledFirst js url key e).map fun e => .text e.2

variable {js url options key}

theorem flatMap_eq_dropLast {α β : Type} (f : α → List β) (l : List α) :
    l.flatMap f = l.dropLast.flatMap f ++ l.getLast?.elim [] f := by
  rcases List.eq_nil_or_concat l with rfl | ⟨front, last, rfl⟩
  · rfl
  · simp

theorem length_givenValues : (givenValues js url options key).length =
    (readValues js url options key).length + (lostValues js url options key).length := by
  have hparams := List.length_eq_length_filter_add (l := namedParams js url key) (spelledFirst js url key)
  simp only [givenValues, readValues, lostValues, List.length_append, List.length_map, hparams]
  rw [flatMap_eq_dropLast, List.length_append]
  omega

theorem givenValues_of_none_lost (h : lostValues js url options key = []) :
    givenValues js url options key = readValues js url options key := by
  rw [lostValues, List.append_eq_nil_iff, List.map_eq_nil_iff] at h
  obtain ⟨hobject, hparams⟩ := h
  have hall : (namedParams js url key).filter (spelledFirst js url key) = namedParams js url key := by
    rw [List.filter_eq_self]
    intro e he
    have hnot := List.filter_eq_nil_iff.1 hparams e he
    simpa using hnot
  rw [givenValues, readValues, flatMap_eq_dropLast, hobject, List.nil_append, hall]

/-! ## What the source reads -/

theorem objectValue_eq : objectValue js options key = (objectEntries js options key).getLast?.map Prod.snd := by
  rw [objectValue, objectEntries, ← List.head?_reverse, ← List.filter_reverse, ← List.filter_reverse, List.head?_filter,
    List.find?_filter]
  simp only [Bool.decide_and, Bool.decide_eq_true]

/-- Of the parameters that are the name, those that are spelled like the first. -/
theorem filter_spelledFirst {first : String × String} (h : (namedParams js url key).head? = some first) :
    (namedParams js url key).filter (spelledFirst js url key) =
      url.searchParams.entries.filter (·.1 = first.1) := by
  have hname : toLowerCase js first.1 = toLowerCase js key := by
    have hmem : first ∈ namedParams js url key := List.mem_of_mem_head? h
    exact of_decide_eq_true (List.mem_filter.1 hmem).2
  have hspelled : spelledFirst js url key = fun e => decide (e.1 = first.1) := by
    funext e
    rw [spelledFirst, h]
    rfl
  rw [hspelled, namedParams, List.filter_filter]
  apply List.filter_congr
  intro e _
  by_cases heq : e.1 = first.1
  · simp [heq, hname]
  · simp [heq]

/-- The map of the URI's options has the parameters that are spelled like the first. -/
theorem lookup_param {m : CaseInsensitiveMap (List (Value ω))} (h : collectUrlOptions js url = .ok m)
    (hspelled : url.searchParams.Spelled) (hdb : toLowerCase js "dbName" ≠ toLowerCase js key)
    (hcredentials : toLowerCase js "auth" ≠ toLowerCase js key) :
    (m.lookup js key).getD [] = ((namedParams js url key).filter (spelledFirst js url key)).map fun e => .text e.2 := by
  obtain ⟨dbName, -, h⟩ := Run.bind_ok.1 h
  obtain ⟨auth, -, h⟩ := Run.bind_ok.1 h
  have hrun := foldlM_collectParam [] (fun k => (Option.or_none).symm) h (toLowerCase js key)
  have hhead : (headEntries dbName auth).find? (fun e => toLowerCase js e.1 = toLowerCase js key) = none := by
    rw [List.find?_eq_none]
    intro e he
    rw [decide_eq_true_eq]
    rw [headEntries, List.mem_append] at he
    rcases he with he | he
    · cases dbName with
      | none => exact absurd he List.not_mem_nil
      | some dbName =>
        obtain rfl := List.mem_singleton.1 he
        exact hdb
    · cases auth with
      | none => exact absurd he List.not_mem_nil
      | some auth =>
        obtain rfl := List.mem_singleton.1 he
        exact hcredentials
  rw [CaseInsensitiveMap.lookup, hrun, get?_headOptions, hhead, Option.map_none, Option.none_or, List.nil_append]
  cases hfirst : url.searchParams.entries.find? fun e => toLowerCase js e.1 = toLowerCase js key with
  | none =>
    have hnil : namedParams js url key = [] := by
      rw [namedParams, List.filter_eq_nil_iff]
      exact List.find?_eq_none.1 hfirst
    rw [hnil]
    rfl
  | some first =>
    have hparams : (namedParams js url key).head? = some first := by
      rw [namedParams, List.head?_filter, hfirst]
    rw [filter_spelledFirst hparams, Option.map_some, Option.getD_some, hspelled key first.1 first.2 hfirst,
      List.map_map]
    rfl

end

/-! ## In the loop -/

section

variable {ω σ : Type} {env : Environment ω σ} {url : ConnectionString env.toLanguage}
  {options : List (String × Value ω)} {sources : Sources ω} {e : String × OptionDescriptor} {s s' : Settings ω σ}

/-- The values of an option without a default are those that are read. -/
theorem Looped.valuesOf_eq (h : Looped env url options sources s s') (hspelled : url.searchParams.Spelled)
    (he : e ∈ OPTIONS) (hfile : e ≠ tlsCertificateFile) (hdefault : e.2.default = none)
    (hdb : toLowerCase env.toLanguage "dbName" ≠ toLowerCase env.toLanguage e.1)
    (hcredentials : toLowerCase env.toLanguage "auth" ≠ toLowerCase env.toLanguage e.1) :
    valuesOf env (sources.allOptions env) e.1 = readValues env.toLanguage url options e.1 := by
  obtain ⟨hurl, hobject⟩ := collectSources_ok h.collected
  rw [valuesOf, getD_allOptions h.supported he hfile, Sources.values, hobject, lookup_collectObjectOptions,
    lookup_param hurl hspelled hdb hcredentials, lookup_defaultOptions env he, hdefault, objectValue_eq, readValues]
  cases (objectEntries env.toLanguage options e.1).getLast? with
  | none => simp
  | some last => simp

end

end MongoDriver.Options
