/-
The cache of derived keys of the SCRAM mechanisms (`src/cmap/auth/scram.ts`, `HI`). It is shared by both
mechanisms, and its key is made of the password, the salt and the iteration count, so what it returns is right as
long as the two mechanisms never ask for the same three.
-/
import MongoDriver.Base.Base64
import MongoDriver.Base.Number
import MongoDriver.Base.OrderedMap
import MongoDriver.Cmap.Commands

namespace MongoDriver.Auth

open Cmap (Buffer)

inductive CryptoMethod
  | sha1
  | sha256
deriving DecidableEq, Repr

def hiLengthMap : CryptoMethod → Nat
  | .sha256 => 32
  | .sha1 => 20

/-- `crypto.pbkdf2Sync(password, salt, iterations, keylen, digest)`, which throws or returns the derived key. -/
abbrev Pbkdf2Sync := String → Buffer → Js.Number → Nat → CryptoMethod → Except AnyError Buffer

/-- `_hiCache` and `_hiCacheCount`. No inherited property of the cache's object has a name that ends in a number's
text, so a key is found only if it was set. -/
structure HiCache where
  entries : OrderedMap String Buffer
  count : Nat

/-- `_hiCachePurge()`, which is also how the module starts. -/
def hiCachePurge : HiCache := { entries := .empty, count := 0 }

def toBase64 (buffer : Buffer) : String := String.ofList (Base64.encode buffer)

/-- `[data, salt.toString('base64'), iterations].join('_')`. -/
def hiKey (data : String) (salt : Buffer) (iterations : Js.Number) : String :=
  "_".intercalate [data, toBase64 salt, String.ofList iterations.text]

def HI (pbkdf2Sync : Pbkdf2Sync) (cache : HiCache) (data : String) (salt : Buffer) (iterations : Js.Number)
    (cryptoMethod : CryptoMethod) : Except AnyError Buffer × HiCache :=
  -- omit the work if already generated
  let key := hiKey data salt iterations
  match cache.entries.get? key with
  | some saltedData => (.ok saltedData, cache)
  | none =>
    match pbkdf2Sync data salt iterations (hiLengthMap cryptoMethod) cryptoMethod with
    | .error e => (.error e, cache)
    | .ok saltedData =>
      -- cache a copy to speed up the next lookup, but prevent unbounded cache growth
      let cache := if 200 ≤ cache.count then hiCachePurge else cache
      (.ok saltedData, { entries := cache.entries.set key saltedData, count := cache.count + 1 })

/-- The arguments of a call. -/
structure HICall where
  data : String
  salt : Buffer
  iterations : Js.Number
  cryptoMethod : CryptoMethod
deriving DecidableEq

/-- The results of the calls, made one after the other. -/
def hiResults (pbkdf2Sync : Pbkdf2Sync) : HiCache → List HICall → List (Except AnyError Buffer)
  | _, [] => []
  | cache, call :: calls =>
    let (result, cache) := HI pbkdf2Sync cache call.data call.salt call.iterations call.cryptoMethod
    result :: hiResults pbkdf2Sync cache calls

/-! ## What the cache stands for -/

namespace HICall

/-- The derived key of the call's own arguments. -/
def uncached (pbkdf2Sync : Pbkdf2Sync) (call : HICall) : Except AnyError Buffer :=
  pbkdf2Sync call.data call.salt call.iterations (hiLengthMap call.cryptoMethod) call.cryptoMethod

def key (call : HICall) : String := hiKey call.data call.salt call.iterations

/-- The two calls differ in the crypto method at most. -/
def SameInputs (c d : HICall) : Prop := c.data = d.data ∧ c.salt = d.salt ∧ c.iterations = d.iterations

instance (c d : HICall) : Decidable (c.SameInputs d) := inferInstanceAs (Decidable (_ ∧ _))

end HICall

/-- The calls whose keys are in the cache, after one more call. -/
def remember (pbkdf2Sync : Pbkdf2Sync) (stored : List HICall) (call : HICall) : List HICall :=
  if ∃ c ∈ stored, c.SameInputs call then stored
  else
    match call.uncached pbkdf2Sync with
    | .error _ => stored
    | .ok _ => if 200 ≤ stored.length then [call] else stored ++ [call]

/-- No call finds its data, salt and iteration count in the cache under the other crypto method. -/
def Unmixed (pbkdf2Sync : Pbkdf2Sync) : List HICall → List HICall → Prop
  | _, [] => True
  | stored, call :: calls =>
    (∀ c ∈ stored, c.SameInputs call → c.cryptoMethod = call.cryptoMethod) ∧
      Unmixed pbkdf2Sync (remember pbkdf2Sync stored call) calls

/-- What Node documents of `crypto.pbkdf2Sync`: a derived key has the requested length, and an iteration count
that is not an unsigned 32-bit integer is refused. -/
structure Documented (pbkdf2Sync : Pbkdf2Sync) : Prop where
  length : ∀ {data salt iterations keylen digest derivedKey},
    pbkdf2Sync data salt iterations keylen digest = .ok derivedKey → derivedKey.length = keylen
  iterations : ∀ {data salt iterations keylen digest derivedKey},
    pbkdf2Sync data salt iterations keylen digest = .ok derivedKey → ∃ n : Nat, iterations = .int n ∧ n < 2 ^ 32

/-! ## Keys -/

theorem toList_hiKey (data : String) (salt : Buffer) (iterations : Js.Number) :
    (hiKey data salt iterations).toList =
      data.toList ++ '_' :: (Base64.encode salt ++ '_' :: iterations.text) := by
  simp [hiKey, toBase64]

/-- Where the separator is not in what follows it, the last separator cuts the text. -/
theorem eq_of_append_separator {a : Char} {xs xs' ys ys' : List Char} (h : a ∉ ys) (h' : a ∉ ys')
    (heq : xs ++ a :: ys = xs' ++ a :: ys') : xs = xs' ∧ ys = ys' := by
  rcases List.append_eq_append_iff.1 heq with ⟨c, hxs, hys⟩ | ⟨c, hxs, hys⟩
  all_goals
    cases c with
    | nil => simp_all
    | cons b c =>
      simp only [List.cons_append, List.cons.injEq] at hys
      obtain ⟨rfl, rfl⟩ := hys
      simp_all

theorem hiKey_inj {data data' : String} {salt salt' : Buffer} {iterations iterations' : Js.Number}
    (h : hiKey data salt iterations = hiKey data' salt' iterations') :
    data = data' ∧ salt = salt' ∧ iterations.text = iterations'.text := by
  have hlist := congrArg String.toList h
  simp only [toList_hiKey, ← List.cons_append, ← List.append_assoc] at hlist
  obtain ⟨hfront, htext⟩ :=
    eq_of_append_separator iterations.underscore_notMem_text iterations'.underscore_notMem_text hlist
  obtain ⟨hdata, hsalt⟩ :=
    eq_of_append_separator (Base64.underscore_notMem_encode salt) (Base64.underscore_notMem_encode salt') hfront
  exact ⟨String.toList_inj.1 hdata, Base64.encode_injective hsalt, htext⟩

section

variable {pbkdf2Sync : Pbkdf2Sync} {cache : HiCache} {stored : List HICall} {call : HICall}

/-- A call that was answered is found under no other data, salt or iteration count than its own. -/
theorem sameInputs_of_key_eq (h : Documented pbkdf2Sync) {c : HICall} {derivedKey : Buffer}
    (hok : c.uncached pbkdf2Sync = .ok derivedKey) (hkey : c.key = call.key) : c.SameInputs call := by
  obtain ⟨n, hn, hlt⟩ := h.iterations hok
  obtain ⟨hdata, hsalt, htext⟩ := hiKey_inj hkey
  rw [hn] at htext
  exact ⟨hdata, hsalt, hn.trans (Js.Number.eq_of_text (by omega) htext.symm).symm⟩

theorem HICall.SameInputs.key_eq {c d : HICall} (h : c.SameInputs d) : c.key = d.key := by
  obtain ⟨hdata, hsalt, hiterations⟩ := h
  rw [HICall.key, HICall.key, hdata, hsalt, hiterations]

theorem HICall.SameInputs.eq {c d : HICall} (h : c.SameInputs d) (hmethod : c.cryptoMethod = d.cryptoMethod) :
    c = d := by
  cases c
  cases d
  simp_all [HICall.SameInputs]

/-! ## The cache and the calls it stands for -/

/-- The cache holds the derived keys of the stored calls and nothing else. -/
structure Holds (pbkdf2Sync : Pbkdf2Sync) (cache : HiCache) (stored : List HICall) : Prop where
  count : cache.count = stored.length
  entries : ∀ key value,
    cache.entries.get? key = some value ↔ ∃ c ∈ stored, c.key = key ∧ c.uncached pbkdf2Sync = .ok value
  answered : ∀ c ∈ stored, ∃ value, c.uncached pbkdf2Sync = .ok value

theorem holds_purged : Holds pbkdf2Sync hiCachePurge [] where
  count := rfl
  entries key value := by simp [hiCachePurge]
  answered c hc := absurd hc List.not_mem_nil

/-- A call that the cache does not know is added to it. -/
theorem Holds.set (h : Holds pbkdf2Sync cache stored) {value : Buffer} (hok : call.uncached pbkdf2Sync = .ok value)
    (hnone : cache.entries.get? call.key = none) :
    Holds pbkdf2Sync { entries := cache.entries.set call.key value, count := cache.count + 1 } (stored ++ [call]) where
  count := by simp [h.count]
  entries key value' := by
    rw [OrderedMap.get?_set]
    simp only [List.mem_append, List.mem_singleton, or_and_right, exists_or, exists_eq_left]
    split
    case isTrue hkey =>
      subst hkey
      have hno : ¬ ∃ c ∈ stored, c.key = call.key ∧ c.uncached pbkdf2Sync = .ok value' := by
        rw [← h.entries, hnone]
        simp
      simp [hno, hok]
    case isFalse hkey =>
      rw [h.entries]
      constructor
      · exact Or.inl
      · rintro (hc | ⟨rfl, -⟩)
        · exact hc
        · exact absurd rfl hkey
  answered c hc := by
    rcases List.mem_append.1 hc with hc | hc
    · exact h.answered c hc
    · exact ⟨value, List.mem_singleton.1 hc ▸ hok⟩

/-- A call whose inputs are stored is answered with the stored call's key. -/
theorem HI_of_stored (h : Holds pbkdf2Sync cache stored) {c : HICall} (hc : c ∈ stored) (hsame : c.SameInputs call) :
    HI pbkdf2Sync cache call.data call.salt call.iterations call.cryptoMethod = (c.uncached pbkdf2Sync, cache) := by
  obtain ⟨value, hvalue⟩ := h.answered c hc
  have hget : cache.entries.get? (hiKey call.data call.salt call.iterations) = some value :=
    (h.entries _ _).2 ⟨c, hc, hsame.key_eq, hvalue⟩
  simp only [HI, hget, hvalue]

/-- Any other call is answered with its own key. -/
theorem HI_of_fresh (hdoc : Documented pbkdf2Sync) (h : Holds pbkdf2Sync cache stored)
    (hfresh : ¬ ∃ c ∈ stored, c.SameInputs call) :
    (HI pbkdf2Sync cache call.data call.salt call.iterations call.cryptoMethod).1 = call.uncached pbkdf2Sync ∧
      Holds pbkdf2Sync (HI pbkdf2Sync cache call.data call.salt call.iterations call.cryptoMethod).2
        (remember pbkdf2Sync stored call) := by
  have hget : cache.entries.get? call.key = none := by
    rw [Option.eq_none_iff_forall_ne_some]
    intro value hvalue
    obtain ⟨c, hc, hkey, hok⟩ := (h.entries _ _).1 hvalue
    exact hfresh ⟨c, hc, sameInputs_of_key_eq hdoc hok hkey⟩
  have hkey : hiKey call.data call.salt call.iterations = call.key := rfl
  cases hok : call.uncached pbkdf2Sync with
  | error e =>
    have hpbkdf2 : pbkdf2Sync call.data call.salt call.iterations (hiLengthMap call.cryptoMethod) call.cryptoMethod =
      .error e := hok
    simp only [HI, hkey, hget, hpbkdf2, remember, if_neg hfresh, hok, true_and]
    exact h
  | ok value =>
    have hpbkdf2 : pbkdf2Sync call.data call.salt call.iterations (hiLengthMap call.cryptoMethod) call.cryptoMethod =
      .ok value := hok
    simp only [HI, hkey, hget, hpbkdf2, remember, if_neg hfresh, hok, h.count, true_and]
    by_cases hfull : 200 ≤ stored.length
    · rw [if_pos hfull, if_pos hfull]
      exact holds_purged.set hok (OrderedMap.get?_empty _)
    · rw [if_neg hfull, if_neg hfull]
      exact h.set hok hget

theorem HI_holds (hdoc : Documented pbkdf2Sync) (h : Holds pbkdf2Sync cache stored) :
    Holds pbkdf2Sync (HI pbkdf2Sync cache call.data call.salt call.iterations call.cryptoMethod).2
      (remember pbkdf2Sync stored call) := by
  by_cases hstored : ∃ c ∈ stored, c.SameInputs call
  · obtain ⟨c, hc, hsame⟩ := hstored
    rw [HI_of_stored h hc hsame, remember, if_pos ⟨c, hc, hsame⟩]
    exact h
  · exact (HI_of_fresh hdoc h hstored).2

/-- Keys of the two methods have different lengths. -/
theorem cryptoMethod_eq_of_uncached (hdoc : Documented pbkdf2Sync) {c : HICall} {value : Buffer}
    (hc : c.uncached pbkdf2Sync = .ok value) (hcall : call.uncached pbkdf2Sync = .ok value) :
    c.cryptoMethod = call.cryptoMethod := by
  have hlength : hiLengthMap c.cryptoMethod = hiLengthMap call.cryptoMethod :=
    (hdoc.length hc).symm.trans (hdoc.length hcall)
  cases hm : c.cryptoMethod <;> cases hm' : call.cryptoMethod <;> simp_all [hiLengthMap]

theorem HI_eq_uncached_iff (hdoc : Documented pbkdf2Sync) (h : Holds pbkdf2Sync cache stored) :
    (HI pbkdf2Sync cache call.data call.salt call.iterations call.cryptoMethod).1 = call.uncached pbkdf2Sync ↔
      ∀ c ∈ stored, c.SameInputs call → c.cryptoMethod = call.cryptoMethod := by
  constructor
  · intro heq c hc hsame
    obtain ⟨value, hvalue⟩ := h.answered c hc
    rw [HI_of_stored h hc hsame, hvalue] at heq
    exact cryptoMethod_eq_of_uncached hdoc hvalue heq.symm
  · intro hmethod
    by_cases hstored : ∃ c ∈ stored, c.SameInputs call
    · obtain ⟨c, hc, hsame⟩ := hstored
      rw [HI_of_stored h hc hsame, hsame.eq (hmethod c hc hsame)]
    · exact (HI_of_fresh hdoc h hstored).1

theorem hiResults_iff (hdoc : Documented pbkdf2Sync) (h : Holds pbkdf2Sync cache stored) (calls : List HICall) :
    hiResults pbkdf2Sync cache calls = calls.map (HICall.uncached pbkdf2Sync) ↔ Unmixed pbkdf2Sync stored calls := by
  induction calls generalizing cache stored with
  | nil => simp [hiResults, Unmixed]
  | cons call calls ih =>
    simp only [hiResults, List.map_cons, List.cons.injEq, Unmixed]
    rw [HI_eq_uncached_iff hdoc h, ih (HI_holds hdoc h)]

end

/-- In a sequence of calls from the start of the module on, each returns the derived key of its own arguments if
and only if none finds its data, salt and iteration count cached under the other crypto method. -/
theorem cached_keys_iff {pbkdf2Sync : Pbkdf2Sync} (hdoc : Documented pbkdf2Sync) (calls : List HICall) :
    hiResults pbkdf2Sync hiCachePurge calls = calls.map (HICall.uncached pbkdf2Sync) ↔
      Unmixed pbkdf2Sync [] calls :=
  hiResults_iff hdoc holds_purged calls

/-- The calls of the examples below: `"password"` salted with `"salt"`. -/
private def passwordCall (iterations : Int) (cryptoMethod : CryptoMethod) : HICall :=
  { data := "password", salt := [115, 97, 108, 116], iterations := .int iterations, cryptoMethod }

private def passwordTable : List (HICall × Buffer) :=
  [(passwordCall 4096 .sha1, [75, 0, 121, 1, 183, 101, 72, 154, 190, 173, 73, 217, 38, 247, 33,
    208, 101, 164, 41, 193]),
    (passwordCall 4096 .sha256, [197, 228, 120, 213, 146, 136, 200, 65, 170, 83, 13, 182, 132, 92,
      76, 141, 150, 40, 147, 160, 1, 206, 78, 17, 164, 150, 56, 115, 170, 152, 19, 74]),
    (passwordCall 10000 .sha256, [94, 192, 43, 145, 164, 181, 156, 111, 89, 221, 95, 190, 76, 166,
      73, 236, 228, 250, 133, 104, 205, 184, 186, 54, 207, 65, 66, 110, 136, 5, 82, 43])]

/-- `crypto.pbkdf2Sync` on these calls. -/
private def passwordKeys : Pbkdf2Sync := fun data salt iterations keylen digest =>
  match passwordTable.find? (fun p => p.1 = ⟨data, salt, iterations, digest⟩ ∧ p.2.length = keylen) with
  | some p => .ok p.2
  | none => .error { cls := .error, message := "not in the table" }

private theorem passwordKeys_eq_ok {data : String} {salt derivedKey : Buffer} {iterations : Js.Number} {keylen : Nat}
    {digest : CryptoMethod} (h : passwordKeys data salt iterations keylen digest = .ok derivedKey) :
    (⟨data, salt, iterations, digest⟩, derivedKey) ∈ passwordTable ∧ derivedKey.length = keylen := by
  unfold passwordKeys at h
  split at h
  case h_1 p hp =>
    have hfound := List.find?_some hp
    have hmem := List.mem_of_find?_eq_some hp
    simp only [decide_eq_true_eq] at hfound
    cases h
    rw [← hfound.1]
    exact ⟨hmem, hfound.2⟩
  case h_2 => cases h

private theorem passwordKeys_documented : Documented passwordKeys where
  length h := (passwordKeys_eq_ok h).2
  iterations h := by
    have hmem := (passwordKeys_eq_ok h).1
    simp only [passwordTable, passwordCall, List.mem_cons, List.not_mem_nil, or_false, Prod.mk.injEq,
      HICall.mk.injEq] at hmem
    rcases hmem with ⟨⟨-, -, hn, -⟩, -⟩ | ⟨⟨-, -, hn, -⟩, -⟩ | ⟨⟨-, -, hn, -⟩, -⟩
    · exact ⟨4096, hn, by decide⟩
    · exact ⟨4096, hn, by decide⟩
    · exact ⟨10000, hn, by decide⟩

/-- A second call with the arguments of the first is answered from the cache; one with another count is not. -/
theorem passwordKeys_cached :
    Documented passwordKeys ∧
      hiResults passwordKeys hiCachePurge
          [passwordCall 4096 .sha1, passwordCall 4096 .sha1, passwordCall 10000 .sha256] =
        [passwordCall 4096 .sha1, passwordCall 4096 .sha1, passwordCall 10000 .sha256].map
          (HICall.uncached passwordKeys) :=
  ⟨passwordKeys_documented, (cached_keys_iff passwordKeys_documented _).2 (by
    refine ⟨?_, ?_, ?_, trivial⟩
    all_goals decide)⟩

/-- After a call for SHA-1, the call for SHA-256 returns the key of the first. -/
theorem sha1_key_for_sha256 :
    hiResults passwordKeys hiCachePurge [passwordCall 4096 .sha1, passwordCall 4096 .sha256] ≠
      [passwordCall 4096 .sha1, passwordCall 4096 .sha256].map (HICall.uncached passwordKeys) := by
  decide

end MongoDriver.Auth
