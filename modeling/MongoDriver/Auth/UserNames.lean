/-
User names in the client's first message of SCRAM (`cleanUsername` of `src/cmap/auth/scram.ts`). Escaping is to replace
every comma by `=2C` and every equals sign by `=3D`, which can be undone. The source replaces the first of each only, so
that it escapes exactly the names that have no more than one of each.
-/
import MongoDriver.Auth.Scram

namespace MongoDriver.Auth

open Cmap (Buffer)

/-! ## Escaping -/

def escapeChar (c : Char) : List Char :=
  if c = '=' then ['=', '3', 'D'] else if c = ',' then ['=', '2', 'C'] else [c]

/-- What escaping is to do. -/
def escape (name : List Char) : List Char := name.flatMap escapeChar

/-- And how it is undone. -/
def unescape : List Char → List Char
  | '=' :: '2' :: 'C' :: rest => ',' :: unescape rest
  | '=' :: '3' :: 'D' :: rest => '=' :: unescape rest
  | c :: rest => c :: unescape rest
  | [] => []

/-- The text has no comma, and every equals sign in it begins `=2C` or `=3D`. -/
def Escaped (text : List Char) : Prop :=
  ',' ∉ text ∧ ∀ before rest, text = before ++ '=' :: rest → ['2', 'C'] <+: rest ∨ ['3', 'D'] <+: rest

/-- The name has no more than one comma and one equals sign. -/
def OneOfEach (username : String) : Prop := username.toList.count '=' ≤ 1 ∧ username.toList.count ',' ≤ 1

section

variable {c : Char} {text rest : List Char}

theorem unescape_cons (h : c ≠ '=') (rest : List Char) : unescape (c :: rest) = c :: unescape rest := by
  conv_lhs => unfold unescape
  split
  · rename_i heq
    exact absurd (List.cons.inj heq).1 h
  · rename_i heq
    exact absurd (List.cons.inj heq).1 h
  · rename_i heq
    obtain ⟨rfl, rfl⟩ := List.cons.inj heq
    rfl
  · rename_i heq
    cases heq

theorem unescape_escape (name : List Char) : unescape (escape name) = name := by
  induction name with
  | nil => rfl
  | cons c name ih =>
    unfold escape at ih ⊢
    rw [List.flatMap_cons]
    by_cases heq : c = '='
    · subst heq
      exact congrArg ('=' :: ·) ih
    by_cases hcomma : c = ','
    · subst hcomma
      exact congrArg (',' :: ·) ih
    · rw [escapeChar, if_neg heq, if_neg hcomma, List.singleton_append, unescape_cons heq, ih]

theorem escaped_nil : Escaped [] := by
  refine ⟨List.not_mem_nil, fun before rest h => ?_⟩
  cases before with
  | nil => cases h
  | cons d before => cases h

theorem escaped_cons_iff (h : c ≠ '=') : Escaped (c :: text) ↔ c ≠ ',' ∧ Escaped text := by
  constructor
  · rintro ⟨hcomma, hall⟩
    refine ⟨fun hc => hcomma (by rw [hc]; exact List.mem_cons_self), fun hmem => hcomma (List.mem_cons_of_mem c hmem),
      fun before rest heq => hall (c :: before) rest (by rw [heq, List.cons_append])⟩
  · rintro ⟨hc, hcomma, hall⟩
    refine ⟨fun hmem => ?_, fun before rest heq => ?_⟩
    · rcases List.mem_cons.1 hmem with hhead | htail
      · exact hc hhead.symm
      · exact hcomma htail
    · cases before with
      | nil => exact absurd (List.cons.inj heq).1 h
      | cons d before => exact hall before rest (List.cons.inj heq).2

theorem escaped_equals_iff :
    Escaped ('=' :: text) ↔ (['2', 'C'] <+: text ∨ ['3', 'D'] <+: text) ∧ Escaped text := by
  constructor
  · rintro ⟨hcomma, hall⟩
    exact ⟨hall [] text rfl, fun hmem => hcomma (List.mem_cons_of_mem _ hmem),
      fun before rest heq => hall ('=' :: before) rest (by rw [heq, List.cons_append])⟩
  · rintro ⟨hhead, hcomma, hall⟩
    refine ⟨fun hmem => ?_, fun before rest heq => ?_⟩
    · rcases List.mem_cons.1 hmem with hequals | htail
      · exact absurd hequals (by decide)
      · exact hcomma htail
    · cases before with
      | nil =>
        obtain rfl := (List.cons.inj heq).2
        exact hhead
      | cons d before => exact hall before rest (List.cons.inj heq).2

theorem escaped_escape (name : List Char) : Escaped (escape name) := by
  induction name with
  | nil => exact escaped_nil
  | cons c name ih =>
    unfold escape at ih ⊢
    rw [List.flatMap_cons]
    by_cases heq : c = '='
    · subst heq
      exact escaped_equals_iff.2 ⟨.inr ⟨_, rfl⟩, (escaped_cons_iff (by decide)).2 ⟨by decide,
        (escaped_cons_iff (by decide)).2 ⟨by decide, ih⟩⟩⟩
    by_cases hcomma : c = ','
    · subst hcomma
      exact escaped_equals_iff.2 ⟨.inl ⟨_, rfl⟩, (escaped_cons_iff (by decide)).2 ⟨by decide,
        (escaped_cons_iff (by decide)).2 ⟨by decide, ih⟩⟩⟩
    · rw [escapeChar, if_neg heq, if_neg hcomma]
      exact (escaped_cons_iff heq).2 ⟨hcomma, ih⟩

/-- Each equals sign of an escaped text stands for one character of three. -/
theorem Escaped.length (h : Escaped text) : (unescape text).length + 2 * text.count '=' = text.length := by
  fun_induction unescape text with
  | case1 rest ih =>
    have hrest := ((escaped_cons_iff (by decide)).1 ((escaped_cons_iff (by decide)).1
      (escaped_equals_iff.1 h).2).2).2
    have hlen := ih hrest
    have h2 : '2' ≠ '=' := by decide
    have hC : 'C' ≠ '=' := by decide
    rw [List.count_cons_self, List.count_cons_of_ne h2, List.count_cons_of_ne hC]
    simp only [List.length_cons]
    omega
  | case2 rest ih =>
    have hrest := ((escaped_cons_iff (by decide)).1 ((escaped_cons_iff (by decide)).1
      (escaped_equals_iff.1 h).2).2).2
    have hlen := ih hrest
    have h3 : '3' ≠ '=' := by decide
    have hD : 'D' ≠ '=' := by decide
    rw [List.count_cons_self, List.count_cons_of_ne h3, List.count_cons_of_ne hD]
    simp only [List.length_cons]
    omega
  | case3 c rest hno2 hno3 ih =>
    by_cases heq : c = '='
    · subst heq
      rcases (escaped_equals_iff.1 h).1 with ⟨tail, rfl⟩ | ⟨tail, rfl⟩
      · exact (hno2 tail rfl rfl).elim
      · exact (hno3 tail rfl rfl).elim
    · have hlen := ih ((escaped_cons_iff heq).1 h).2
      rw [List.count_cons_of_ne heq, List.length_cons, List.length_cons]
      omega
  | case4 => rfl

end

/-! ## The first of each -/

section

variable {c : Char} {replacement name : List Char}

/-- Where there is no more than one, replacing the first is replacing all. -/
theorem replaceFirst_eq_flatMap (h : name.count c ≤ 1) :
    replaceFirst c replacement name = name.flatMap fun d => if d = c then replacement else [d] := by
  induction name with
  | nil => rfl
  | cons d name ih =>
    rw [replaceFirst, List.flatMap_cons]
    by_cases hd : d = c
    · subst hd
      rw [List.count_cons_self] at h
      have hnone : ∀ e ∈ name, ¬ e = d := by
        intro e he hed
        subst hed
        have hpos := List.count_pos_iff.2 he
        omega
      have hrest : name.flatMap (fun e => if e = d then replacement else [e]) = name := by
        rw [List.flatMap_congr (g := fun e => [e]) fun e he => if_neg (hnone e he), List.flatMap_singleton']
      rw [if_pos rfl, if_pos rfl, hrest]
    · rw [List.count_cons_of_ne hd] at h
      rw [if_neg hd, if_neg hd, ih h, List.singleton_append]

theorem length_replaceFirst (c : Char) (replacement name : List Char) :
    (replaceFirst c replacement name).length + (if c ∈ name then 1 else 0) =
      name.length + (if c ∈ name then replacement.length else 0) := by
  induction name with
  | nil => rfl
  | cons d name ih =>
    rw [replaceFirst]
    by_cases hd : d = c
    · subst hd
      simp only [List.mem_cons, true_or, if_true, List.length_append, List.length_cons]
      omega
    · have hmem : c ∈ d :: name ↔ c ∈ name := by simp [Ne.symm hd]
      simp only [if_neg hd, hmem, List.length_cons]
      omega

theorem count_replaceFirst (c d : Char) (replacement name : List Char) :
    (replaceFirst c replacement name).count d + (if c ∈ name then [c].count d else 0) =
      name.count d + (if c ∈ name then replacement.count d else 0) := by
  induction name with
  | nil => rfl
  | cons e name ih =>
    rw [replaceFirst]
    have hsplit : (e :: name).count d = [e].count d + name.count d := by
      rw [← List.singleton_append, List.count_append]
    by_cases he : e = c
    · subst he
      rw [if_pos rfl, if_pos List.mem_cons_self, if_pos List.mem_cons_self, List.count_append, hsplit]
      omega
    · have hmem : c ∈ e :: name ↔ c ∈ name := by simp [Ne.symm he]
      have htail : (e :: replaceFirst c replacement name).count d =
          [e].count d + (replaceFirst c replacement name).count d := by
        rw [← List.singleton_append, List.count_append]
      rw [if_neg he, hsplit, htail]
      simp only [hmem]
      omega

end

/-! ## `cleanUsername` -/

section

variable {username : String}

theorem toList_cleanUsername :
    (cleanUsername username).toList =
      replaceFirst ',' "=2C".toList (replaceFirst '=' "=3D".toList username.toList) :=
  String.toList_ofList

theorem count_comma_replaceFirst_equals :
    (replaceFirst '=' "=3D".toList username.toList).count ',' = username.toList.count ',' := by
  have h := count_replaceFirst '=' ',' "=3D".toList username.toList
  have hold : ['='].count ',' = 0 := by decide
  have hnew : "=3D".toList.count ',' = 0 := by decide
  simp only [hold, hnew] at h
  omega

theorem comma_mem_replaceFirst_equals :
    ',' ∈ replaceFirst '=' "=3D".toList username.toList ↔ ',' ∈ username.toList := by
  rw [← List.count_pos_iff, ← List.count_pos_iff, count_comma_replaceFirst_equals]

theorem count_comma_cleanUsername (username : String) :
    (cleanUsername username).toList.count ',' + (if ',' ∈ username.toList then 1 else 0) =
      username.toList.count ',' := by
  have h := count_replaceFirst ',' ',' "=2C".toList (replaceFirst '=' "=3D".toList username.toList)
  have hold : [','].count ',' = 1 := by decide
  have hnew : "=2C".toList.count ',' = 0 := by decide
  simp only [hold, hnew, comma_mem_replaceFirst_equals, count_comma_replaceFirst_equals, ite_self] at h
  rw [toList_cleanUsername]
  omega

theorem count_equals_cleanUsername :
    (cleanUsername username).toList.count '=' =
      username.toList.count '=' + (if ',' ∈ username.toList then 1 else 0) := by
  have hequals := count_replaceFirst '=' '=' "=3D".toList username.toList
  have hcomma := count_replaceFirst ',' '=' "=2C".toList (replaceFirst '=' "=3D".toList username.toList)
  have hold : ['='].count '=' = 1 := by decide
  have hnew : "=3D".toList.count '=' = 1 := by decide
  have hold' : [','].count '=' = 0 := by decide
  have hnew' : "=2C".toList.count '=' = 1 := by decide
  simp only [hold, hnew] at hequals
  simp only [hold', hnew', comma_mem_replaceFirst_equals, ite_self] at hcomma
  rw [toList_cleanUsername]
  omega

theorem length_cleanUsername :
    (cleanUsername username).toList.length = username.toList.length +
      (if '=' ∈ username.toList then 2 else 0) + (if ',' ∈ username.toList then 2 else 0) := by
  have hequals := length_replaceFirst '=' "=3D".toList username.toList
  have hcomma := length_replaceFirst ',' "=2C".toList (replaceFirst '=' "=3D".toList username.toList)
  have hlen : "=3D".toList.length = 3 := rfl
  have hlen' : "=2C".toList.length = 3 := rfl
  simp only [hlen] at hequals
  simp only [hlen', comma_mem_replaceFirst_equals] at hcomma
  rw [toList_cleanUsername]
  split_ifs at * <;> omega

/-- An escaped text is longer than its name by two for each equals sign, of which only the first is replaced. -/
theorem oneOfEach_of_escaped (hescaped : Escaped (cleanUsername username).toList)
    (hback : unescape (cleanUsername username).toList = username.toList) : OneOfEach username := by
  have hlen := hescaped.length
  have hnone : (cleanUsername username).toList.count ',' = 0 := List.count_eq_zero.2 hescaped.1
  have hcomma := count_comma_cleanUsername username
  rw [hback, length_cleanUsername, count_equals_cleanUsername] at hlen
  constructor
  · split_ifs at hlen <;> omega
  · split_ifs at hcomma <;> omega

/-- With no more than one of each, the name is escaped. -/
theorem cleanUsername_eq_escape (h : OneOfEach username) :
    (cleanUsername username).toList = escape username.toList := by
  have hcomma : (replaceFirst '=' "=3D".toList username.toList).count ',' ≤ 1 := by
    rw [count_comma_replaceFirst_equals]
    exact h.2
  rw [toList_cleanUsername, replaceFirst_eq_flatMap hcomma, replaceFirst_eq_flatMap h.1, List.flatMap_assoc, escape]
  apply List.flatMap_congr
  intro c _
  by_cases heq : c = '='
  · subst heq
    rfl
  · rw [if_neg heq, List.flatMap_singleton, escapeChar, if_neg heq]
    rfl

end

/-! ## The first message -/

theorem utf8_injective {a b : String} (h : utf8 a = utf8 b) : a = b := by
  apply String.toByteArray_inj.1
  apply ByteArray.ext
  exact Array.toList_inj.1 h

theorem takeWhile_before_comma {name : List Char} (h : ',' ∉ name) (rest : List Char) :
    (name ++ ',' :: rest).takeWhile (· ≠ ',') = name := by
  have hall : ∀ c ∈ name, decide (c ≠ ',') = true := by
    intro c hc
    apply decide_eq_true
    rintro rfl
    exact h hc
  rw [List.takeWhile_append_of_pos hall, List.takeWhile_cons_of_neg (by decide), List.append_nil]

/-- A name without a comma is read off before the nonce. -/
theorem clientFirstMessageBare_injective {a b : String} {nonce nonce' : Buffer} (ha : ',' ∉ a.toList)
    (hb : ',' ∉ b.toList) (h : clientFirstMessageBare a nonce = clientFirstMessageBare b nonce') : a = b := by
  have hlist := congrArg String.toList h
  have hkey : ",r=".toList = ',' :: "r=".toList := by decide
  simp only [clientFirstMessageBare, String.toList_append, List.append_assoc, hkey, List.cons_append] at hlist
  have hname := congrArg (List.takeWhile (· ≠ ',')) (List.append_cancel_left hlist)
  rw [takeWhile_before_comma ha, takeWhile_before_comma hb] at hname
  exact String.toList_inj.1 hname

theorem makeFirstMessage_injective {cryptoMethod : CryptoMethod} {a b : MongoCredentials} {nonce nonce' : Buffer}
    (ha : OneOfEach a.username) (hb : OneOfEach b.username)
    (h : makeFirstMessage cryptoMethod a nonce = makeFirstMessage cryptoMethod b nonce') :
    a.username = b.username := by
  have htext := utf8_injective (congrArg SaslStart.payload h)
  have hbare := String.append_right_inj _ |>.1 htext
  have hclean := clientFirstMessageBare_injective (by rw [cleanUsername_eq_escape ha]; exact (escaped_escape _).1)
    (by rw [cleanUsername_eq_escape hb]; exact (escaped_escape _).1) hbare
  have hback := congrArg (fun text : String => unescape text.toList) hclean
  simp only [cleanUsername_eq_escape ha, cleanUsername_eq_escape hb, unescape_escape] at hback
  exact String.toList_inj.1 hback

/-- The source escapes exactly the names with no more than one comma and one equals sign, and on these the first
message tells one user from another. -/
theorem username_escaped_iff (username : String) :
    ((Escaped (cleanUsername username).toList ∧ unescape (cleanUsername username).toList = username.toList) ↔
      OneOfEach username) ∧
    ∀ (cryptoMethod : CryptoMethod) (a b : MongoCredentials) (nonce nonce' : Buffer), a.username = username →
      OneOfEach username → OneOfEach b.username →
      makeFirstMessage cryptoMethod a nonce = makeFirstMessage cryptoMethod b nonce' → b.username = username := by
  constructor
  · constructor
    · rintro ⟨hescaped, hback⟩
      exact oneOfEach_of_escaped hescaped hback
    · intro h
      rw [cleanUsername_eq_escape h]
      exact ⟨escaped_escape _, unescape_escape _⟩
  · rintro cryptoMethod a b nonce nonce' rfl ha hb h
    exact (makeFirstMessage_injective ha hb h).symm

/-- The second comma of `a,b,c` is sent as it is; and two users who are not the same send one message. -/
theorem second_comma_is_sent :
    ¬ Escaped (cleanUsername "a,b,c").toList ∧
    makeFirstMessage .sha256 { username := "==2C", password := "pw", source := "admin" } [1, 2, 3] =
      makeFirstMessage .sha256 { username := "=,", password := "pw", source := "admin" } [1, 2, 3] := by
  constructor
  · rintro ⟨hcomma, -⟩
    exact hcomma (by decide)
  · have hsame : cleanUsername "==2C" = cleanUsername "=," := by decide
    unfold makeFirstMessage
    rw [hsame]

end MongoDriver.Auth
