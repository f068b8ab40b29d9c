/-
Payloads of SCRAM messages (`parsePayload` of `src/cmap/auth/scram.ts`): texts of attributes `name=value` joined by
commas. A part is split at every equals sign, of which it keeps what stands before the first and what stands between
the first and the second, so that the value is cut where it has one itself.
-/
import MongoDriver.Auth.Scram
import MongoDriver.Base.Run

namespace MongoDriver.Auth

open Cmap (Buffer)

/-- The text of a message. -/
def payloadText (pairs : List (String × String)) : String :=
  ",".intercalate (pairs.map fun p => p.1 ++ "=" ++ p.2)

/-- Every attribute is read with its value. -/
def ReadWhole (pairs : List (String × String)) : Prop :=
  ∀ p ∈ pairs, (parsePayload (payloadText pairs)).property p.1 = some p.2

/-- The name is a property's, and has none of the signs that end a name. -/
def PlainName (name : String) : Prop := name ≠ "__proto__" ∧ ',' ∉ name.toList ∧ '=' ∉ name.toList

/-- The name is plain, and the value has no equals sign. -/
def Plain (p : String × String) : Prop := PlainName p.1 ∧ '=' ∉ p.2.toList

/-! ## Splitting -/

section

variable {separator : Char} {text part : String}

/-- A piece is of the list, and has no separator. -/
theorem of_mem_splitOn {c : Char} {piece : List Char} :
    ∀ {cs : List Char}, piece ∈ cs.splitOn c → c ∉ piece ∧ piece ⊆ cs
  | [], h => by
    rw [List.splitOn_nil, List.mem_singleton] at h
    subst h
    exact ⟨List.not_mem_nil, List.nil_subset _⟩
  | d :: cs, h => by
    obtain ⟨head, pieces, hpieces⟩ := List.exists_cons_of_ne_nil (List.splitOn_ne_nil c cs)
    have hrest : ∀ piece ∈ head :: pieces, c ∉ piece ∧ piece ⊆ cs := by
      intro piece hmem
      rw [← hpieces] at hmem
      exact of_mem_splitOn hmem
    rw [List.splitOn_cons_eq_if_modifyHead, hpieces] at h
    split_ifs at h with hd
    · rcases List.mem_cons.1 h with rfl | htail
      · exact ⟨List.not_mem_nil, List.nil_subset _⟩
      · exact ⟨(hrest piece htail).1, List.subset_cons_of_subset d (hrest piece htail).2⟩
    · rw [List.modifyHead_cons] at h
      rcases List.mem_cons.1 h with rfl | htail
      · obtain ⟨hnone, hsub⟩ := hrest head List.mem_cons_self
        refine ⟨fun hmem => ?_, List.cons_subset_cons d hsub⟩
        rcases List.mem_cons.1 hmem with rfl | hin
        · exact hd (beq_self_eq_true c)
        · exact hnone hin
      · obtain ⟨hnone, hsub⟩ := hrest piece (List.mem_cons_of_mem head htail)
        exact ⟨hnone, List.subset_cons_of_subset d hsub⟩

theorem of_mem_split (h : part ∈ split text separator) :
    separator ∉ part.toList ∧ part.toList ⊆ text.toList := by
  obtain ⟨piece, hpiece, rfl⟩ := List.mem_map.1 h
  rw [String.toList_ofList]
  exact of_mem_splitOn hpiece

theorem split_ne_nil (text : String) (separator : Char) : split text separator ≠ [] := by
  rw [split, ne_eq, List.map_eq_nil_iff]
  exact List.splitOn_ne_nil separator text.toList

/-- A text without the separator is one part. -/
theorem split_of_notMem (h : separator ∉ text.toList) : split text separator = [text] := by
  rw [split, List.splitOn_eq_singleton h, List.map_singleton, String.ofList_toList]

/-- An attribute whose name has no equals sign is split behind it. -/
theorem split_pair {name value : String} (h : '=' ∉ name.toList) :
    split (name ++ "=" ++ value) '=' = name :: split value '=' := by
  have hlist : (name ++ "=" ++ value).toList = name.toList ++ '=' :: value.toList := by
    rw [String.toList_append, String.toList_append, List.append_assoc]
    rfl
  rw [split, hlist, List.splitOn_append_cons_self_of_not_mem h, List.map_cons, String.ofList_toList, split]

/-- Texts without the separator are read back. -/
theorem split_intercalate {texts : List String} (h : ∀ text ∈ texts, ',' ∉ text.toList) (hne : texts ≠ []) :
    split (",".intercalate texts) ',' = texts := by
  have hpieces : ∀ piece ∈ texts.map String.toList, ',' ∉ piece := by
    intro piece hpiece
    obtain ⟨text, htext, rfl⟩ := List.mem_map.1 hpiece
    exact h text htext
  have hback : (String.ofList ∘ String.toList) = id := funext fun text => String.ofList_toList
  have hsep : ",".toList = [','] := rfl
  rw [split, String.toList_intercalate, hsep, List.splitOn_intercalate ',' hpieces (by simpa using hne),
    List.map_map, hback, List.map_id]

end

/-! ## Reading -/

/-- What a part leaves in the object. -/
def readPart (dict : PayloadDict) (part : String) : PayloadDict :=
  let valueParts := split part '='
  let name := valueParts.headD ""
  if name = "__proto__" then dict else dict.set name valueParts[1]?

theorem parsePayload_eq (payload : String) : parsePayload payload = (split payload ',').foldl readPart .empty := rfl

theorem readPart_pair {p : String × String} (h : PlainName p.1) (dict : PayloadDict) :
    readPart dict (p.1 ++ "=" ++ p.2) = dict.set p.1 ((split p.2 '=').head?) := by
  unfold readPart
  rw [split_pair h.2.2]
  simp only [List.headD_cons, List.getElem?_cons_succ, ← List.head?_eq_getElem?]
  rw [if_neg h.1]

/-- The names in the object are plain, and its values have no equals sign. -/
def Read (dict : PayloadDict) : Prop :=
  ∀ name value, dict.get? name = some value → PlainName name ∧ ∀ text, value = some text → '=' ∉ text.toList

theorem Read.readPart {dict : PayloadDict} {part : String} (h : Read dict) (hpart : ',' ∉ part.toList) :
    Read (readPart dict part) := by
  obtain ⟨head, parts, hparts⟩ := List.exists_cons_of_ne_nil (split_ne_nil part '=')
  have hmem : ∀ text ∈ head :: parts, '=' ∉ text.toList ∧ text.toList ⊆ part.toList := by
    intro text htext
    rw [← hparts] at htext
    exact of_mem_split htext
  unfold Auth.readPart
  rw [hparts]
  simp only [List.headD_cons, List.getElem?_cons_succ, ← List.head?_eq_getElem?]
  split_ifs with hproto
  · exact h
  · intro name value hget
    rw [OrderedMap.get?_set] at hget
    split_ifs at hget with hname
    · cases hget
      subst hname
      obtain ⟨hequals, hsub⟩ := hmem name List.mem_cons_self
      refine ⟨⟨hproto, fun hcomma => hpart (hsub hcomma), hequals⟩, fun text htext => ?_⟩
      exact (hmem text (List.mem_cons_of_mem name (List.mem_of_mem_head? htext))).1
    · exact h name value hget

theorem Read.foldl {parts : List String} (hparts : ∀ part ∈ parts, ',' ∉ part.toList) {dict : PayloadDict}
    (h : Read dict) : Read (parts.foldl Auth.readPart dict) := by
  induction parts generalizing dict with
  | nil => exact h
  | cons part parts ih =>
    apply ih fun q hq => hparts q (List.mem_cons_of_mem part hq)
    exact h.readPart (hparts part List.mem_cons_self)

theorem read_parsePayload (payload : String) : Read (parsePayload payload) := by
  rw [parsePayload_eq]
  apply Read.foldl fun part hpart => (of_mem_split hpart).1
  intro name value hget
  cases hget

section

variable {pairs : List (String × String)}

/-- A pair is read as far as the first equals sign of its value, and the properties of other names stay. -/
theorem get?_foldl_readPart (hnames : (pairs.map Prod.fst).Nodup) (hplain : ∀ p ∈ pairs, PlainName p.1)
    (dict : PayloadDict) :
    (∀ p ∈ pairs, ((pairs.map fun p => p.1 ++ "=" ++ p.2).foldl readPart dict).get? p.1 =
      some (split p.2 '=').head?) ∧
    ∀ name, name ∉ pairs.map Prod.fst →
      ((pairs.map fun p => p.1 ++ "=" ++ p.2).foldl readPart dict).get? name = dict.get? name := by
  induction pairs generalizing dict with
  | nil => exact ⟨fun p hp => absurd hp List.not_mem_nil, fun name _ => rfl⟩
  | cons q pairs ih =>
    rw [List.map_cons, List.nodup_cons] at hnames
    obtain ⟨hread, hframe⟩ := ih hnames.2 (fun p hp => hplain p (List.mem_cons_of_mem q hp))
      (dict.set q.1 (split q.2 '=').head?)
    rw [List.map_cons, List.foldl_cons, readPart_pair (hplain q List.mem_cons_self)]
    constructor
    · rintro p hp
      rcases List.mem_cons.1 hp with rfl | hin
      · rw [hframe p.1 hnames.1, OrderedMap.get?_set_self]
      · exact hread p hin
    · intro name hname
      rw [List.map_cons, List.mem_cons, not_or] at hname
      rw [hframe name hname.2, OrderedMap.get?_set_ne _ _ hname.1]

theorem property_of_plain (hnames : (pairs.map Prod.fst).Nodup) (hvalues : ∀ p ∈ pairs, ',' ∉ p.2.toList)
    (hplain : ∀ p ∈ pairs, PlainName p.1) :
    ∀ p ∈ pairs, (parsePayload (payloadText pairs)).property p.1 = (split p.2 '=').head? := by
  intro p hp
  have hne : (pairs.map fun p => p.1 ++ "=" ++ p.2) ≠ [] := by
    rw [ne_eq, List.map_eq_nil_iff]
    rintro rfl
    exact List.not_mem_nil hp
  have htexts : ∀ text ∈ pairs.map (fun p => p.1 ++ "=" ++ p.2), ',' ∉ text.toList := by
    intro text htext hcomma
    obtain ⟨q, hq, rfl⟩ := List.mem_map.1 htext
    rw [String.toList_append, String.toList_append, List.mem_append, List.mem_append] at hcomma
    rcases hcomma with (hname | hsign) | hvalue
    · exact (hplain q hq).2.1 hname
    · exact absurd hsign (by decide)
    · exact hvalues q hq hvalue
  rw [PayloadDict.property, parsePayload_eq, payloadText, split_intercalate htexts hne,
    (get?_foldl_readPart hnames hplain .empty).1 p hp, Option.join_some]

theorem readWhole_iff (hnames : (pairs.map Prod.fst).Nodup) (hvalues : ∀ p ∈ pairs, ',' ∉ p.2.toList) :
    ReadWhole pairs ↔ ∀ p ∈ pairs, Plain p := by
  constructor
  · intro h p hp
    have hget := Option.join_eq_some_iff.1 (h p hp)
    obtain ⟨hname, hvalue⟩ := read_parsePayload (payloadText pairs) p.1 (some p.2) hget
    exact ⟨hname, hvalue p.2 rfl⟩
  · intro h p hp
    rw [property_of_plain hnames hvalues (fun q hq => (h q hq).1) p hp, split_of_notMem (h p hp).2, List.head?_cons]

end

/-! ## The nonce in the client's final message -/

section

variable {crypto : Crypto} {cache cache' : HiCache} {cryptoMethod : CryptoMethod} {response : ScramResponse}
  {authContext : AuthContext} {command : SaslContinue} {buffer : Buffer}

theorem clientFinal_text {saltedPassword nonce serverSignature : Buffer} {username payload rnonce text : String}
    (h : clientFinal crypto cryptoMethod saltedPassword username nonce payload rnonce = .ok (text, serverSignature)) :
    ∃ proof, text = "c=biws,r=" ++ rnonce ++ ",p=" ++ proof := by
  obtain ⟨clientKey, -, h⟩ := Run.bind_ok.1 h
  obtain ⟨serverKey, -, h⟩ := Run.bind_ok.1 h
  obtain ⟨storedKey, -, h⟩ := Run.bind_ok.1 h
  obtain ⟨clientSignature, -, h⟩ := Run.bind_ok.1 h
  obtain ⟨serverSignature, -, h⟩ := Run.bind_ok.1 h
  cases h
  refine ⟨xor clientKey clientSignature, ?_⟩
  have hkey : ",p=" = "," ++ "p=" := by decide
  rw [hkey, String.intercalate_cons_cons, String.intercalate_singleton]
  simp only [String.append_assoc]

theorem error_of_mapError {ε α : Type} {x : Except ε α} {f : ε → Outcome} {outcome : Outcome}
    (h : x.mapError f = .error outcome) : ∃ e, outcome = f e := by
  cases x with
  | error e =>
    cases h
    exact ⟨e, rfl⟩
  | ok a => cases h

theorem processPassword_error {username password : String} {outcome : Outcome}
    (h : processPassword crypto cryptoMethod username password = .error outcome) :
    ∃ e, outcome = .failed e ∨ outcome = .thrown e := by
  cases cryptoMethod with
  | sha1 =>
    obtain ⟨e, he⟩ := error_of_mapError h
    exact ⟨e, .inl he⟩
  | sha256 =>
    cases hprep : crypto.saslprep with
    | none =>
      simp only [processPassword, hprep] at h
      cases h
    | some saslprep =>
      simp only [processPassword, hprep] at h
      obtain ⟨e, he⟩ := error_of_mapError h
      exact ⟨e, .inr he⟩

/-- The final message that is sent names the nonce the payload was read for. -/
theorem payload_of_sent (hbuffer : response.payload.toBinary = some buffer)
    (h : continueScramConversation crypto cache cryptoMethod response authContext = (.sent command, cache')) :
    ∃ rnonce proof, (parsePayload (binaryValue buffer)).property "r" = some rnonce ∧
      command.payload = utf8 ("c=biws,r=" ++ rnonce ++ ",p=" ++ proof) := by
  unfold continueScramConversation at h
  cases hcredentials : authContext.credentials with
  | none =>
    rw [hcredentials] at h
    cases h
  | some credentials =>
    cases hnonce : authContext.nonce with
    | none =>
      simp only [hcredentials, hnonce] at h
      cases h
    | some nonce =>
      simp only [hcredentials, hnonce, hbuffer] at h
      cases hpassword : processPassword crypto cryptoMethod (cleanUsername credentials.username)
        credentials.password with
      | error outcome =>
        rw [hpassword] at h
        obtain ⟨e, rfl | rfl⟩ := processPassword_error hpassword
        · cases h
        · cases h
      | ok processedPassword =>
        simp only [hpassword] at h
        split_ifs at h with hiterations
        · cases h
        cases hrnonce : (parsePayload (binaryValue buffer)).property "r" with
        | none =>
          rw [hrnonce] at h
          cases h
        | some rnonce =>
          simp only [hrnonce] at h
          split_ifs at h with hword
          · cases h
          cases hsalt : (parsePayload (binaryValue buffer)).property "s" with
          | none =>
            rw [hsalt] at h
            cases h
          | some salt =>
            simp only [hsalt] at h
            split at h
            · cases h
            · rename_i text serverSignature hfinal
              obtain ⟨saltedPassword, -, htext⟩ := Run.bind_ok.1 hfinal
              obtain ⟨proof, rfl⟩ := clientFinal_text htext
              cases h
              exact ⟨rnonce, proof, rfl, rfl⟩

theorem utf8_append (a b : String) : utf8 (a ++ b) = utf8 a ++ utf8 b := by
  unfold utf8
  rw [String.toUTF8_eq_toByteArray, String.toByteArray_append, ByteArray.toList_data_append]
  rfl

end

/-! ## Bytes -/

/-- The bytes of a text are those of its characters. -/
theorem utf8_ofList (cs : List Char) : utf8 (String.ofList cs) = cs.flatMap String.utf8EncodeChar := by
  rw [utf8, String.toUTF8_eq_toByteArray, String.toByteArray_ofList, List.utf8Encode, List.toList_data_toByteArray]

theorem toNat_char (b : UInt8) : (Char.ofNat b.toNat).toNat = b.toNat := by
  have hlt := b.toNat_lt
  have hvalid : b.toNat.isValidChar := .inl (by omega)
  rw [Char.ofNat, dif_pos hvalid]
  rfl

/-- A byte below 128 goes out as it came in; another one becomes two bytes, neither of which is below 128. -/
theorem utf8EncodeChar_byte (b : UInt8) :
    (b < 128 ∧ String.utf8EncodeChar (Char.ofNat b.toNat) = [b]) ∨
      (128 ≤ b ∧ (String.utf8EncodeChar (Char.ofNat b.toNat)).length = 2 ∧
        ∀ c ∈ String.utf8EncodeChar (Char.ofNat b.toNat), 128 ≤ c) := by
  have hlt := b.toNat_lt
  have hval : (Char.ofNat b.toNat).val.toNat = b.toNat := toNat_char b
  have hlow : (128 : UInt8).toNat = 128 := rfl
  unfold String.utf8EncodeChar
  simp only [hval, UInt8.lt_iff_toNat_lt, UInt8.le_iff_toNat_le, hlow]
  by_cases h : b.toNat ≤ 127
  · rw [if_pos h, UInt8.ofNat_toNat]
    exact .inl ⟨by omega, rfl⟩
  · rw [if_neg h, if_pos (by omega)]
    refine .inr ⟨by omega, rfl, fun c hc => ?_⟩
    rcases List.mem_cons.1 hc with rfl | hc
    · rw [UInt8.toNat_ofNat']
      omega
    · rw [List.mem_singleton.1 hc, UInt8.toNat_ofNat']
      omega

/-- The bytes that a buffer becomes when its text is encoded. -/
def encoded (bytes : Buffer) : Buffer := utf8 (binaryValue bytes)

theorem encoded_nil : encoded [] = [] := rfl

theorem encoded_cons (b : UInt8) (bytes : Buffer) :
    encoded (b :: bytes) = String.utf8EncodeChar (Char.ofNat b.toNat) ++ encoded bytes := by
  simp only [encoded, binaryValue, utf8_ofList, List.map_cons, List.flatMap_cons]

theorem encoded_ascii {bytes : Buffer} (h : ∀ b ∈ bytes, b < 128) : encoded bytes = bytes := by
  induction bytes with
  | nil => exact encoded_nil
  | cons b bytes ih =>
    rw [encoded_cons, ih fun c hc => h c (List.mem_cons_of_mem b hc)]
    rcases utf8EncodeChar_byte b with ⟨-, hchar⟩ | ⟨hge, -⟩
    · rw [hchar, List.singleton_append]
    · exact absurd (h b List.mem_cons_self) (UInt8.not_lt.2 hge)

/-- An encoded text is no shorter than its bytes, and longer if one of them is not below 128. -/
theorem length_encoded (bytes : Buffer) :
    bytes.length ≤ (encoded bytes).length ∧ ((encoded bytes).length = bytes.length → ∀ b ∈ bytes, b < 128) := by
  induction bytes with
  | nil => exact ⟨le_rfl, fun _ b hb => absurd hb List.not_mem_nil⟩
  | cons b bytes ih =>
    obtain ⟨hle, hascii⟩ := ih
    rw [encoded_cons, List.length_append, List.length_cons]
    rcases utf8EncodeChar_byte b with ⟨hlt, hchar⟩ | ⟨-, htwo, -⟩
    · rw [hchar, List.length_singleton]
      refine ⟨by omega, fun hlength c hc => ?_⟩
      rcases List.mem_cons.1 hc with rfl | hin
      · exact hlt
      · exact hascii (by omega) c hin
    · rw [htwo]
      exact ⟨by omega, fun hlength => by omega⟩

/-- A byte below 128 is in the encoded text only if it is among the bytes. -/
theorem of_mem_encoded {bytes : Buffer} {c : UInt8} (hc : c < 128) (h : c ∈ encoded bytes) : c ∈ bytes := by
  induction bytes with
  | nil => exact absurd h List.not_mem_nil
  | cons b bytes ih =>
    rw [encoded_cons] at h
    rcases List.mem_append.1 h with hchar | hrest
    · rcases utf8EncodeChar_byte b with ⟨-, hsame⟩ | ⟨-, -, hge⟩
      · rw [hsame, List.mem_singleton] at hchar
        exact List.mem_cons.2 (.inl hchar)
      · exact absurd hc (UInt8.not_lt.2 (hge c hchar))
    · exact List.mem_cons_of_mem b (ih hrest)

theorem head?_splitOn (c : Char) (cs : List Char) : (cs.splitOn c).head? = some (cs.takeWhile (· ≠ c)) := by
  by_cases hmem : c ∈ cs
  · obtain ⟨before, rest, rfl, hfirst⟩ := List.eq_append_cons_of_mem hmem
    rw [List.splitOn_append_cons_self_of_not_mem hfirst, List.head?_cons, List.takeWhile_append_of_pos]
    · simp
    · intro d hd
      exact decide_eq_true fun h => hfirst (h ▸ hd)
  · rw [List.splitOn_eq_singleton hmem, List.head?_cons, List.takeWhile_eq_self_iff.2]
    intro d hd
    exact decide_eq_true fun h => hmem (h ▸ hd)

/-- What is split off a text before its first equals sign are the bytes before the first 61. -/
theorem split_binaryValue (bytes : Buffer) :
    (split (binaryValue bytes) '=').head? = some (binaryValue (bytes.takeWhile (· ≠ 61))) := by
  have hsign : ((fun c => decide (c ≠ '=')) ∘ fun b : UInt8 => Char.ofNat b.toNat) = fun b => decide (b ≠ 61) := by
    funext b
    refine decide_eq_decide.2 (not_congr ⟨fun h => ?_, ?_⟩)
    · have hnat : (Char.ofNat b.toNat).toNat = '='.toNat := congrArg Char.toNat h
      rw [toNat_char] at hnat
      exact UInt8.toNat_inj.1 hnat
    · rintro rfl
      rfl
  rw [split, List.head?_map, head?_splitOn, binaryValue, String.toList_ofList, List.takeWhile_map, hsign]
  rfl

/-- Two texts that stand before their first comma in the same place are the same. -/
theorem eq_of_prefix_comma {xs ys rest : Buffer} (hxs : 44 ∉ xs) (hys : 44 ∉ ys)
    (h : xs ++ [44] <+: ys ++ 44 :: rest) : xs = ys := by
  induction xs generalizing ys with
  | nil =>
    cases ys with
    | nil => rfl
    | cons y ys =>
      rw [List.nil_append, List.cons_append, List.cons_prefix_cons] at h
      exact absurd List.mem_cons_self (h.1 ▸ hys)
  | cons x xs ih =>
    cases ys with
    | nil =>
      rw [List.cons_append, List.nil_append, List.cons_prefix_cons] at h
      exact absurd List.mem_cons_self (h.1 ▸ hxs)
    | cons y ys =>
      rw [List.cons_append, List.cons_append, List.cons_prefix_cons] at h
      obtain ⟨rfl, h⟩ := h
      rw [ih (fun hin => hxs (List.mem_cons_of_mem x hin)) (fun hin => hys (List.mem_cons_of_mem x hin)) h]

/-- The bytes of a nonce that come back as the server sent them. -/
def EchoedByte (b : UInt8) : Prop := b ≠ 61 ∧ b < 128

/-- A nonce comes back byte for byte if and only if it has no equals sign and is all ASCII: it is cut at an equals
sign, and a byte from 128 on comes back as two. -/
theorem echoed_iff {rnonce : Buffer} {echoed proof : String} (hcomma : 44 ∉ rnonce)
    (h : (split (binaryValue rnonce) '=').head? = some echoed) :
    utf8 "c=biws,r=" ++ rnonce ++ utf8 ",p=" <+: utf8 ("c=biws,r=" ++ echoed ++ ",p=" ++ proof) ↔
      ∀ b ∈ rnonce, EchoedByte b := by
  rw [split_binaryValue, Option.some.injEq] at h
  subst h
  have hsign : utf8 ",p=" = 44 :: utf8 "p=" := by decide
  have htext : utf8 ("c=biws,r=" ++ binaryValue (rnonce.takeWhile (· ≠ 61)) ++ ",p=" ++ proof) =
      utf8 "c=biws,r=" ++ (encoded (rnonce.takeWhile (· ≠ 61)) ++ (utf8 ",p=" ++ utf8 proof)) := by
    simp only [utf8_append, encoded, List.append_assoc]
  rw [htext, List.append_assoc, List.prefix_append_right_inj]
  constructor
  · intro hprefix
    -- both texts go on with the comma before the proof, and neither has one before
    have hkept : 44 ∉ encoded (rnonce.takeWhile (· ≠ 61)) := fun hin =>
      hcomma ((List.takeWhile_prefix _).subset (of_mem_encoded (by decide) hin))
    have hsame : rnonce = encoded (rnonce.takeWhile (· ≠ 61)) := by
      rw [hsign, List.cons_append] at hprefix
      refine eq_of_prefix_comma hcomma hkept (List.IsPrefix.trans ?_ hprefix)
      rw [List.prefix_append_right_inj]
      exact ⟨utf8 "p=", rfl⟩
    have hequals : 61 ∉ rnonce := by
      intro hin
      rw [hsame] at hin
      have hin := of_mem_encoded (by decide) hin
      exact absurd (List.mem_takeWhile_imp hin) (by decide)
    have hwhole : rnonce.takeWhile (· ≠ 61) = rnonce := List.takeWhile_eq_self_iff.2 fun b hb => by
      rw [decide_eq_true_eq]
      rintro rfl
      exact hequals hb
    rw [hwhole] at hsame
    intro b hb
    refine ⟨?_, (length_encoded rnonce).2 (congrArg List.length hsame).symm b hb⟩
    rintro rfl
    exact hequals hb
  · intro hbytes
    have hwhole : rnonce.takeWhile (· ≠ 61) = rnonce :=
      List.takeWhile_eq_self_iff.2 fun b hb => decide_eq_true (hbytes b hb).1
    rw [hwhole, encoded_ascii fun b hb => (hbytes b hb).2, List.prefix_append_right_inj]
    exact List.prefix_append _ _

/-- A payload is read whole if and only if its names are plain and no value has an equals sign; the nonce of a
server with plain names is echoed, in the bytes it came in, if and only if it has none and is all ASCII. -/
theorem payload_read_iff (crypto : Crypto) (pairs : List (String × String)) (hnames : (pairs.map Prod.fst).Nodup)
    (hvalues : ∀ p ∈ pairs, ',' ∉ p.2.toList) :
    (ReadWhole pairs ↔ ∀ p ∈ pairs, Plain p) ∧
    ∀ (cache cache' : HiCache) (cryptoMethod : CryptoMethod) (response : ScramResponse) (authContext : AuthContext)
      (buffer : Buffer) (command : SaslContinue) (rnonce : Buffer),
      response.payload.toBinary = some buffer → binaryValue buffer = payloadText pairs →
      (∀ p ∈ pairs, PlainName p.1) → ("r", binaryValue rnonce) ∈ pairs →
      continueScramConversation crypto cache cryptoMethod response authContext = (.sent command, cache') →
      (utf8 "c=biws,r=" ++ rnonce ++ utf8 ",p=" <+: command.payload ↔ ∀ b ∈ rnonce, EchoedByte b) := by
  refine ⟨readWhole_iff hnames hvalues, ?_⟩
  intro cache cache' cryptoMethod response authContext buffer command rnonce hbuffer htext hplain hmem hsent
  obtain ⟨echoed, proof, hechoed, hpayload⟩ := payload_of_sent hbuffer hsent
  rw [htext, property_of_plain hnames hvalues hplain _ hmem] at hechoed
  rw [hpayload]
  refine echoed_iff (fun hin => hvalues _ hmem ?_) hechoed
  rw [binaryValue, String.toList_ofList]
  exact List.mem_map.2 ⟨44, hin, rfl⟩

/-- Hashes that are all empty. -/
private def emptyCrypto : Crypto where
  createHash _ _ := .ok []
  createHmac _ _ _ := .ok []
  pbkdf2Sync _ _ _ _ _ := .ok []
  saslprep := none

private def emptyContext : AuthContext where
  credentials := some { username := "user", password := "pencil", source := "admin" }
  nonce := some []

/-- `r=<nonce>,s=c2FsdA,i=4096` for a nonce of two bytes. -/
private def shortNonce (first second : UInt8) : Buffer :=
  [114, 61, first, second, 44, 115, 61, 99, 50, 70, 115, 100, 65, 44, 105, 61, 52, 48, 57, 54]

private def shortAnswer (first second : UInt8) : Outcome × HiCache :=
  continueScramConversation emptyCrypto hiCachePurge .sha256 { payload := .binary (shortNonce first second) } emptyContext

private def shortFinal (nonce : Buffer) : SaslContinue where
  db := "admin"
  conversationId := none
  payload := utf8 "c=biws,r=" ++ nonce ++ utf8 ",p="
  serverSignature := []

private def plainPairs : List (String × String) := [("r", "ab"), ("s", "c2FsdA"), ("i", "4096")]

private def foreignPairs : List (String × String) := [("r", "a\u00e9"), ("s", "c2FsdA"), ("i", "4096")]

/-- A nonce of ASCII without padding comes back; in one with a byte from 128 on, other bytes do. -/
theorem payload_read_iff_unpadded :
    ReadWhole plainPairs ∧
      utf8 "c=biws,r=" ++ [97, 98] ++ utf8 ",p=" <+: (shortFinal [97, 98]).payload ∧
      ¬ utf8 "c=biws,r=" ++ [97, 233] ++ utf8 ",p=" <+: (shortFinal [97, 195, 169]).payload := by
  obtain ⟨hread, hecho⟩ := payload_read_iff emptyCrypto plainPairs (by decide) (by decide)
  obtain ⟨-, hforeign⟩ := payload_read_iff emptyCrypto foreignPairs (by decide) (by decide)
  refine ⟨hread.2 (by unfold Plain PlainName; decide), ?_, fun h => ?_⟩
  · have hsent : shortAnswer 97 98 = (.sent (shortFinal [97, 98]), (shortAnswer 97 98).2) := Prod.ext (by decide) rfl
    exact (hecho hiCachePurge _ .sha256 { payload := .binary (shortNonce 97 98) } emptyContext (shortNonce 97 98) _
      [97, 98] rfl (by decide) (by unfold PlainName; decide) (by decide) hsent).2 (by simp [EchoedByte])
  · have hsent : shortAnswer 97 233 = (.sent (shortFinal [97, 195, 169]), (shortAnswer 97 233).2) :=
      Prod.ext (by decide) rfl
    have hbytes := (hforeign hiCachePurge _ .sha256 { payload := .binary (shortNonce 97 233) } emptyContext
      (shortNonce 97 233) _ [97, 233] rfl (by decide) (by unfold PlainName; decide) (by decide) hsent).1 h
    exact absurd (hbytes 233 (by decide)).2 (by decide)

/-- The padding of a value is lost. -/
theorem padding_is_lost :
    ¬ ∀ pairs : List (String × String), (pairs.map Prod.fst).Nodup → (∀ p ∈ pairs, ',' ∉ p.2.toList) →
      ReadWhole pairs := by
  intro h
  have hread := h [("r", "3rfcNHYJY1ZVvWVs7j=="), ("s", "QSXCR+Q6sek8bf92"), ("i", "4096")] (by decide) (by decide)
    _ List.mem_cons_self
  exact absurd hread (by decide)

end MongoDriver.Auth
