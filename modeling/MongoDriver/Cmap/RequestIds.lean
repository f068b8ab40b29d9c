/-
The ids that messages are constructed with (`src/cmap/commands.ts`). All classes draw from one counter: `Query` and
`Msg` increment it and take the new value, `Msg` after wrapping it to 31 bits, while `GetMore` and `KillCursor` take the
value and increment it afterwards. A message that takes the value first gets the id of the message before it when that
one took it last, and only `Msg` wraps. What each construction may draw is told by where the counter stands among the
ids drawn so far, modulo 2^31; from that follows exactly which sequences keep the ids apart.
-/
import Mathlib.Data.List.Infix
import MongoDriver.Base.Run

namespace MongoDriver.Cmap

/-! ## The counter -/

/-- A construction of a message. A `Msg` is given a request id when its options have one that is not zero. -/
inductive Construction
  | query
  | msg (requestId : Option Int)
  | getMore
  | killCursor
deriving DecidableEq

namespace Construction

/-- The request id that the caller gives. -/
def given : Construction → Option Int
  | msg requestId => requestId.filter (· ≠ 0)
  | _ => none

/-- The counter is incremented before its value is taken. -/
def incrementsFirst : Construction → Bool
  | query | msg _ => true
  | getMore | killCursor => false

end Construction

/-- `_requestId`, and the messages constructed so far with their ids, the latest first. -/
structure RequestIds where
  requestId : Nat := 0
  made : List (Construction × Int) := []

/-- `n + 1` of a number, which is exact up to 2^53. -/
def increment (n : Nat) : Nat := if n < 9007199254740992 then n + 1 else n

namespace RequestIds

/-- The constructor of the message's class draws its id. -/
def construct (s : RequestIds) (k : Construction) : RequestIds :=
  match k with
  | .query =>
    let requestId := increment s.requestId
    { requestId, made := (k, requestId) :: s.made }
  | .msg given =>
    match given.filter (· ≠ 0) with
    | some requestId => { s with made := (k, requestId) :: s.made }
    | none =>
      let requestId := increment s.requestId &&& 0x7fffffff
      { requestId, made := (k, requestId) :: s.made }
  | .getMore | .killCursor => { requestId := increment s.requestId, made := (k, s.requestId) :: s.made }

/-! ## Ids that are apart -/

/-- The messages that a new one must differ from: with it they are fewer than 2^31. -/
def recent (s : RequestIds) : List (Construction × Int) := s.made.take 2147483646

/-- Every id is in range, and the ids of any fewer than 2^31 consecutive messages are different. -/
structure Apart (s : RequestIds) : Prop where
  inRange : ∀ m ∈ s.made, 0 ≤ m.2 ∧ m.2 < 2147483648
  different : ∀ i j a b, i < j → j - i < 2147483647 → s.made[i]? = some a → s.made[j]? = some b → a.2 ≠ b.2

/-- No recent message was given the id by its caller. -/
def NotGiven (s : RequestIds) (id : Int) : Prop := ∀ m ∈ s.recent, m.1.given ≠ some id

/-- The last recent message that drew its id incremented the counter first. -/
def incrementedFirst (s : RequestIds) : Bool :=
  (s.recent.find? fun m => m.1.given.isNone).any fun m => m.1.incrementsFirst

/-- The construction draws an id that is in range and free: one that is given is so by itself, a `Query` is not the
first message beyond the range, and a message that takes the value first does not follow one that took it last. -/
def DrawsFree (s : RequestIds) (k : Construction) : Prop :=
  match k.given with
  | some id => (0 ≤ id ∧ id < 2147483648) ∧ ∀ m ∈ s.recent, m.2 ≠ id
  | none =>
    match k with
    | .query => s.requestId + 1 < 2147483648 ∧ s.NotGiven (s.requestId + 1 : Nat)
    | .msg _ => s.NotGiven (s.requestId + 1 &&& 0x7fffffff : Nat)
    | .getMore | .killCursor =>
      s.requestId < 2147483648 ∧ s.incrementedFirst = false ∧ s.NotGiven s.requestId

/-- One more message: its id is in range and differs from the recent ones. -/
def NextApart (s : RequestIds) (id : Int) : Prop := (0 ≤ id ∧ id < 2147483648) ∧ ∀ m ∈ s.recent, m.2 ≠ id

section Apart

variable {s : RequestIds} {k : Construction} {id : Int}

theorem mem_recent {m : Construction × Int} : m ∈ s.recent ↔ ∃ i, i < 2147483646 ∧ s.made[i]? = some m := by
  unfold recent
  rw [List.mem_iff_getElem?]
  constructor
  · rintro ⟨i, hi⟩
    rw [List.getElem?_take] at hi
    split at hi
    · rename_i hlt
      exact ⟨i, hlt, hi⟩
    · cases hi
  · rintro ⟨i, hlt, hi⟩
    exact ⟨i, by rw [List.getElem?_take, if_pos hlt]; exact hi⟩

/-- Messages are apart when the earlier ones are and the last one is apart from the recent ones. -/
theorem apart_cons_iff {requestId counter : Nat} {made : List (Construction × Int)} :
    (RequestIds.mk requestId ((k, id) :: made)).Apart ↔
      (RequestIds.mk counter made).Apart ∧ (RequestIds.mk counter made).NextApart id := by
  constructor
  · intro h
    refine ⟨⟨fun m hm => h.inRange m (List.mem_cons_of_mem _ hm), fun i j a b hij hwin ha hb => ?_⟩, ?_, ?_⟩
    · exact h.different (i + 1) (j + 1) a b (by omega) (by omega) ha hb
    · exact h.inRange (k, id) (List.mem_cons_self ..)
    · intro m hm heq
      obtain ⟨i, hlt, hi⟩ := mem_recent.1 hm
      exact h.different 0 (i + 1) (k, id) m (by omega) (by omega) rfl hi heq.symm
  · rintro ⟨h, hid, hrecent⟩
    refine ⟨List.forall_mem_cons.2 ⟨hid, h.inRange⟩, fun i j a b hij hwin ha hb => ?_⟩
    obtain ⟨j, rfl⟩ : ∃ j', j = j' + 1 := ⟨j - 1, by omega⟩
    have hb' : made[j]? = some b := hb
    cases i with
    | zero =>
      cases ha
      exact (hrecent b (mem_recent.2 ⟨j, by omega, hb'⟩)).symm
    | succ i => exact h.different i j a b (by omega) (by omega) ha hb'

end Apart

/-! ## Where the counter stands -/

/-- The messages that drew their id. -/
def drawn (s : RequestIds) : List (Construction × Int) := s.made.filter fun m => m.1.given.isNone

/-- How far the counter is past an id when it was drawn. -/
def past (k : Construction) : Int := if k.incrementsFirst then 0 else 1

/-- Ids that are given are those of the caller, and going back from the counter one finds the ids that were drawn,
modulo 2^31. -/
structure Aligned (s : RequestIds) : Prop where
  counter : s.requestId ≤ 2147483648
  given : ∀ m ∈ s.made, ∀ id, m.1.given = some id → m.2 = id
  drawn : ∀ (i : Nat) (m : Construction × Int), s.drawn[i]? = some m →
    (2147483648 : Int) ∣ m.2 + i + past m.1 - s.requestId

section Aligned

variable {s : RequestIds} {k : Construction} {m : Construction × Int} {id : Int}

theorem past_cases (k : Construction) : past k = 0 ∨ past k = 1 := by
  unfold past
  split
  · exact .inl rfl
  · exact .inr rfl

/-- The recent messages that drew their id are the first of all that did. -/
theorem recent_drawn : s.recent.filter (fun m => m.1.given.isNone) <+: s.drawn :=
  (List.take_prefix _ _).filter _

theorem exists_drawn (hm : m ∈ s.recent) (hdraws : m.1.given = none) :
    ∃ i, i < 2147483646 ∧ (s.recent.filter fun m => m.1.given.isNone)[i]? = some m ∧ s.drawn[i]? = some m := by
  have hmem : m ∈ s.recent.filter fun m => m.1.given.isNone := List.mem_filter.2 ⟨hm, by rw [hdraws]; rfl⟩
  obtain ⟨i, hi⟩ := List.mem_iff_getElem?.1 hmem
  obtain ⟨hlt, -⟩ := List.getElem?_eq_some_iff.1 hi
  obtain ⟨rest, hrest⟩ := recent_drawn (s := s)
  have hlen : (s.recent.filter fun m => m.1.given.isNone).length ≤ 2147483646 :=
    (List.length_filter_le _ _).trans (List.length_take_le _ _)
  refine ⟨i, by omega, hi, ?_⟩
  rw [← hrest, List.getElem?_append_left hlt]
  exact hi

/-- The first of the recent messages that drew their id is the last one drawn of all. -/
theorem find_drawn : (s.recent.find? fun m => m.1.given.isNone) = (s.recent.filter fun m => m.1.given.isNone)[0]? := by
  rw [← List.head?_filter, List.head?_eq_getElem?]

theorem drawn_of_find (h : (s.recent.find? fun m => m.1.given.isNone) = some m) : s.drawn[0]? = some m := by
  rw [find_drawn] at h
  obtain ⟨hlt, -⟩ := List.getElem?_eq_some_iff.1 h
  obtain ⟨rest, hrest⟩ := recent_drawn (s := s)
  rw [← hrest, List.getElem?_append_left hlt]
  exact h

/-- An id that no recent message drew is apart from them when none was given it. -/
theorem differs_iff (h : s.Aligned) (hdrawn : ∀ m ∈ s.recent, m.1.given = none → m.2 ≠ id) :
    (∀ m ∈ s.recent, m.2 ≠ id) ↔ s.NotGiven id := by
  constructor
  · intro hall m hm hgiven
    exact hall m hm (h.given m (List.mem_of_mem_take hm) id hgiven)
  · intro hnot m hm
    cases hgiven : m.1.given with
    | none => exact hdrawn m hm hgiven
    | some id' =>
      rw [h.given m (List.mem_of_mem_take hm) id' hgiven]
      rintro rfl
      exact hnot m hm hgiven

/-- No recent message drew the value after the counter's. -/
theorem successor_free (h : s.Aligned) (hid : (2147483648 : Int) ∣ id - (s.requestId + 1)) :
    ∀ m ∈ s.recent, m.1.given = none → m.2 ≠ id := by
  rintro m hm hdraws rfl
  obtain ⟨i, hi, -, hdrawn⟩ := exists_drawn hm hdraws
  have hdvd := h.drawn i m hdrawn
  rcases past_cases m.1 with hpast | hpast
  · rw [hpast] at hdvd
    omega
  · rw [hpast] at hdvd
    omega

/-- The counter's own value was drawn by a recent message only if the last one took it after the increment. -/
theorem value_free_iff (h : s.Aligned) (hrange : ∀ m ∈ s.made, 0 ≤ m.2 ∧ m.2 < 2147483648)
    (hcounter : s.requestId < 2147483648) :
    (∀ m ∈ s.recent, m.1.given = none → m.2 ≠ s.requestId) ↔ s.incrementedFirst = false := by
  unfold incrementedFirst
  cases hfind : s.recent.find? fun m => m.1.given.isNone with
  | none =>
    refine iff_of_true (fun m hm hdraws _ => ?_) rfl
    have := List.find?_eq_none.1 hfind m hm
    rw [hdraws] at this
    exact this rfl
  | some last =>
    have hmem := List.mem_of_find?_eq_some hfind
    have hdraws : last.1.given = none := by simpa using List.find?_some hfind
    have hdvd := h.drawn 0 last (drawn_of_find hfind)
    rw [Option.any_some]
    constructor
    · intro hfree
      rw [Bool.eq_false_iff]
      intro hfirst
      have hpast : past last.1 = 0 := if_pos hfirst
      obtain ⟨hlo, hhi⟩ := hrange last (List.mem_of_mem_take hmem)
      rw [hpast] at hdvd
      exact hfree last hmem hdraws (by omega)
    · intro hlast m hm hdraws' heq
      obtain ⟨i, hi, hrecent, hdrawn⟩ := exists_drawn hm hdraws'
      have hdvd' := h.drawn i m hdrawn
      have hcases := past_cases m.1
      obtain rfl : i = 0 := by omega
      -- the message is the last one, which took the value first
      rw [← find_drawn, hfind] at hrecent
      cases hrecent
      have hpast : past last.1 = 1 := if_neg (by rw [hlast]; simp)
      omega

/-! ## One construction -/

theorem construct_given (h : k.given = some id) : s.construct k = { s with made := (k, id) :: s.made } := by
  cases k with
  | msg given =>
    have hgiven : given.filter (· ≠ 0) = some id := h
    simp only [construct, hgiven]
  | query => cases h
  | getMore => cases h
  | killCursor => cases h

theorem increment_eq (h : s.Aligned) : increment s.requestId = s.requestId + 1 := by
  have hcounter := h.counter
  exact if_pos (by omega)

theorem construct_query (h : s.Aligned) :
    s.construct .query = { requestId := s.requestId + 1, made := (.query, (s.requestId + 1 : Nat)) :: s.made } := by
  simp only [construct, increment_eq h]

theorem construct_msg {given : Option Int} (h : s.Aligned) (hgiven : (Construction.msg given).given = none) :
    s.construct (.msg given) =
      { requestId := (s.requestId + 1) % 2147483648
        made := (.msg given, ((s.requestId + 1) % 2147483648 : Nat)) :: s.made } := by
  have hfilter : given.filter (· ≠ 0) = none := hgiven
  have hmask : s.requestId + 1 &&& 0x7fffffff = (s.requestId + 1) % 2147483648 :=
    Nat.and_two_pow_sub_one_eq_mod (s.requestId + 1) 31
  simp only [construct, hfilter, increment_eq h, hmask]

theorem construct_after (h : s.Aligned) (hk : k = .getMore ∨ k = .killCursor) :
    s.construct k = { requestId := s.requestId + 1, made := (k, s.requestId) :: s.made } := by
  rcases hk with rfl | rfl
  · simp only [construct, increment_eq h]
  · simp only [construct, increment_eq h]

/-- A drawn id puts the counter one further, modulo 2^31. -/
theorem aligned_cons {requestId : Nat} (h : s.Aligned) (hk : k.given = none) (hcounter : requestId ≤ 2147483648)
    (hnext : (2147483648 : Int) ∣ requestId - (s.requestId + 1)) (hid : (2147483648 : Int) ∣ id + past k - requestId) :
    (RequestIds.mk requestId ((k, id) :: s.made)).Aligned := by
  refine ⟨hcounter, List.forall_mem_cons.2 ⟨fun id' hgiven => ?_, h.given⟩, fun i m hm => ?_⟩
  · rw [hk] at hgiven
    cases hgiven
  · have hcons : (RequestIds.mk requestId ((k, id) :: s.made)).drawn = (k, id) :: s.drawn := by
      unfold RequestIds.drawn
      exact List.filter_cons_of_pos (by rw [hk]; rfl)
    rw [hcons] at hm
    cases i with
    | zero =>
      cases hm
      simpa using hid
    | succ i =>
      have hdvd := h.drawn i m hm
      simp only
      omega

theorem construct_aligned (h : s.Aligned) (hfree : s.DrawsFree k) : (s.construct k).Aligned := by
  have hc := h.counter
  unfold DrawsFree at hfree
  cases hgiven : k.given with
  | some id =>
    rw [construct_given hgiven]
    refine ⟨hc, List.forall_mem_cons.2 ⟨fun id' hid' => ?_, h.given⟩, fun i m hm => ?_⟩
    · exact Option.some.inj (hgiven.symm.trans hid')
    · have hcons : (RequestIds.mk s.requestId ((k, id) :: s.made)).drawn = s.drawn := by
        unfold RequestIds.drawn
        exact List.filter_cons_of_neg (by rw [hgiven]; simp)
      rw [hcons] at hm
      exact h.drawn i m hm
  | none =>
    rw [hgiven] at hfree
    cases k with
    | query =>
      obtain ⟨hlt, -⟩ := hfree
      rw [construct_query h]
      exact aligned_cons h rfl (by omega) ⟨0, by push_cast; omega⟩ ⟨0, by simp [past, Construction.incrementsFirst]⟩
    | msg given =>
      rw [construct_msg h hgiven]
      refine aligned_cons h hgiven (by omega) (by omega) ⟨0, by simp [past, Construction.incrementsFirst]⟩
    | getMore =>
      rw [construct_after h (.inl rfl)]
      obtain ⟨hlt, -⟩ := hfree
      exact aligned_cons h rfl (by omega) ⟨0, by push_cast; omega⟩ ⟨0, by simp [past, Construction.incrementsFirst]⟩
    | killCursor =>
      rw [construct_after h (.inr rfl)]
      obtain ⟨hlt, -⟩ := hfree
      exact aligned_cons h rfl (by omega) ⟨0, by push_cast; omega⟩ ⟨0, by simp [past, Construction.incrementsFirst]⟩

theorem nextApart_after (h : s.Aligned) (hapart : s.Apart) :
    s.NextApart s.requestId ↔
      s.requestId < 2147483648 ∧ s.incrementedFirst = false ∧ s.NotGiven s.requestId := by
  unfold NextApart
  constructor
  · rintro ⟨⟨-, hlt⟩, hall⟩
    have hfree : ∀ m ∈ s.recent, m.1.given = none → m.2 ≠ s.requestId := fun m hm _ => hall m hm
    exact ⟨by omega, (value_free_iff h hapart.inRange (by omega)).1 hfree, (differs_iff h hfree).1 hall⟩
  · rintro ⟨hlt, hlast, hnot⟩
    have hfree := (value_free_iff h hapart.inRange hlt).2 hlast
    exact ⟨⟨by omega, by omega⟩, (differs_iff h hfree).2 hnot⟩

/-- Ids that are apart stay so exactly when the next one is drawn free. -/
theorem construct_apart_iff (h : s.Aligned) (hapart : s.Apart) : (s.construct k).Apart ↔ s.DrawsFree k := by
  have hself : (RequestIds.mk s.requestId s.made).Apart := hapart
  unfold DrawsFree
  cases hgiven : k.given with
  | some id =>
    rw [construct_given hgiven]
    exact apart_cons_iff.trans (and_iff_right hself)
  | none =>
    cases k with
    | query =>
      rw [construct_query h]
      refine (apart_cons_iff.trans (and_iff_right hself)).trans ?_
      have hnext : (2147483648 : Int) ∣ (s.requestId + 1 : Nat) - (s.requestId + 1 : Int) := ⟨0, by push_cast; omega⟩
      have hfree := differs_iff h (successor_free h hnext)
      unfold NextApart
      rw [← hfree]
      constructor
      · rintro ⟨⟨-, hlt⟩, hall⟩
        exact ⟨by omega, hall⟩
      · rintro ⟨hlt, hall⟩
        exact ⟨⟨by omega, by omega⟩, hall⟩
    | msg given =>
      have hmask : s.requestId + 1 &&& 0x7fffffff = (s.requestId + 1) % 2147483648 :=
        Nat.and_two_pow_sub_one_eq_mod (s.requestId + 1) 31
      rw [construct_msg h hgiven]
      refine (apart_cons_iff.trans (and_iff_right hself)).trans ?_
      have hnext : (2147483648 : Int) ∣ ((s.requestId + 1) % 2147483648 : Nat) - (s.requestId + 1 : Int) := by omega
      have hfree := differs_iff h (successor_free h hnext)
      simp only [hmask]
      unfold NextApart
      rw [← hfree]
      exact and_iff_right ⟨by omega, by omega⟩
    | getMore =>
      rw [construct_after h (.inl rfl)]
      exact (apart_cons_iff.trans (and_iff_right hself)).trans (nextApart_after h hapart)
    | killCursor =>
      rw [construct_after h (.inr rfl)]
      exact (apart_cons_iff.trans (and_iff_right hself)).trans (nextApart_after h hapart)

end Aligned

/-! ## Sequences of constructions -/

/-- A construction as a step. -/
def next (s : RequestIds) (k : Construction) : Option RequestIds := some (s.construct k)

/-- The state that the module starts in. -/
theorem start_aligned : ({} : RequestIds).Aligned := by
  refine ⟨Nat.zero_le _, fun m hm => absurd hm List.not_mem_nil, fun i m hm => ?_⟩
  unfold RequestIds.drawn at hm
  cases hm

theorem start_apart : ({} : RequestIds).Apart := by
  refine ⟨fun m hm => absurd hm List.not_mem_nil, fun i j a b _ _ ha => ?_⟩
  cases ha

theorem construct_made (s : RequestIds) (k : Construction) :
    ∃ counter id, s.construct k = { requestId := counter, made := (k, id) :: s.made } := by
  cases k with
  | query => exact ⟨_, _, rfl⟩
  | msg given =>
    simp only [construct]
    cases given.filter (· ≠ 0) with
    | some id => exact ⟨_, id, rfl⟩
    | none => exact ⟨_, _, rfl⟩
  | getMore => exact ⟨_, _, rfl⟩
  | killCursor => exact ⟨_, _, rfl⟩

/-- Two equal ids stay equal. -/
theorem apart_of_construct {s : RequestIds} {k : Construction} (h : (s.construct k).Apart) : s.Apart := by
  obtain ⟨counter, id, heq⟩ := construct_made s k
  rw [heq] at h
  have hself : (RequestIds.mk s.requestId s.made).Apart := (apart_cons_iff.1 h).1
  exact hself

theorem apart_of_run {s t : RequestIds} {ks : List Construction} (h : t.Apart)
    (hrun : Run.exec next s ks = some t) : s.Apart := by
  induction ks generalizing s with
  | nil =>
    cases hrun
    exact h
  | cons k ks ih => exact apart_of_construct (ih hrun)

/-- Along a run the ids are apart exactly when every construction draws a free one. -/
theorem run_apart_iff {s t : RequestIds} {ks : List Construction} (haligned : s.Aligned) (hapart : s.Apart)
    (hrun : Run.exec next s ks = some t) : t.Apart ↔ Run.Meets next DrawsFree s ks := by
  induction ks generalizing s with
  | nil =>
    cases hrun
    exact iff_of_true hapart trivial
  | cons k ks ih =>
    have hrest : Run.exec next (s.construct k) ks = some t := hrun
    constructor
    · intro ht
      have hfree := (construct_apart_iff haligned hapart).1 (apart_of_run ht hrest)
      have hnext := (construct_apart_iff haligned hapart).2 hfree
      exact Run.Meets.cons hfree rfl ((ih (construct_aligned haligned hfree) hnext hrest).1 ht)
    · rintro ⟨hfree, hmeets⟩
      have hnext := (construct_apart_iff haligned hapart).2 hfree
      exact (ih (construct_aligned haligned hfree) hnext hrest).2 (hmeets _ rfl)

end RequestIds

/-- For every sequence of constructions, the ids are in range and those of fewer than 2^31 consecutive messages are
different exactly when each construction draws an id that is in range and free. -/
theorem request_ids_apart_iff (ks : List Construction) (t : RequestIds)
    (h : Run.exec RequestIds.next {} ks = some t) : t.Apart ↔ Run.Meets RequestIds.next RequestIds.DrawsFree {} ks :=
  RequestIds.run_apart_iff RequestIds.start_aligned RequestIds.start_apart h

/-- A `GetMore` and a `KillCursor` before any other message, and a `Msg` with an id of its own. -/
theorem request_ids_apart_cursor :
    ∃ t, Run.exec RequestIds.next {} [.getMore, .killCursor, .msg (some 7), .query] = some t ∧
      (t.Apart ↔ Run.Meets RequestIds.next RequestIds.DrawsFree {} [.getMore, .killCursor, .msg (some 7), .query]) :=
  ⟨_, rfl, request_ids_apart_iff _ _ rfl⟩

/-- A `GetMore` takes the id of the `Msg` before it. -/
theorem get_more_repeats : ¬ ∀ (ks : List Construction) (t : RequestIds),
    Run.exec RequestIds.next {} ks = some t → t.Apart := by
  intro h
  have hapart := h [.msg none, .getMore] _ rfl
  exact hapart.different 0 1 (.getMore, 1) (.msg none, 1) (by decide) (by decide) rfl rfl rfl

end MongoDriver.Cmap
