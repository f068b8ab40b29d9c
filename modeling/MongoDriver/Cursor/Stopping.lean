/-
What is left of a cursor when the iterator of `forEach` returns `false` or throws (`src/cursor/abstract_cursor.ts`).
Nothing of a batch is out of the buffer but its first document when the iterator is called with that one, and all of it
is out when the iterator is called with another; so the documents after one at which the iterator stops are lost when
they are of the same batch, unless it is the first.
-/
import MongoDriver.Cursor.Mapping

namespace MongoDriver.Cursor

variable {δ τ : Type}

/-- What `forEach` passed and what enough calls of `next` after it return are the documents of the history. -/
def LosesNothing (env : CursorEnv δ τ) (f : Item δ τ → Item δ τ) (h₀ : History δ) (out : Iterated δ τ) : Prop :=
  ∃ enough, ∀ n, enough ≤ n → ∃ t, Run.exec (step env) (out.reading, []) (List.replicate n .next) = some t ∧
    out.passed ++ (returned t.2).map some = (h₀.items.map f).map some

section Stopping

variable {env : CursorEnv δ τ} {f : Item δ τ → Item δ τ} {iterator : Iterator δ τ} {h₀ h' : History δ}
  {out : Iterated δ τ} {taken lost buffer : List δ}

/-- Enough calls of `next` return what is buffered and to come. -/
theorem Left.read (hf : env.Maps f) (hl : Left f iterator [] h₀ out taken lost buffer h') {n : Nat}
    (hn : work (buffer.map Item.document : List (Item δ τ)) h' ≤ n) :
    ∃ t, Run.exec (step env) (out.reading, []) (List.replicate n .next) = some t ∧
      out.passed ++ (returned t.2).map some = values f taken ++ values f (buffer ++ h'.documents) := by
  have hnexts : ∀ m ∈ List.replicate n Method.next, m ≠ .hasNext := by
    intro m hm
    rw [List.eq_of_mem_replicate hm]
    exact fun he => by cases he
  have hholds : Holds env out.reading.cursor (buffer.map .document) h' := hl.shape.holds
  obtain ⟨t, hrun, hret⟩ := exec_foretold hf (List.replicate n .next) [] hnexts hl.replies hholds
    (by rwa [List.length_replicate])
  refine ⟨t, hrun, ?_⟩
  have hitems : buffer.map Item.document ++ h'.items = ((buffer ++ h'.documents).map Item.document : List (Item δ τ)) :=
    List.map_append.symm
  rw [hret, foretold_eq hl.replies hholds, hitems, hl.passing, ← values_eq (buffer ++ h'.documents)]
  rfl

theorem Left.losesNothing_iff (hf : env.Maps f) (hl : Left f iterator [] h₀ out taken lost buffer h') :
    LosesNothing env f h₀ out ↔ lost = [] := by
  have hall : (h₀.items.map f).map some = values f (taken ++ lost ++ (buffer ++ h'.documents)) := by
    rw [← hl.documents]
    exact values_eq _
  constructor
  · rintro ⟨enough, hread⟩
    let n := max enough (work (buffer.map Item.document : List (Item δ τ)) h')
    obtain ⟨t, hrun, hret⟩ := hread n (Nat.le_max_left ..)
    obtain ⟨t', hrun', hret'⟩ := hl.read hf (n := n) (Nat.le_max_right ..)
    obtain rfl := Option.some.inj (hrun.symm.trans hrun')
    have hlen := congrArg List.length (hret'.symm.trans (hret.trans hall))
    simp only [values, List.length_append, List.length_map] at hlen
    exact List.eq_nil_of_length_eq_zero (by omega)
  · rintro rfl
    refine ⟨work (buffer.map Item.document : List (Item δ τ)) h', fun n hn => ?_⟩
    obtain ⟨t, hrun, hret⟩ := hl.read hf hn
    exact ⟨t, hrun, by rw [hret, hall, List.append_nil, values_append taken]⟩

end Stopping

/-- For every history that ends in a zero id and every iterator, wherever it stops or throws: `forEach` comes back, and
what it passed with what `next` returns after it are the documents of the history, in order, exactly when it did not
stop at a document that is neither the first of its batch nor the last. -/
theorem stopped_loses_nothing_iff (env : CursorEnv δ τ) (f : Item δ τ → Item δ τ) (hf : env.Maps f)
    (iterator : Iterator δ τ) (session : Option CursorSession) (h₀ : History δ) (hh : EndsInZero h₀) (fuel : Nat)
    (hfuel : h₀.documents.length < fuel) :
    ∃ out, AbstractCursor.forEach env iterator fuel [] (Reading.new session h₀) = some out ∧
      (LosesNothing env f h₀ out ↔ ¬ iterator.StopsInside [] (h₀.batches f)) := by
  have hnew : Shape (Reading.new session h₀ : Reading δ τ).cursor [] h₀ := .unopened rfl rfl rfl hh
  obtain ⟨out, taken, lost, buffer, h', hrun, hl⟩ := forEach_left hf iterator fuel [] hnew rfl hfuel
  refine ⟨out, hrun, ?_⟩
  rw [hl.losesNothing_iff hf, ← hl.lost, ne_eq, not_not]

/-- The iterator that stops at a document. -/
def stopAt (n : Nat) : Iterator Nat Nat := fun _ value => if value = some (.document n) then .stop else .proceed

/-- Stopped at the last document of a batch. -/
theorem stopped_loses_nothing_iff_last :
    ∃ out, AbstractCursor.forEach { truthy := fun _ => true } (stopAt 2) 4 [] (Reading.new none [(7, [1, 2]), (0, [3])]) =
        some out ∧
      (LosesNothing { truthy := fun _ => true } id [(7, [1, 2]), (0, [3])] out ↔
        ¬ (stopAt 2).StopsInside [] (History.batches id [(7, [1, 2]), (0, [3])])) :=
  stopped_loses_nothing_iff { truthy := fun _ => true } id (fun _ => rfl) (stopAt 2) none [(7, [1, 2]), (0, [3])]
    ⟨by decide, rfl⟩ 4 (by decide)

/-- Stopped at the second document of three: the third one is gone. -/
theorem stopping_loses_the_batch :
    ∃ out, AbstractCursor.forEach { truthy := fun _ => true } (stopAt 2) 4 [] (Reading.new none [(0, [1, 2, 3])]) =
        some out ∧ out.passed = [some (.document 1), some (.document 2)] ∧
      ¬ LosesNothing { truthy := fun _ => true } id [(0, [1, 2, 3])] out := by
  obtain ⟨out, taken, lost, buffer, h', hrun, hl⟩ := forEach_left
    (show CursorEnv.Maps { truthy := fun _ => true } (id : Item Nat Nat → Item Nat Nat) from fun _ => rfl) (stopAt 2) 4 []
    (r := Reading.new none [(0, [1, 2, 3])]) (h := [(0, [1, 2, 3])]) (.unopened rfl rfl rfl rfl) rfl (by decide)
  refine ⟨out, hrun, ?_, ?_⟩
  · cases hrun
    rfl
  · rw [hl.losesNothing_iff fun _ => rfl, ← ne_eq, hl.lost]
    exact ⟨by decide, .inl (.inl ⟨by decide, by decide⟩)⟩

end MongoDriver.Cursor
