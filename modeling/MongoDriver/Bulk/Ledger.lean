/-
The ledger of a bulk: every accepted operation is in one of its batches, once, under its position
among the accepted operations. The ledger is about a list of batches; it is kept when a batch is
begun, when an operation joins the last batch, and when the batches of an unordered bulk are listed
in another order.
-/
import MongoDriver.Base.Heap
import MongoDriver.Bulk.Common

namespace MongoDriver.Bulk

open Heap (deref)

variable {δ ι : Type} {isOrdered : Bool}

/-- The operations of a batch, each with its type and the index recorded for it. -/
def Batch.entries (b : Batch δ) : List ((BatchType × δ) × Nat) :=
  (b.operations.map (b.batchType, ·)).zip b.originalIndexes

/-- The batches hold the accepted operations: one index for each operation, every operation in exactly
one place and under its position, in the order of acceptance in each batch, and in an ordered bulk
across them. -/
structure Ledger (isOrdered : Bool) (batches : List (Batch δ)) (accepted : List (BatchType × δ)) : Prop where
  aligned : ∀ b ∈ batches, b.operations.length = b.originalIndexes.length
  once : (batches.flatMap Batch.entries).Perm accepted.zipIdx
  inOrder : ∀ b ∈ batches, b.entries.Sublist accepted.zipIdx
  across : isOrdered = true → batches.flatMap Batch.entries = accepted.zipIdx

/-- Another listing of the same elements, the same one in an ordered bulk. -/
structure Rearranged {α : Type} (isOrdered : Bool) (l l' : List α) : Prop where
  perm : l.Perm l'
  same : isOrdered = true → l = l'

namespace Ledger

variable {batches batches' : List (Batch δ)} {accepted : List (BatchType × δ)} {b b' : Batch δ}

theorem nil : Ledger isOrdered ([] : List (Batch δ)) [] :=
  ⟨nofun, .nil, nofun, fun _ => rfl⟩

theorem rearrange (h : Ledger isOrdered batches accepted) (hr : Rearranged isOrdered batches batches') :
    Ledger isOrdered batches' accepted where
  aligned b hb := h.aligned b (hr.perm.mem_iff.2 hb)
  once := (hr.perm.flatMap_right _).symm.trans h.once
  inOrder b hb := h.inOrder b (hr.perm.mem_iff.2 hb)
  across ho := by rw [← hr.same ho]; exact h.across ho

/-- A batch without operations. -/
theorem alloc (h : Ledger isOrdered batches accepted) (batchType : BatchType) (index : Nat) :
    Ledger isOrdered (batches ++ [{ batchType, originalZeroIndex := index }]) accepted := by
  have hflat : (batches ++ [({ batchType, originalZeroIndex := index } : Batch δ)]).flatMap Batch.entries =
      batches.flatMap Batch.entries := by
    simp [Batch.entries]
  refine ⟨?_, by rw [hflat]; exact h.once, ?_, fun ho => hflat.trans (h.across ho)⟩
  · exact List.forall_mem_append.2 ⟨h.aligned, List.forall_mem_singleton.2 rfl⟩
  · exact List.forall_mem_append.2 ⟨h.inOrder, List.forall_mem_singleton.2 (List.nil_sublist _)⟩

/-- The last batch is changed in fields that hold no operations. -/
theorem touch (h : Ledger isOrdered (batches ++ [b]) accepted) (ht : b'.batchType = b.batchType)
    (ho : b'.operations = b.operations) (hi : b'.originalIndexes = b.originalIndexes) :
    Ledger isOrdered (batches ++ [b']) accepted := by
  have hentries : b'.entries = b.entries := by unfold Batch.entries; rw [ht, ho, hi]
  have hflat : (batches ++ [b']).flatMap Batch.entries = (batches ++ [b]).flatMap Batch.entries := by
    simp [hentries]
  obtain ⟨hal, hlast⟩ := List.forall_mem_append.1 h.aligned
  obtain ⟨hin, hsub⟩ := List.forall_mem_append.1 h.inOrder
  rw [List.forall_mem_singleton] at hlast hsub
  refine ⟨?_, by rw [hflat]; exact h.once, ?_, fun ho => hflat.trans (h.across ho)⟩
  · refine List.forall_mem_append.2 ⟨hal, List.forall_mem_singleton.2 ?_⟩
    rw [ho, hi]
    exact hlast
  · refine List.forall_mem_append.2 ⟨hin, List.forall_mem_singleton.2 ?_⟩
    rw [hentries]
    exact hsub

/-- An operation joins the last batch under the next position. -/
theorem push {document : δ} (h : Ledger isOrdered (batches ++ [b]) accepted) (ht : b'.batchType = b.batchType)
    (ho : b'.operations = b.operations ++ [document])
    (hi : b'.originalIndexes = b.originalIndexes ++ [accepted.length]) :
    Ledger isOrdered (batches ++ [b']) (accepted ++ [(b.batchType, document)]) := by
  obtain ⟨hal, hlast⟩ := List.forall_mem_append.1 h.aligned
  obtain ⟨hin, hsub⟩ := List.forall_mem_append.1 h.inOrder
  rw [List.forall_mem_singleton] at hlast hsub
  -- operations and indices grow together, so the new entry is the last one
  have hentries : b'.entries = b.entries ++ [((b.batchType, document), accepted.length)] := by
    unfold Batch.entries
    rw [ht, ho, hi, List.map_append, List.zip_append (by rw [List.length_map]; exact hlast)]
    rfl
  have hzip : (accepted ++ [(b.batchType, document)]).zipIdx =
      accepted.zipIdx ++ [((b.batchType, document), accepted.length)] := by
    rw [List.zipIdx_append]; simp
  have hflat : (batches ++ [b']).flatMap Batch.entries =
      (batches ++ [b]).flatMap Batch.entries ++ [((b.batchType, document), accepted.length)] := by
    simp [hentries]
  refine ⟨?_, ?_, ?_, ?_⟩
  · refine List.forall_mem_append.2 ⟨hal, List.forall_mem_singleton.2 ?_⟩
    rw [ho, hi, List.length_append, List.length_append, hlast]
    rfl
  · rw [hflat, hzip]
    exact h.once.append_right _
  · rw [hzip]
    refine List.forall_mem_append.2 ⟨fun c hc => ?_, List.forall_mem_singleton.2 ?_⟩
    · exact (hin c hc).trans (List.sublist_append_left _ _)
    · rw [hentries]
      exact hsub.append_right _
  · intro hord
    rw [hflat, hzip, h.across hord]

end Ledger

/-! ## Batches by reference -/

/-- Different batches, which hold the accepted operations. -/
structure Held (isOrdered : Bool) (heap : List (Batch δ)) (refs : List Nat) (accepted : List (BatchType × δ)) :
    Prop where
  distinct : Heap.Distinct heap refs
  ledger : Ledger isOrdered (deref heap refs) accepted

namespace Held

variable {heap : List (Batch δ)} {refs refs' : List Nat} {accepted : List (BatchType × δ)} {r : Nat}

theorem rearrange (h : Held isOrdered heap refs accepted) (hr : Rearranged isOrdered refs refs') :
    Held isOrdered heap refs' accepted :=
  ⟨h.distinct.perm hr.perm, h.ledger.rearrange ⟨Heap.deref_perm hr.perm, fun ho => by rw [hr.same ho]⟩⟩

theorem alloc (h : Held isOrdered heap refs accepted) (batchType : BatchType) (index : Nat) :
    Held isOrdered (heap ++ [{ batchType, originalZeroIndex := index }]) (refs ++ [heap.length]) accepted := by
  refine ⟨h.distinct.alloc _, ?_⟩
  rw [Heap.deref_alloc _ h.distinct.bound]
  exact h.ledger.alloc batchType index

theorem push {b : Batch δ} {document : δ} (f : Batch δ → Batch δ) (h : Held isOrdered heap (refs ++ [r]) accepted)
    (hb : heap[r]? = some b) (ht : (f b).batchType = b.batchType)
    (ho : (f b).operations = b.operations ++ [document])
    (hi : (f b).originalIndexes = b.originalIndexes ++ [accepted.length]) :
    Held isOrdered (heap.modify r f) (refs ++ [r]) (accepted ++ [(b.batchType, document)]) := by
  refine ⟨h.distinct.modify r f, ?_⟩
  have hledger := h.ledger
  rw [Heap.deref_append, Heap.deref_singleton hb] at hledger
  rw [Heap.deref_modify_last f h.distinct.last.1 hb]
  exact hledger.push ht ho hi

theorem touch (f : Batch δ → Batch δ) (h : Held isOrdered heap (refs ++ [r]) accepted)
    (ht : ∀ b, (f b).batchType = b.batchType) (ho : ∀ b, (f b).operations = b.operations)
    (hi : ∀ b, (f b).originalIndexes = b.originalIndexes) :
      Held isOrdered (heap.modify r f) (refs ++ [r]) accepted := by
  refine ⟨h.distinct.modify r f, ?_⟩
  obtain ⟨hr, b, hb⟩ := h.distinct.last
  have hledger := h.ledger
  rw [Heap.deref_append, Heap.deref_singleton hb] at hledger
  rw [Heap.deref_modify_last f hr hb]
  exact hledger.touch (ht b) (ho b) (hi b)

end Held

end MongoDriver.Bulk
