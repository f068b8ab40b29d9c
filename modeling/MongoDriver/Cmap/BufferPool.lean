/-
The segmented input buffer (`BufferPool` of `src/utils.ts`). Chunks are kept as they arrive and read
as if they were one; a read takes them whole, takes a piece of the first one, or copies from
several. Whichever way it goes, it takes the first bytes of their concatenation.
-/
import MongoDriver.Cmap.Commands
import Mathlib.Data.List.Basic

namespace MongoDriver.Cmap

/-- The pool's buffers and the number of their bytes, which is kept beside them. -/
structure BufferPool where
  buffers : List Buffer := []
  length : Nat := 0
  length_eq : length = buffers.flatten.length := by rfl
deriving DecidableEq

namespace BufferPool

/-- `new BufferPool()`. -/
def new : BufferPool := {}

/-- The bytes the pool stands for. -/
def bytes (pool : BufferPool) : Buffer := pool.buffers.flatten

theorem length_bytes (pool : BufferPool) : pool.bytes.length = pool.length := pool.length_eq.symm

def append (pool : BufferPool) (buffer : Buffer) : BufferPool where
  buffers := pool.buffers ++ [buffer]
  length := pool.length + buffer.length
  length_eq := by rw [pool.length_eq]; simp

@[simp] theorem bytes_append (pool : BufferPool) (buffer : Buffer) :
    (pool.append buffer).bytes = pool.bytes ++ buffer := by
  simp [bytes, append]

/-! ## The copying loop -/

/-- The loop over the buffers: those that are shorter than what is left to copy are copied whole, the
next one gives the rest. Returns the copied bytes and the buffers that remain once the array is
compacted; the last buffer read from stays, possibly empty. -/
def copy : List Buffer → Nat → Buffer × List Buffer
  | [], _ => ([], [])
  | buffer :: rest, bytesToCopy =>
    if bytesToCopy > buffer.length then
      let (copied, left) := copy rest (bytesToCopy - buffer.length)
      (buffer ++ copied, left)
    else (buffer.take bytesToCopy, buffer.drop bytesToCopy :: rest)

theorem copy_spec : ∀ (buffers : List Buffer) (size : Nat),
    (copy buffers size).1 = buffers.flatten.take size ∧ (copy buffers size).2.flatten = buffers.flatten.drop size
  | [], size => by simp [copy]
  | buffer :: rest, size => by
    obtain ⟨ih1, ih2⟩ := copy_spec rest (size - buffer.length)
    unfold copy
    split
    · rename_i hgt
      constructor
      · rw [List.flatten_cons, List.take_append, List.take_of_length_le (show buffer.length ≤ size by omega), ← ih1]
      · rw [List.flatten_cons, List.drop_append, List.drop_of_length_le (show buffer.length ≤ size by omega), ← ih2]
        rfl
    · rename_i hle
      constructor
      · rw [List.flatten_cons, List.take_append_of_le_length (by omega)]
      · rw [List.flatten_cons, List.flatten_cons, List.drop_append_of_le_length (by omega)]

/-! ## Reading -/

def invalidSize : AnyError :=
  { cls := .mongoInvalidArgumentError, message := "Argument \"size\" must be a non-negative number" }

/-- `read(size, consume)`: the bytes and the pool afterwards. -/
def read (pool : BufferPool) (size : Int) (consume : Bool) : Except AnyError (Buffer × BufferPool) :=
  if size < 0 then .error invalidSize
  else if size.toNat > pool.length then .ok ([], pool)
  -- the whole buffer
  else if size.toNat = pool.length then .ok (pool.buffers.flatten, if consume then {} else pool)
  else
    match hb : pool.buffers with
    | [] => .ok ([], pool)
    | first :: rest =>
      -- within the first buffer, no need to concat
      if h : size.toNat ≤ first.length then
        .ok (first.take size.toNat,
          if consume then
            { buffers := first.drop size.toNat :: rest
              length := pool.length - size.toNat
              length_eq := by
                have := pool.length_eq
                rw [hb] at this
                simp only [List.flatten_cons, List.length_append, List.length_drop] at this ⊢
                omega }
          else pool)
      -- beyond the first buffer
      else
        .ok ((copy pool.buffers size.toNat).1,
          if consume then
            { buffers := (copy pool.buffers size.toNat).2
              length := pool.length - size.toNat
              length_eq := by rw [(copy_spec pool.buffers size.toNat).2, List.length_drop, pool.length_eq] }
          else pool)

/-- `peek(size)`. -/
def peek (pool : BufferPool) (size : Int) : Except AnyError Buffer := Prod.fst <$> pool.read size false

/-- A read that the pool can serve gives its first bytes, on each of the three paths. -/
theorem read_spec (pool : BufferPool) (size : Nat) (h : size ≤ pool.length) (consume : Bool) :
    ∃ pool' : BufferPool, pool.read size consume = .ok (pool.bytes.take size, pool') ∧
      pool'.bytes = if consume then pool.bytes.drop size else pool.bytes := by
  have hlen := pool.length_bytes
  have hnat : ¬ (size : Int) < 0 := by omega
  have hle : ¬ size > pool.length := by omega
  unfold read
  simp only [hnat, if_false, Int.toNat_natCast, hle]
  by_cases hall : size = pool.length
  · refine ⟨if consume then {} else pool, ?_, ?_⟩
    · rw [if_pos hall, List.take_of_length_le (by omega)]; rfl
    · cases consume
      · rfl
      · simp [bytes, hall, pool.length_eq]
  · rw [if_neg hall]
    split
    · -- no buffers, but something to read
      rename_i hb
      have : pool.length = 0 := by rw [pool.length_eq, hb]; rfl
      omega
    · rename_i first rest hb
      have hbytes : pool.bytes = first ++ rest.flatten := by rw [bytes, hb, List.flatten_cons]
      split
      · rename_i hfirst
        refine ⟨_, by rw [hbytes, List.take_append_of_le_length hfirst], ?_⟩
        cases consume
        · rfl
        · rw [if_pos rfl, if_pos rfl, hbytes, List.drop_append_of_le_length hfirst]; rfl
      · obtain ⟨h1, h2⟩ := copy_spec pool.buffers size
        refine ⟨_, by rw [h1]; rfl, ?_⟩
        cases consume
        · rfl
        · exact h2

theorem peek_spec (pool : BufferPool) (size : Nat) (h : size ≤ pool.length) :
    pool.peek size = .ok (pool.bytes.take size) := by
  obtain ⟨pool', hr, -⟩ := read_spec pool size h false
  rw [peek, hr]
  rfl

end BufferPool

end MongoDriver.Cmap
