/-
The input buffer as a queue of bytes (`BufferPool` of `src/utils.ts`): whatever the sizes of the buffers and of the
reads, and in whatever order it is called, it answers as the queue of the bytes that are not read yet.
-/
import MongoDriver.Base.Queue
import MongoDriver.Cmap.BufferPool

namespace MongoDriver.Cmap.BufferPool

/-- The calls of the pool, with what they return. -/
def call (pool : BufferPool) : Queue.Call UInt8 → Except AnyError (Option Buffer × BufferPool)
  | .append buffer => .ok (none, pool.append buffer)
  | .peek size => do
    let (result, pool) ← pool.read size false
    return (some result, pool)
  | .read size => do
    let (result, pool) ← pool.read size true
    return (some result, pool)

/-- A read of any size gives the front of the bytes, and takes it away if it consumes. -/
theorem read_front (pool : BufferPool) (size : Nat) (consume : Bool) :
    ∃ pool' : BufferPool, pool.read size consume = .ok (Queue.front pool.bytes size, pool') ∧
      pool'.bytes = if consume then pool.bytes.drop (Queue.front pool.bytes size).length else pool.bytes := by
  by_cases h : size ≤ pool.length
  · have hle : size ≤ pool.bytes.length := by
      rw [pool.length_bytes]
      exact h
    obtain ⟨pool', hread, hbytes⟩ := read_spec pool size h consume
    refine ⟨pool', ?_, ?_⟩
    · rw [hread, Queue.front_of_le hle]
    · rw [hbytes, Queue.drop_front, if_pos hle]
  · -- more than there is: nothing is read, and nothing taken
    have hlt : pool.bytes.length < size := by
      rw [pool.length_bytes]
      omega
    have hnat : ¬ (size : Int) < 0 := by omega
    have hgt : size > pool.length := by omega
    refine ⟨pool, ?_, ?_⟩
    · unfold read
      simp only [hnat, if_false, Int.toNat_natCast, hgt, if_true, Queue.front_of_lt hlt]
    · rw [Queue.front_of_lt hlt]
      cases consume with
      | false => rfl
      | true => rfl

theorem call_spec (pool : BufferPool) (c : Queue.Call UInt8) :
    ∃ pool' : BufferPool, pool.call c = .ok ((Queue.call pool.bytes c).1, pool') ∧
      pool'.bytes = (Queue.call pool.bytes c).2 := by
  cases c with
  | append buffer => exact ⟨pool.append buffer, rfl, bytes_append pool buffer⟩
  | peek size =>
    obtain ⟨pool', hread, hbytes⟩ := read_front pool size false
    refine ⟨pool', ?_, hbytes⟩
    rw [call, hread]
    rfl
  | read size =>
    obtain ⟨pool', hread, hbytes⟩ := read_front pool size true
    refine ⟨pool', ?_, hbytes⟩
    rw [call, hread]
    rfl

/-- In every sequence of calls, what the pool returns and its length after each call are those of the queue of the
bytes that are not read yet. -/
theorem is_byte_queue (pool : BufferPool) (calls : List (Queue.Call UInt8)) :
    Queue.observed call BufferPool.length pool calls = .ok (Queue.observe pool.bytes calls) :=
  Queue.observed_eq call BufferPool.length call_spec (fun pool => pool.length_bytes.symm) calls pool

/-- An empty buffer, a look, a read across buffers that ends within one, and one of more than is there. -/
example : Queue.observed call BufferPool.length new
    [.append [1, 2], .append [], .append [3, 4], .peek 1, .read 3, .read 2, .read 1] =
      .ok [(none, 2), (none, 2), (none, 4), (some [1], 4), (some [1, 2, 3], 1), (some [], 1), (some [4], 0)] := by
  rfl

end MongoDriver.Cmap.BufferPool
