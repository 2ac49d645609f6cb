import LiveRelay.Bytes
import LiveRelay.Table

/-!
# Buffer pool

Media payloads are copied once, into a rented buffer, and shared from then on.
A buffer has a number of claims.  When the last claim is released, its
allocation is emptied and goes back to the pool, unless the allocation has
grown too large or the pool keeps enough of them already.  The allocation that
came back last is reused first.

An allocation grows to at least twice its capacity when its content outgrows
it, and never shrinks.
-/

namespace LiveRelay

structure Allocation where
  id : Nat
  capacity : Nat
  content : Bytes
  deriving DecidableEq, Repr

namespace Allocation

def extend (allocation : Allocation) (bytes : Bytes) : Allocation :=
  let content := allocation.content ++ bytes
  let needed := content.length
  let capacity :=
    if needed ≤ allocation.capacity then allocation.capacity
    else max (max (2 * allocation.capacity) needed) 8
  { allocation with content := content, capacity := capacity }

def clear (allocation : Allocation) : Allocation :=
  { allocation with content := [] }

end Allocation

/-- A claim on a rented buffer shows what the buffer was rented with. -/
structure RentedBuffer where
  id : Nat
  content : Bytes
  deriving DecidableEq, Inhabited, Repr

namespace RentedBuffer

def size (buffer : RentedBuffer) : Nat :=
  buffer.content.length

end RentedBuffer

structure LiveBuffer where
  allocation : Allocation
  claims : Nat
  deriving DecidableEq, Repr

structure BufferPool where
  maximumPooled : Nat := 256
  maximumCapacity : Nat := 1048576
  /-- The allocation to be reused first comes first. -/
  free : List Allocation := []
  live : Table Nat LiveBuffer := []
  /-- How often a buffer was rented.  Neither this count nor the next one wraps, since
  no pool is used as often as 64 bits can count. -/
  rented : Nat := 0
  returned : Nat := 0
  /-- How many allocations were made. -/
  allocated : Nat := 0

namespace BufferPool

def outstanding (pool : BufferPool) : Nat :=
  pool.rented - pool.returned

/-- An idle allocation, or a new one if there is none. -/
def takeFree (pool : BufferPool) : Allocation × BufferPool :=
  match pool.free with
  | allocation :: free => (allocation, { pool with free := free })
  | [] =>
      (⟨pool.allocated, 0, []⟩, { pool with allocated := pool.allocated + 1 })

/-- A copy of the bytes, with one claim. -/
def rent (pool : BufferPool) (bytes : Bytes) : RentedBuffer × BufferPool :=
  let (idle, pool) := pool.takeFree
  let allocation := idle.extend bytes
  let id := pool.rented
  (⟨id, allocation.content⟩,
    { pool with
      live := pool.live.put id ⟨allocation, 1⟩
      rented := pool.rented + 1 })

def claims (pool : BufferPool) (buffer : RentedBuffer) : Nat :=
  ((pool.live.get? buffer.id).map LiveBuffer.claims).getD 0

def claim (pool : BufferPool) (buffer : RentedBuffer) : BufferPool :=
  match pool.live.get? buffer.id with
  | some live =>
      { pool with
        live := pool.live.put buffer.id { live with claims := live.claims + 1 } }
  | none => pool

/-- An allocation without claims comes back. -/
def giveBack (pool : BufferPool) (allocation : Allocation) : BufferPool :=
  let pool := { pool with returned := pool.returned + 1 }
  if allocation.capacity ≤ pool.maximumCapacity ∧
      pool.free.length < pool.maximumPooled then
    { pool with free := allocation.clear :: pool.free }
  else pool

def release (pool : BufferPool) (buffer : RentedBuffer) : BufferPool :=
  match pool.live.get? buffer.id with
  | some live =>
      if live.claims ≤ 1 then
        { pool with live := pool.live.erase buffer.id }.giveBack live.allocation
      else
        { pool with
          live := pool.live.put buffer.id { live with claims := live.claims - 1 } }
  | none => pool

def claimAll (pool : BufferPool) (buffers : List RentedBuffer) : BufferPool :=
  buffers.foldl claim pool

def releaseAll (pool : BufferPool) (buffers : List RentedBuffer) : BufferPool :=
  buffers.foldl release pool

end BufferPool

end LiveRelay
