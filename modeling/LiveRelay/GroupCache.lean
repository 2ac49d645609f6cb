import LiveRelay.BufferPool
import LiveRelay.MediaFrame

/-!
# Group cache

Who joins a stream between key frames needs the frames since the last one
before live frames make sense.  The cache holds exactly those, the group, each
with a claim on its buffer.  A key frame starts a new group.  A group that
outgrows the limit is given up whole, since a group with a gap cannot be
decoded, and nothing is cached until the next key frame.
-/

namespace LiveRelay

structure GroupEntry where
  /-- Place in the order of publishing. -/
  sequence : Nat
  kind : MediaKind
  timestamp : UInt32
  buffer : RentedBuffer
  deriving DecidableEq, Repr

structure GroupCache where
  /-- Zero turns the cache off. -/
  maximumBytes : Nat
  bytes : Nat := 0
  /-- Oldest first. -/
  entries : List GroupEntry := []
  /-- A key frame has started the group. -/
  isOpen : Bool := false
  deriving DecidableEq, Repr

namespace GroupCache

def isEnabled (cache : GroupCache) : Bool :=
  0 < cache.maximumBytes

def buffers (cache : GroupCache) : List RentedBuffer :=
  cache.entries.map GroupEntry.buffer

def clear (cache : GroupCache) (pool : BufferPool) : GroupCache × BufferPool :=
  ({ maximumBytes := cache.maximumBytes }, pool.releaseAll cache.buffers)

/-- A key frame replaces the group, if it fits. -/
def start (cache : GroupCache) (pool : BufferPool) (keyFrame : GroupEntry) :
    GroupCache × BufferPool :=
  let (cache, pool) := cache.clear pool
  let size := keyFrame.buffer.size
  if cache.isEnabled && size ≤ cache.maximumBytes then
    ({ cache with isOpen := true, bytes := size, entries := [keyFrame] }, pool)
  else (cache, pool.release keyFrame.buffer)

/-- A frame is added to the open group; the flag tells whether it was. -/
def push (cache : GroupCache) (pool : BufferPool) (entry : GroupEntry) :
    Bool × GroupCache × BufferPool :=
  let size := entry.buffer.size
  if !cache.isOpen then (false, cache, pool.release entry.buffer)
  else if cache.maximumBytes < cache.bytes + size then
    let (cache, pool) := cache.clear pool
    (false, cache, pool.release entry.buffer)
  else
    (true,
      { cache with
        bytes := cache.bytes + size, entries := cache.entries ++ [entry] },
      pool)

/-- The entries, with a claim of its own on each buffer. -/
def replay (cache : GroupCache) (pool : BufferPool) :
    List GroupEntry × BufferPool :=
  (cache.entries, pool.claimAll cache.buffers)

def lastSequence? (cache : GroupCache) : Option Nat :=
  cache.entries.getLast?.map GroupEntry.sequence

/-- The timestamps of the oldest and the newest entry. -/
def timestampRange? (cache : GroupCache) : Option (UInt32 × UInt32) :=
  match cache.entries.head?, cache.entries.getLast? with
  | some first, some last => some (first.timestamp, last.timestamp)
  | _, _ => none

end GroupCache

end LiveRelay
