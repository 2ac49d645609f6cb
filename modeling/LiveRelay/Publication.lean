import LiveRelay.GroupCache
import LiveRelay.StreamCounters
import LiveRelay.Subscription

/-!
# Publications

A publication is one stream from the time it is published until it is stopped.
It numbers its frames, remembers what a new viewer has to be sent first, and
lists its subscriptions in the order in which they joined.

A stopped publication may still be held by its session.  It is then no longer
found under its path, and another publication may be.
-/

namespace LiveRelay

/-! ## What new viewers are sent first -/

structure MediaCache where
  audioHeader : Option RentedBuffer := none
  videoHeader : Option RentedBuffer := none
  metadata : Option Properties := none
  group : GroupCache

/-- What became of the cache when a frame entered it. -/
inductive CacheChange where
  | unnoticed
  | headerSet
  | groupStarted (cleared : Bool)
  deriving DecidableEq, Repr

namespace MediaCache

def buffers (cache : MediaCache) : List RentedBuffer :=
  cache.audioHeader.toList ++ cache.videoHeader.toList ++ cache.group.buffers

/-- Codec configurations and the group go, the description stays. -/
def clear (cache : MediaCache) (pool : BufferPool) : MediaCache × BufferPool :=
  let pool :=
    pool.releaseAll (cache.audioHeader.toList ++ cache.videoHeader.toList)
  let (group, pool) := cache.group.clear pool
  ({ metadata := cache.metadata, group := group }, pool)

/-- The cache takes over the claim on a codec configuration. -/
def setHeader (cache : MediaCache) (pool : BufferPool) (kind : MediaKind)
    (buffer : RentedBuffer) : MediaCache × BufferPool :=
  match kind with
  | .audio =>
      ({ cache with audioHeader := some buffer },
        pool.releaseAll cache.audioHeader.toList)
  | .video =>
      ({ cache with videoHeader := some buffer },
        pool.releaseAll cache.videoHeader.toList)

/-- A frame enters the cache, which claims its buffer if it keeps it. -/
def enter (cache : MediaCache) (pool : BufferPool) (numbered : NumberedFrame) :
    CacheChange × MediaCache × BufferPool :=
  let frame := numbered.frame
  let claimed := pool.claim numbered.buffer
  let entry : GroupEntry :=
    ⟨numbered.sequence, frame.kind, numbered.timestamp, numbered.buffer⟩
  if frame.isHeader then
    let (cache, pool) := cache.setHeader claimed frame.kind numbered.buffer
    (.headerSet, cache, pool)
  else if frame.isKeyFrame then
    if cache.group.isEnabled then
      let (group, pool) := cache.group.start claimed entry
      (.groupStarted (!cache.group.entries.isEmpty),
        { cache with group := group }, pool)
    else (.unnoticed, cache, pool)
  else
    let (_, group, pool) := cache.group.push claimed entry
    (.unnoticed, { cache with group := group }, pool)

/-- The last frame that a replay covers, zero if there is none. -/
def replayedThrough (cache : MediaCache) : Nat :=
  cache.group.lastSequence?.getD 0

/-- What a subscription that joins now is sent of the stream; each message with
a buffer needs a claim. -/
def primingMessages (cache : MediaCache) (subscription : Subscription) :
    List OutboundMessage :=
  let streamId := subscription.streamId
  cache.videoHeader.toList.map (OutboundMessage.media .video streamId 0) ++
    cache.audioHeader.toList.map (OutboundMessage.media .audio streamId 0) ++
    cache.metadata.toList.map subscription.metadataMessage ++
    cache.group.entries.map fun entry =>
      .media entry.kind streamId entry.timestamp entry.buffer

end MediaCache

/-! ## Publications -/

structure Publication where
  path : StreamPath
  arguments : StreamArguments
  session : Nat
  publishType : String
  cache : MediaCache
  /-- The places of the subscriptions. -/
  subscribers : List Nat := []
  /-- The number of the last frame; the first one has number one.  It does not wrap,
  since no stream lasts for as many frames as 64 bits can count. -/
  sequence : Nat := 0
  counters : StreamCounters := {}

end LiveRelay
