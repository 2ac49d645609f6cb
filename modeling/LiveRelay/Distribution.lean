import LiveRelay.Relay

/-!
# Distribution

A frame is copied into a buffer, numbered, entered into the stream's cache and
delivered to every subscription on the list.  Entering and delivering are two
steps.  For codec configurations and key frames nobody can join between them.
For ordinary frames someone can, and the sequence numbers keep such a viewer
from getting the frame twice.

Ordinary frames are left out for a session with too many pending messages.
-/

namespace LiveRelay

/-- How many deliveries of one frame ended in each way. -/
structure DeliveryTally where
  sent : Nat := 0
  skipped : Nat := 0
  filtered : Nat := 0
  closed : Nat := 0
  deriving DecidableEq, Inhabited, Repr

def DeliveryTally.record (tally : DeliveryTally) : Delivery → DeliveryTally
  | .sent => { tally with sent := tally.sent + 1 }
  | .skipped => { tally with skipped := tally.skipped + 1 }
  | .filtered => { tally with filtered := tally.filtered + 1 }
  | .closed => { tally with closed := tally.closed + 1 }

namespace Relay

/-! ## First step: numbering and caching -/

/-- The number is the next one of the publication. -/
def enter (relay : Relay) (place : Nat) (frame : MediaFrame) (timestamp : UInt32)
    (payload : Bytes) : Option (CacheChange × NumberedFrame × Relay) :=
  match relay.publications[place]? with
  | none => none
  | some publication =>
      let (buffer, pool) := relay.pool.rent payload
      let sequence := publication.sequence + 1
      let numbered : NumberedFrame := ⟨frame, sequence, timestamp, buffer⟩
      let counters :=
        publication.counters.recordFrame frame.kind
          (UInt64.ofNat payload.length) frame.isKeyFrame
      let (change, cache, pool) := publication.cache.enter pool numbered
      let relay :=
        relay.updatePublication place ({ · with cache, sequence, counters })
      some (change, numbered, { relay with pool := pool })

/-! ## Second step: delivering -/

/-- One subscription is sent a frame, with a claim of its own. -/
def deliver (relay : Relay) (numbered : NumberedFrame) (place : Nat) :
    Delivery × Relay :=
  match relay.subscriptions[place]? with
  | none => (.filtered, relay)
  | some subscription =>
      if !subscription.wants numbered then (.filtered, relay)
      else if numbered.frame.isSkippable &&
          relay.skipThreshold < relay.pending subscription.queue then
        (.skipped,
          relay.updateSubscription place fun subscription =>
            { subscription with dropped := subscription.dropped + 1 })
      else
        let message := subscription.messageFor numbered
        let (sent, relay) :=
          (relay.claim numbered.buffer).send subscription.queue message
        (if sent then .sent else .closed, relay)

def deliverAll (relay : Relay) (numbered : NumberedFrame)
    (subscribers : List Nat) : DeliveryTally × Relay :=
  subscribers.foldl
    (fun (tally, relay) place =>
      let (delivery, relay) := relay.deliver numbered place
      (tally.record delivery, relay))
    ({}, relay)

/-- To the subscriptions that are on the list now. -/
def broadcast (relay : Relay) (place : Nat) (numbered : NumberedFrame) :
    DeliveryTally × Relay :=
  relay.deliverAll numbered
    ((relay.publications[place]?.map Publication.subscribers).getD [])

/-- Observers are shown what entered the cache. -/
def showChange (relay : Relay) (path : StreamPath) (numbered : NumberedFrame) :
    CacheChange → Relay
  | .unnoticed => relay
  | .headerSet =>
      relay.observe path
        (.header numbered.frame.kind numbered.buffer.content)
  | .groupStarted cleared =>
      let relay := if cleared then relay.observe path .groupCleared else relay
      relay.showKeyFrame path numbered

/-- Observers are shown the frame, skips are counted, and the buffer is
released. -/
def finish (relay : Relay) (place : Nat) (path : StreamPath)
    (numbered : NumberedFrame) (tally : DeliveryTally) : Relay :=
  let relay :=
    relay.updatePublication place fun publication =>
      { publication with
        counters :=
          publication.counters.recordDropped (UInt64.ofNat tally.skipped) }
  let relay :=
    relay.observe path
      (.frame numbered.frame.kind numbered.buffer.content numbered.timestamp
        numbered.frame.isSkippable)
  relay.release numbered.buffer

/-! ## Whole distributions -/

def pathOf (relay : Relay) (place : Nat) : StreamPath :=
  (relay.publications[place]?.map Publication.path).getD default

def distribute (relay : Relay) (place : Nat) (kind : MediaKind)
    (timestamp : UInt32) (payload : Bytes) : DeliveryTally × Relay :=
  let frame := MediaFrame.classify kind payload
  match relay.enter place frame timestamp payload with
  | none => ({}, relay)
  | some (change, numbered, relay) =>
      let path := relay.pathOf place
      let (tally, relay) := relay.broadcast place numbered
      let relay := relay.showChange path numbered change
      (tally, relay.finish place path numbered tally)

/-- A new description of the stream goes to every subscription and into the
cache; the number tells how many queues took it. -/
def distributeMetadata (relay : Relay) (place : Nat) (metadata : Properties) :
    Nat × Relay :=
  match relay.publications[place]? with
  | none => (0, relay)
  | some publication =>
      let (sent, relay) :=
        publication.subscribers.foldl
          (fun (sent, relay) subscriber =>
            match relay.subscriptions[subscriber]? with
            | none => (sent, relay)
            | some subscription =>
                let (taken, relay) :=
                  relay.send subscription.queue
                    (subscription.metadataMessage metadata)
                (if taken then sent + 1 else sent, relay))
          (0, relay)
      (sent,
        relay.updatePublication place fun publication =>
          { publication with
            cache := { publication.cache with metadata := some metadata } })

end Relay

end LiveRelay
