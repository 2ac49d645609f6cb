import LiveRelay.Configuration
import LiveRelay.Notice
import LiveRelay.Publication
import LiveRelay.StreamDirectory

/-!
# Relay

The relay is what all sessions share: the buffer pool, the directory of
streams, and everything that was ever published, subscribed or queued.
Publications, subscriptions and queues are known by their places in lists that
only grow, so one that is over is never mistaken for a later one.

Notices are appended to a log.
-/

namespace LiveRelay

structure Relay where
  pool : BufferPool := {}
  maximumGroupBytes : Nat := 4194304
  skipThreshold : Nat := 300
  /-- The publication under each path. -/
  directory : StreamDirectory
  publications : List Publication := []
  subscriptions : List Subscription := []
  queues : List OutboundQueue := []
  observers : List Observer := []
  /-- The claims that observers have kept. -/
  kept : List RentedBuffer := []
  log : List Notice := []

namespace Relay

def ofConfiguration (configuration : RelayConfiguration)
    (spread : StreamPath → Nat) (pool : BufferPool) (observers : List Observer) :
    Relay where
  pool := pool
  maximumGroupBytes := configuration.maximumGroupBytes
  skipThreshold := configuration.skipThreshold
  directory := .empty spread configuration.shardCount
  observers := observers

/-! ## Parts -/

def updatePublication (relay : Relay) (place : Nat)
    (change : Publication → Publication) : Relay :=
  { relay with publications := relay.publications.modify place change }

def updateSubscription (relay : Relay) (place : Nat)
    (change : Subscription → Subscription) : Relay :=
  { relay with subscriptions := relay.subscriptions.modify place change }

def note (relay : Relay) (notice : Notice) : Relay :=
  { relay with log := relay.log ++ [notice] }

def release (relay : Relay) (buffer : RentedBuffer) : Relay :=
  { relay with pool := relay.pool.release buffer }

def claim (relay : Relay) (buffer : RentedBuffer) : Relay :=
  { relay with pool := relay.pool.claim buffer }

/-- The notices since they were last taken. -/
def takeLog (relay : Relay) : List Notice × Relay :=
  (relay.log, { relay with log := [] })

/-! ## Queues -/

/-- A new queue, at the end. -/
def openQueue (relay : Relay) : Nat × Relay :=
  (relay.queues.length, { relay with queues := relay.queues ++ [{}] })

/-- Messages in a queue that were not received yet. -/
def pending (relay : Relay) (queue : Nat) : Nat :=
  (relay.queues[queue]?.map OutboundQueue.pending).getD 0

/-- The flag tells whether the queue took the message. -/
def send (relay : Relay) (place : Nat) (message : OutboundMessage) :
    Bool × Relay :=
  let queue := relay.queues[place]?.getD { isOpen := false }
  let (sent, queue, pool) := queue.send relay.pool message
  (sent, { relay with queues := relay.queues.set place queue, pool := pool })

def sendAll (relay : Relay) (place : Nat) (messages : List OutboundMessage) :
    Relay :=
  messages.foldl (fun relay message => (relay.send place message).2) relay

/-- The oldest message of a queue, with its claim. -/
def receive? (relay : Relay) (place : Nat) : Option (OutboundMessage × Relay) :=
  match relay.queues[place]?.bind OutboundQueue.receive? with
  | some (message, queue) =>
      some (message, { relay with queues := relay.queues.set place queue })
  | none => none

/-- At most `count` messages of a queue, whose claims are given up. -/
def receiveSome (relay : Relay) (place : Nat) :
    (count : Nat) → List OutboundMessage × Relay
  | 0 => ([], relay)
  | count + 1 =>
      match relay.receive? place with
      | none => ([], relay)
      | some (message, relay) =>
          let buffers := message.payload.buffer?.toList
          let relay := { relay with pool := relay.pool.releaseAll buffers }
          let (others, relay) := relay.receiveSome place count
          (message :: others, relay)

def closeQueue (relay : Relay) (place : Nat) : Relay :=
  { relay with queues := relay.queues.modify place OutboundQueue.close }

def hangUpQueue (relay : Relay) (place : Nat) : Relay :=
  match relay.queues[place]? with
  | some queue =>
      let (queue, pool) := queue.hangUp relay.pool
      { relay with queues := relay.queues.set place queue, pool := pool }
  | none => relay

/-! ## Showing media to observers -/

def observe (relay : Relay) (path : StreamPath) (observation : Observation) :
    Relay :=
  relay.observers.foldl
    (fun relay observer => relay.note (.observed observer.name path observation))
    relay

/-- One observer is given a claim on a key frame, and keeps it or not. -/
def showKeyFrameTo (path : StreamPath) (numbered : NumberedFrame) (relay : Relay)
    (observer : Observer) : Relay :=
  let buffer := numbered.buffer
  let relay := relay.claim buffer
  let relay :=
    relay.note (.observed observer.name path
      (.keyFrame numbered.frame.kind buffer.content numbered.timestamp
        (relay.pool.claims buffer)))
  if observer.keeps then { relay with kept := relay.kept ++ [buffer] }
  else relay.release buffer

def showKeyFrame (relay : Relay) (path : StreamPath) (numbered : NumberedFrame) :
    Relay :=
  relay.observers.foldl (showKeyFrameTo path numbered) relay

/-- Observers give up the claims that they have kept. -/
def releaseKept (relay : Relay) : Relay :=
  { relay with pool := relay.pool.releaseAll relay.kept, kept := [] }

end Relay

end LiveRelay
