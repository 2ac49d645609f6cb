import LiveRelay.Relay

/-!
# Registration

A path has at most one publication, and a session at most one subscription to
it.  A refused request changes nothing.

When a publication stops, its cache is given up, its subscriptions are told
that the stream has ended, and the path is free again.  A publication that has
been stopped cannot stop its successor.
-/

namespace LiveRelay

/-- What a session asks for when it plays a stream. -/
structure SubscribeRequest where
  session : Nat
  streamId : UInt32
  path : StreamPath
  arguments : StreamArguments
  queue : Nat
  deriving DecidableEq, Repr

/-- What a session asks for when it publishes a stream. -/
structure PublishRequest where
  session : Nat
  path : StreamPath
  arguments : StreamArguments
  publishType : String
  deriving DecidableEq, Repr

namespace Relay

/-! ## Publishing -/

/-- The place of the new publication. -/
def startPublishing (relay : Relay) (request : PublishRequest) :
    Except RegistryError (Nat × Relay) :=
  match relay.directory.get? request.path with
  | some _ => .error (.alreadyPublishing request.path.text)
  | none =>
      let publication : Publication :=
        { path := request.path, arguments := request.arguments,
          session := request.session, publishType := request.publishType,
          cache := { group := { maximumBytes := relay.maximumGroupBytes } } }
      let place := relay.publications.length
      .ok (place,
        { relay with
          publications := relay.publications ++ [publication]
          directory := relay.directory.put request.path place })

/-- A subscription is told once that its stream has ended. -/
def endSubscription (relay : Relay) (place : Nat) : Relay :=
  match relay.subscriptions[place]? with
  | some subscription =>
      if subscription.hasEnded then relay
      else
        (relay.updateSubscription place ({ · with hasEnded := true })).sendAll
          subscription.queue subscription.endMessages
  | none => relay

/-- Codec configurations and group of a publication go. -/
def clearCache (relay : Relay) (place : Nat) : Relay :=
  match relay.publications[place]? with
  | some publication =>
      let (cache, pool) := publication.cache.clear relay.pool
      { relay.updatePublication place ({ · with cache := cache }) with
        pool := pool }
  | none => relay

def clearMetadata (relay : Relay) (place : Nat) : Relay :=
  relay.updatePublication place fun publication =>
    { publication with cache := { publication.cache with metadata := none } }

/-- The flag tells whether the publication was the one under its path. -/
def stopPublishing (relay : Relay) (place : Nat) : Bool × Relay :=
  match relay.publications[place]? with
  | some publication =>
      if relay.directory.get? publication.path = some place then
        let relay :=
          { relay with directory := relay.directory.erase publication.path }
        let relay := (relay.clearCache place).clearMetadata place
        let relay := relay.updatePublication place ({ · with subscribers := [] })
        (true, publication.subscribers.foldl endSubscription relay)
      else (false, relay)
  | none => (false, relay)

/-- A publication that is neither found under its path nor held by anyone
gives up its cache. -/
def discard (relay : Relay) (place : Nat) : Relay :=
  match relay.publications[place]? with
  | some publication =>
      if relay.directory.get? publication.path = some place then relay
      else relay.clearCache place
  | none => relay

def discardAllBut (relay : Relay) (held : List Nat) : Relay :=
  ((List.range relay.publications.length).filter (· ∉ held)).foldl discard relay

/-! ## Subscribing -/

def hasSubscriber (relay : Relay) (publication : Publication) (session : Nat) :
    Bool :=
  publication.subscribers.any fun place =>
    (relay.subscriptions[place]?.map Subscription.session) == some session

/-- The play of an existing stream begins: the start messages, what the cache
holds, and the new subscription joins the list. -/
def join (relay : Relay) (publication : Nat) (cache : MediaCache)
    (request : SubscribeRequest) : Nat × Relay :=
  let subscription : Subscription :=
    { session := request.session, streamId := request.streamId,
      path := request.path, arguments := request.arguments,
      queue := request.queue, isInitialized := true,
      primedThrough := cache.replayedThrough }
  let place := relay.subscriptions.length
  let priming := cache.primingMessages subscription
  let relay := relay.sendAll request.queue subscription.startMessages
  let relay := { relay with pool := relay.pool.claimAll cache.buffers }
  let relay := relay.sendAll request.queue priming
  let relay := { relay with subscriptions := relay.subscriptions ++ [subscription] }
  (place,
    relay.updatePublication publication fun joined =>
      { joined with subscribers := joined.subscribers ++ [place] })

/-- The places of the publication and of the new subscription. -/
def startSubscribing (relay : Relay) (request : SubscribeRequest) :
    Except RegistryError ((Nat × Nat) × Relay) :=
  let found :=
    (relay.directory.get? request.path).bind fun place =>
      relay.publications[place]?.map fun publication => (place, publication)
  match found with
  | none => .error (.streamNotFound request.path.text)
  | some (place, publication) =>
      if relay.hasSubscriber publication request.session then
        .error (.alreadySubscribing request.path.text)
      else
        let (subscription, relay) := relay.join place publication.cache request
        .ok ((place, subscription), relay)

/-- The flag tells whether the subscription was on the publication's list. -/
def stopSubscribing (relay : Relay) (publication subscription : Nat) :
    Bool × Relay :=
  match relay.publications[publication]? with
  | some left =>
      if subscription ∈ left.subscribers then
        (true,
          relay.updatePublication publication fun left =>
            { left with subscribers := left.subscribers.filter (· ≠ subscription) })
      else (false, relay)
  | none => (false, relay)

end Relay

end LiveRelay
