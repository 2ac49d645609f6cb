import LiveRelay.Proofs.Streams

/-!
# Operations on one stream

What the operations on a published stream do to the streams and to one queue.
At most one subscription of the stream sends to the queue, so what the queue
is sent is what this subscription is sent.
-/

namespace LiveRelay

/-- The subscription that a request leads to. -/
def SubscribeRequest.subscription (request : SubscribeRequest)
    (cache : MediaCache) : Subscription where
  session := request.session
  streamId := request.streamId
  path := request.path
  arguments := request.arguments
  queue := request.queue
  isInitialized := true
  primedThrough := cache.replayedThrough

/-- The queue without its oldest messages. -/
def OutboundQueue.drop (queue : OutboundQueue) (count : Nat) : OutboundQueue :=
  { queue with
    messages := queue.messages.drop count
    pending := queue.pending - min count queue.messages.length }

/-! ## Changes of the streams -/

namespace Streams

def putPublication (streams : Streams) (place : Nat) (publication : Publication) :
    Streams :=
  { streams with publications := streams.publications.set place publication }

theorem putPublication_self {streams : Streams} {place : Nat}
    {publication : Publication}
    (hplace : streams.publications[place]? = some publication) :
    streams.putPublication place publication = streams := by
  have hset : streams.publications.set place publication =
      streams.publications := by
    apply List.ext_getElem?
    intro index
    rw [List.getElem?_set]
    split
    · rename_i hindex
      subst hindex
      split
      · exact hplace.symm
      · rename_i hlength
        rw [List.getElem?_eq_none (by omega)]
    · rfl
  simp only [putPublication, hset]

def addSubscription (streams : Streams) (subscription : Subscription) : Streams :=
  { streams with subscriptions := streams.subscriptions ++ [subscription] }

def updateSubscription (streams : Streams) (place : Nat)
    (change : Subscription → Subscription) : Streams :=
  { streams with subscriptions := streams.subscriptions.modify place change }

end Streams

namespace Relay

theorem streams_updatePublication {relay : Relay} {place : Nat}
    {publication changed : Publication} {change : Publication → Publication}
    (hplace : relay.streams.publications[place]? = some publication)
    (hchange : ∀ counted, counted.uncounted = publication →
      (change counted).uncounted = changed) :
    (relay.updatePublication place change).streams =
      relay.streams.putPublication place changed := by
  rw [getElem?_streams_publications] at hplace
  obtain ⟨counted, hcounted, hsame⟩ := Option.map_eq_some_iff.mp hplace
  have hmap :
      (relay.publications.modify place change).map Publication.uncounted =
        (relay.publications.map Publication.uncounted).set place changed := by
    apply List.ext_getElem?
    intro index
    rw [List.getElem?_map, List.getElem?_modify, List.getElem?_set]
    by_cases hindex : place = index
    · subst hindex
      have hlength : place < relay.publications.length :=
        (List.getElem?_eq_some_iff.mp hcounted).1
      rw [hcounted, if_pos rfl, if_pos (by simpa using hlength)]
      simp [hchange counted hsame]
    · simp [hindex]
  simp only [streams, updatePublication, Streams.putPublication, hmap]
  rfl

theorem streams_updateSubscription (relay : Relay) (place : Nat)
    {change : Subscription → Subscription}
    (hchange : ∀ subscription,
      (change subscription).uncounted = change subscription.uncounted) :
    (relay.updateSubscription place change).streams =
      relay.streams.updateSubscription place change := by
  simp only [streams, updateSubscription, Streams.updateSubscription]
  rw [map_modify change hchange]
  rfl

end Relay

/-! ## Entering the cache -/

theorem GroupCache.start_eq (group : GroupCache) (pool other : BufferPool)
    (keyFrame : GroupEntry) :
    (group.start pool keyFrame).1 = (group.start other keyFrame).1 := by
  unfold GroupCache.start GroupCache.clear
  simp only
  split <;> rfl

theorem GroupCache.push_eq (group : GroupCache) (pool other : BufferPool)
    (entry : GroupEntry) :
    (group.push pool entry).2.1 = (group.push other entry).2.1 := by
  unfold GroupCache.push GroupCache.clear
  simp only
  split
  · rfl
  · split <;> rfl

theorem GroupCache.isClean_start (group : GroupCache) {pool : BufferPool}
    (hclean : pool.IsClean) (keyFrame : GroupEntry) :
    (group.start pool keyFrame).2.IsClean := by
  unfold GroupCache.start GroupCache.clear
  simp only
  split
  · exact hclean.releaseAll _
  · exact (hclean.releaseAll _).release _

theorem GroupCache.isClean_push (group : GroupCache) {pool : BufferPool}
    (hclean : pool.IsClean) (entry : GroupEntry) :
    (group.push pool entry).2.2.IsClean := by
  unfold GroupCache.push GroupCache.clear
  simp only
  split
  · exact hclean.release _
  · split
    · exact (hclean.releaseAll _).release _
    · exact hclean

namespace MediaCache

/-- The cache once a frame has entered it. -/
def afterEntering (cache : MediaCache) (numbered : NumberedFrame) : MediaCache :=
  (cache.enter {} numbered).2.1

theorem enter_eq (cache : MediaCache) (pool : BufferPool)
    (numbered : NumberedFrame) :
    (cache.enter pool numbered).2.1 = cache.afterEntering numbered := by
  unfold afterEntering enter
  simp only
  split
  · cases numbered.frame.kind <;> rfl
  · split
    · split
      · simp only
        rw [GroupCache.start_eq cache.group]
      · rfl
    · simp only
      rw [GroupCache.push_eq cache.group]

theorem isClean_enter (cache : MediaCache) {pool : BufferPool}
    (hclean : pool.IsClean) (numbered : NumberedFrame) :
    (cache.enter pool numbered).2.2.IsClean := by
  have hclaimed := hclean.claim numbered.buffer
  unfold enter
  simp only
  split
  · cases numbered.frame.kind with
    | audio => exact hclaimed.releaseAll _
    | video => exact hclaimed.releaseAll _
  · split
    · split
      · exact GroupCache.isClean_start cache.group hclaimed _
      · exact hclean
    · exact GroupCache.isClean_push cache.group hclaimed _

end MediaCache

namespace Relay

/-- A frame with the next number has entered the cache of a publication. -/
structure Enters (place : Nat) (publication : Publication)
    (numbered : NumberedFrame) (before after : Relay) : Prop where
  streams :
    after.streams =
      before.streams.putPublication place
        { publication with
          cache := publication.cache.afterEntering numbered
          sequence := numbered.sequence }
  queues : after.queues = before.queues
  isClean : after.pool.IsClean

/-- The next frame of a publication. -/
structure IsNext (publication : Publication) (frame : MediaFrame)
    (timestamp : UInt32) (payload : Bytes) (numbered : NumberedFrame) : Prop where
  frame : numbered.frame = frame
  sequence : numbered.sequence = publication.sequence + 1
  timestamp : numbered.timestamp = timestamp
  content : numbered.buffer.content = payload

theorem enter_spec {relay : Relay} {place : Nat} {publication : Publication}
    (hplace : relay.streams.publications[place]? = some publication)
    (hclean : relay.pool.IsClean) (frame : MediaFrame) (timestamp : UInt32)
    (payload : Bytes) :
    ∃ change numbered entered,
      relay.enter place frame timestamp payload =
          some (change, numbered, entered) ∧
        IsNext publication frame timestamp payload numbered ∧
        Enters place publication numbered relay entered := by
  have hview := hplace
  rw [getElem?_streams_publications] at hview
  obtain ⟨counted, hcounted, hsame⟩ := Option.map_eq_some_iff.mp hview
  have hsequence : counted.sequence = publication.sequence := by
    rw [← hsame]
    rfl
  have hcache : counted.cache = publication.cache := by
    rw [← hsame]
    rfl
  unfold enter
  rw [hcounted]
  simp only [hsequence, hcache, MediaCache.enter_eq]
  refine ⟨_, _, _, rfl, ⟨rfl, rfl, rfl, hclean.content_rent payload⟩, ?_, rfl, ?_⟩
  · apply streams_updatePublication hplace
    intro other hother
    rw [← hother]
    rfl
  · exact MediaCache.isClean_enter _ (hclean.rent payload) _

/-- Whatever enters, only the publication and the pool are touched. -/
theorem exists_eq_of_enter {relay entered : Relay} {place : Nat} {frame : MediaFrame}
    {timestamp : UInt32} {payload : Bytes} {change : CacheChange}
    {numbered : NumberedFrame}
    (henter :
      relay.enter place frame timestamp payload = some (change, numbered, entered)) :
    ∃ cache counters pool,
      entered =
        { relay.updatePublication place
            ({ · with
              cache := cache, sequence := numbered.sequence, counters := counters }) with
          pool := pool } := by
  unfold enter at henter
  split at henter
  · cases henter
  · simp only [Option.some.injEq, Prod.mk.injEq] at henter
    obtain ⟨-, rfl, rfl⟩ := henter
    exact ⟨_, _, _, rfl⟩

/-! ## Distributing -/

/-- Beyond the broadcast, a distribution sends nothing. -/
theorem sends_distribute {relay entered : Relay} {published queue : Nat}
    {kind : MediaKind} {timestamp : UInt32} {payload : Bytes} {change : CacheChange}
    {numbered : NumberedFrame} {messages : List OutboundMessage}
    (henter : relay.enter published (MediaFrame.classify kind payload) timestamp payload =
      some (change, numbered, entered))
    (hbroadcast :
      Sends queue messages entered (entered.broadcast published numbered).2) :
    Sends queue messages entered
      (relay.distribute published kind timestamp payload).2 := by
  have hsends :=
    hbroadcast.trans_silent
      ((sends_showChange _ (entered.pathOf published) numbered change).silent_trans
        (sends_finish _ published (entered.pathOf published) numbered
          (entered.broadcast published numbered).1))
  unfold distribute
  simp only [henter]
  exact hsends

/-- A frame of no publication does nothing.  Any other enters, and what follows
sends messages. -/
theorem distribute_cases (relay : Relay) (published : Nat) (kind : MediaKind)
    (timestamp : UInt32) (payload : Bytes) :
    (relay.distribute published kind timestamp payload).2 = relay ∨
      ∃ change numbered entered,
        relay.enter published (MediaFrame.classify kind payload) timestamp payload =
            some (change, numbered, entered) ∧
          ∀ queue, ∃ messages,
            Sends queue messages entered
              (relay.distribute published kind timestamp payload).2 := by
  cases henter :
      relay.enter published (MediaFrame.classify kind payload) timestamp payload with
  | none =>
      left
      unfold distribute
      simp only [henter]
  | some entering =>
      obtain ⟨change, numbered, entered⟩ := entering
      refine Or.inr ⟨change, numbered, entered, rfl, fun queue => ?_⟩
      obtain ⟨messages, hbroadcast⟩ : ∃ messages,
          Sends queue messages entered (entered.broadcast published numbered).2 :=
        entered.exists_sends_broadcast published numbered
      exact ⟨messages, sends_distribute henter hbroadcast⟩

/-- The publication is changed, and the queue is sent some messages. -/
structure Turns (published queue : Nat) (changed : Publication)
    (messages : List OutboundMessage) (before after : Relay) : Prop where
  streams : after.streams = before.streams.putPublication published changed
  queueAt : after.queueAt queue = (before.queueAt queue).pushAll messages
  isClean : after.pool.IsClean

variable {relay : Relay} {published queue place : Nat}
  {publication : Publication}

theorem Enters.queueAt {before after : Relay} {numbered : NumberedFrame}
    (henters : Enters published publication numbered before after)
    (queue : Nat) : after.queueAt queue = before.queueAt queue := by
  simp [Relay.queueAt, henters.queues]

theorem Enters.messagesTo {before after : Relay} {numbered : NumberedFrame}
    (henters : Enters published publication numbered before after)
    (other : NumberedFrame) :
    after.messagesTo queue other place = before.messagesTo queue other place := by
  have hsubscriptions :
      after.streams.subscriptions = before.streams.subscriptions := by
    rw [henters.streams]
    rfl
  have hthreshold : after.skipThreshold = before.skipThreshold :=
    congrArg Streams.skipThreshold henters.streams
  unfold Relay.messagesTo
  rw [hsubscriptions, henters.queueAt, hthreshold]

theorem Enters.found {numbered : NumberedFrame} {entered : Relay}
    (henters : Enters published publication numbered relay entered)
    (hplace : relay.streams.publications[published]? = some publication) :
    entered.streams.publications[published]? =
      some { publication with
        cache := publication.cache.afterEntering numbered
        sequence := numbered.sequence } := by
  have hlength := (List.getElem?_eq_some_iff.mp hplace).1
  rw [henters.streams]
  simp [Streams.putPublication, hlength]

/-- What a distribution sends is what the broadcast of the frame sends, once the
frame has entered the cache. -/
theorem distribute_spec
    (hplace : relay.streams.publications[published]? = some publication)
    (hclean : relay.pool.IsClean) (kind : MediaKind) (timestamp : UInt32)
    (payload : Bytes) :
    ∃ numbered entered,
      IsNext publication (MediaFrame.classify kind payload) timestamp payload
          numbered ∧
        Enters published publication numbered relay entered ∧
        ∀ queue messages,
          Sends queue messages entered (entered.broadcast published numbered).2 →
            Turns published queue
              { publication with
                cache := publication.cache.afterEntering numbered
                sequence := numbered.sequence }
              messages relay (relay.distribute published kind timestamp payload).2 := by
  obtain ⟨change, numbered, entered, henter, hnext, henters⟩ :=
    enter_spec hplace hclean (MediaFrame.classify kind payload) timestamp payload
  refine ⟨numbered, entered, hnext, henters, ?_⟩
  intro queue messages hbroadcast
  have hsends := sends_distribute henter hbroadcast
  refine ⟨hsends.streams.trans henters.streams, ?_,
    hsends.isClean henters.isClean⟩
  rw [← henters.queueAt]
  exact hsends.queueAt

/-! ## Describing -/

/-- A description of no publication does nothing.  Any other is sent, and cached. -/
theorem distributeMetadata_cases (relay : Relay) (published : Nat)
    (metadata : Properties) :
    (relay.distributeMetadata published metadata).2 = relay ∨
      ∃ described : Relay,
        (∀ queue, ∃ messages, Sends queue messages relay described) ∧
          (relay.distributeMetadata published metadata).2 =
            described.updatePublication published fun publication =>
              { publication with
                cache := { publication.cache with metadata := some metadata } } := by
  unfold distributeMetadata
  cases relay.publications[published]? with
  | none => exact Or.inl rfl
  | some publication =>
      refine Or.inr ⟨(relay.describeAll metadata publication.subscribers).2, ?_, rfl⟩
      exact fun queue => relay.exists_sends_describeAll metadata publication.subscribers

theorem distributeMetadata_spec
    (hplace : relay.streams.publications[published]? = some publication)
    (hclean : relay.pool.IsClean) {metadata : Properties}
    {messages : List OutboundMessage}
    (hsends : Sends queue messages relay
      (relay.describeAll metadata publication.subscribers).2) :
    Turns published queue
      { publication with
        cache := { publication.cache with metadata := some metadata } }
      messages relay (relay.distributeMetadata published metadata).2 := by
  have hfound := hplace
  rw [getElem?_streams_publications] at hfound
  obtain ⟨counted, hcounted, hsame⟩ := Option.map_eq_some_iff.mp hfound
  have hsubscribers : counted.subscribers = publication.subscribers := by
    rw [← hsame]
    rfl
  unfold distributeMetadata
  rw [hcounted]
  show Turns published queue _ _ relay
    ((relay.describeAll metadata counted.subscribers).2.updatePublication
      published _)
  rw [hsubscribers]
  refine ⟨?_, hsends.queueAt, hsends.isClean hclean⟩
  rw [← hsends.streams]
  apply streams_updatePublication
  · rw [hsends.streams]
    exact hplace
  · intro other hother
    rw [← hother]
    rfl

/-! ## Joining and leaving -/

theorem streams_addSubscription (relay : Relay) (subscription : Subscription) :
    ({ relay with subscriptions := relay.subscriptions ++ [subscription] } :
        Relay).streams =
      relay.streams.addSubscription subscription.uncounted := by
  simp only [streams, Streams.addSubscription, List.map_append, List.map_singleton]
  rfl

/-- The messages that a play starts with are sent. -/
def prime (relay : Relay) (cache : MediaCache) (request : SubscribeRequest) :
    Relay :=
  let subscription := request.subscription cache
  let relay := relay.sendAll request.queue subscription.startMessages
  let relay := { relay with pool := relay.pool.claimAll cache.buffers }
  relay.sendAll request.queue (cache.primingMessages subscription)

theorem sends_prime (relay : Relay) (cache : MediaCache)
    (request : SubscribeRequest) :
    let subscription := request.subscription cache
    Sends queue
      (if request.queue = queue then
        subscription.startMessages ++ cache.primingMessages subscription
      else [])
      relay (relay.prime cache request) := by
  intro subscription
  let started := relay.sendAll request.queue subscription.startMessages
  let claimed := { started with pool := started.pool.claimAll cache.buffers }
  have hstarted : Sends queue
      (if request.queue = queue then subscription.startMessages else []) relay
      started :=
    sends_sendAll relay request.queue subscription.startMessages
  have hclaimed : Sends queue [] started claimed :=
    ⟨rfl, rfl, fun hclean => hclean.claimAll cache.buffers⟩
  have hprimed : Sends queue
      (if request.queue = queue then cache.primingMessages subscription else [])
      claimed (relay.prime cache request) :=
    sends_sendAll claimed request.queue (cache.primingMessages subscription)
  have hall := hstarted.trans (hclaimed.silent_trans hprimed)
  split
  · rename_i hqueue
    rw [if_pos hqueue, if_pos hqueue] at hall
    exact hall
  · rename_i hqueue
    rw [if_neg hqueue, if_neg hqueue] at hall
    exact hall

theorem join_spec
    (hplace : relay.streams.publications[published]? = some publication)
    (cache : MediaCache) (request : SubscribeRequest) (queue : Nat) :
    let subscription := request.subscription cache
    let joined := (relay.join published cache request).2
    joined.streams =
        (relay.streams.addSubscription subscription).putPublication published
          { publication with
            subscribers :=
              publication.subscribers ++ [relay.streams.subscriptions.length] } ∧
      joined.queueAt queue =
        (relay.queueAt queue).pushAll
          (if request.queue = queue then
            subscription.startMessages ++ cache.primingMessages subscription
          else []) ∧
      (relay.pool.IsClean → joined.pool.IsClean) := by
  intro subscription joined
  have hprime : Sends queue
      (if request.queue = queue then
        subscription.startMessages ++ cache.primingMessages subscription
      else []) relay (relay.prime cache request) :=
    sends_prime relay cache request
  let primed := relay.prime cache request
  have hadded :
      ({ primed with subscriptions := primed.subscriptions ++ [subscription] } :
          Relay).streams = relay.streams.addSubscription subscription := by
    rw [streams_addSubscription, hprime.streams]
    rfl
  have hjoined : joined =
      ({ primed with subscriptions := primed.subscriptions ++ [subscription] } :
        Relay).updatePublication published fun listed =>
          { listed with
            subscribers := listed.subscribers ++ [relay.subscriptions.length] } :=
    rfl
  refine ⟨?_, hprime.queueAt, hprime.isClean⟩
  rw [hjoined, ← hadded]
  apply streams_updatePublication
  · rw [hadded]
    exact hplace
  · intro other hother
    rw [← hother]
    simp [Publication.uncounted, streams]

theorem startSubscribing_spec {request : SubscribeRequest}
    {found subscription : Nat} {joined : Relay}
    (hjoin :
      relay.startSubscribing request = .ok ((found, subscription), joined)) :
    ∃ publication,
      relay.streams.directory.get? request.path = some found ∧
      relay.streams.publications[found]? = some publication ∧
      (∀ other ∈ publication.subscribers, ∀ listed,
        relay.streams.subscriptions[other]? = some listed →
          listed.session ≠ request.session) ∧
      subscription = relay.streams.subscriptions.length ∧
      joined = (relay.join found publication.cache request).2 := by
  unfold startSubscribing at hjoin
  simp only at hjoin
  split at hjoin
  · simp at hjoin
  · rename_i place counted hfound
    obtain ⟨other, hother, hpair⟩ := Option.bind_eq_some_iff.mp hfound
    obtain ⟨counted, hcounted, hsame⟩ := Option.map_eq_some_iff.mp hpair
    obtain ⟨rfl, rfl⟩ := Prod.mk.inj hsame
    split at hjoin
    · simp at hjoin
    · rename_i hsession
      simp only [Except.ok.injEq, Prod.mk.injEq] at hjoin
      obtain ⟨⟨rfl, hsubscription⟩, hjoined⟩ := hjoin
      refine ⟨counted.uncounted, hother, ?_, ?_, ?_, hjoined.symm⟩
      · rw [getElem?_streams_publications, hcounted]
        rfl
      · intro place hplace listed hlisted hsame
        rw [getElem?_streams_subscriptions] at hlisted
        obtain ⟨known, hknown, rfl⟩ := Option.map_eq_some_iff.mp hlisted
        apply hsession
        unfold hasSubscriber
        rw [List.any_eq_true]
        refine ⟨place, hplace, ?_⟩
        have hknownSession : known.session = request.session := hsame
        simp [hknown, hknownSession]
      · rw [← hsubscription]
        simp [streams, join]

/-- Who has not been told yet is sent something. -/
theorem endSubscription_cases (relay : Relay) (place : Nat) :
    relay.endSubscription place = relay ∨
      ∀ queue, ∃ messages,
        Sends queue messages (relay.updateSubscription place ({ · with hasEnded := true }))
          (relay.endSubscription place) := by
  unfold endSubscription
  split
  · rename_i ended _
    split
    · exact Or.inl rfl
    · exact Or.inr fun queue => ⟨_, sends_sendAll _ ended.queue ended.endMessages⟩
  · exact Or.inl rfl

theorem stopSubscribing_spec
    (hplace : relay.streams.publications[published]? = some publication)
    (subscription : Nat) :
    let left := (relay.stopSubscribing published subscription).2
    left.streams =
        relay.streams.putPublication published
          { publication with
            subscribers :=
              publication.subscribers.filter (· ≠ subscription) } ∧
      left.queues = relay.queues ∧ left.pool = relay.pool := by
  intro left
  have hview := hplace
  rw [getElem?_streams_publications] at hview
  obtain ⟨counted, hcounted, hsame⟩ := Option.map_eq_some_iff.mp hview
  have hsubscribers : counted.subscribers = publication.subscribers := by
    rw [← hsame]
    rfl
  have hleft : left = (relay.stopSubscribing published subscription).2 := rfl
  unfold stopSubscribing at hleft
  rw [hcounted] at hleft
  simp only at hleft
  split at hleft
  · rw [hleft]
    refine ⟨streams_updatePublication hplace ?_, rfl, rfl⟩
    intro other hother
    rw [← hother]
    rfl
  · rename_i habsent
    rw [hleft]
    refine ⟨?_, rfl, rfl⟩
    have hfilter : publication.subscribers.filter (· ≠ subscription) =
        publication.subscribers := by
      rw [List.filter_eq_self]
      intro other hother
      simp only [ne_eq, decide_eq_true_eq]
      intro hequal
      apply habsent
      rw [hsubscribers, ← hequal]
      exact hother
    rw [hfilter]
    exact (Streams.putPublication_self hplace).symm

/-! ## Receiving -/

theorem receive?_eq_none {place : Nat} (hnone : relay.receive? place = none) :
    (relay.queueAt place).messages = [] := by
  unfold receive? at hnone
  unfold Relay.queueAt
  cases hqueue : relay.queues[place]? with
  | none => rfl
  | some found =>
      cases hmessages : found.messages with
      | nil => exact hmessages
      | cons message messages =>
          simp [hqueue, OutboundQueue.receive?, hmessages] at hnone

theorem receive?_eq_some {place : Nat} {message : OutboundMessage}
    {received : Relay} (hsome : relay.receive? place = some (message, received)) :
    ∃ messages, (relay.queueAt place).messages = message :: messages ∧
      received.streams = relay.streams ∧
      received.pool = relay.pool ∧
      ∀ queue, received.queueAt queue =
        if place = queue then (relay.queueAt queue).drop 1
        else relay.queueAt queue := by
  unfold receive? at hsome
  cases hqueue : relay.queues[place]? with
  | none => simp [hqueue] at hsome
  | some found =>
      cases hmessages : found.messages with
      | nil => simp [hqueue, OutboundQueue.receive?, hmessages] at hsome
      | cons first messages =>
          simp only [hqueue, Option.bind_some, OutboundQueue.receive?, hmessages,
            Option.some.injEq, Prod.mk.injEq] at hsome
          obtain ⟨rfl, rfl⟩ := hsome
          have hlength := (List.getElem?_eq_some_iff.mp hqueue).1
          have hat : relay.queueAt place = found := by
            simp [Relay.queueAt, hqueue]
          refine ⟨messages, ?_, rfl, rfl, ?_⟩
          · rw [hat, hmessages]
          · intro queue
            show Relay.queueAt { relay with
              queues := relay.queues.set place _, pool := relay.pool } queue = _
            rw [queueAt_set]
            by_cases hplace : place = queue
            · subst hplace
              rw [if_pos ⟨rfl, hlength⟩, if_pos rfl, hat]
              simp [OutboundQueue.drop, hmessages]
            · rw [if_neg (fun hboth => hplace hboth.1), if_neg hplace]

theorem drop_of_messages_eq_nil {found : OutboundQueue}
    (hempty : found.messages = []) (count : Nat) :
    found.drop count = found := by
  cases found
  simp_all [OutboundQueue.drop]

theorem drop_drop (found : OutboundQueue) (first second : Nat) :
    (found.drop first).drop second = found.drop (first + second) := by
  simp only [OutboundQueue.drop, List.drop_drop, List.length_drop,
    OutboundQueue.mk.injEq, true_and]
  omega

theorem receiveSome_spec (relay : Relay) (place count queue : Nat) :
    (relay.receiveSome place count).1 =
        (relay.queueAt place).messages.take count ∧
      (relay.receiveSome place count).2.streams = relay.streams ∧
      (relay.receiveSome place count).2.queueAt queue =
        (if place = queue then (relay.queueAt queue).drop count
          else relay.queueAt queue) ∧
      (relay.pool.IsClean → (relay.receiveSome place count).2.pool.IsClean) := by
  induction count generalizing relay with
  | zero =>
      refine ⟨by simp [receiveSome], rfl, ?_, id⟩
      simp [receiveSome, OutboundQueue.drop]
  | succ count ih =>
      rw [receiveSome]
      cases hreceive : relay.receive? place with
      | none =>
          have hempty := receive?_eq_none hreceive
          refine ⟨by simp [hempty], rfl, ?_, id⟩
          by_cases hplace : place = queue
          · rw [if_pos hplace, ← hplace, drop_of_messages_eq_nil hempty]
          · rw [if_neg hplace]
      | some found =>
          obtain ⟨message, received⟩ := found
          obtain ⟨messages, hmessages, hstreams, hpool, hqueue⟩ :=
            receive?_eq_some hreceive
          have hrest := ih
            { received with
              pool := received.pool.releaseAll message.payload.buffer?.toList }
          obtain ⟨htaken, hlastStreams, hlastQueue, hclean⟩ := hrest
          refine ⟨?_, hlastStreams.trans hstreams, ?_, ?_⟩
          · have hafter : (received.queueAt place).messages = messages := by
              rw [hqueue, if_pos rfl]
              simp [OutboundQueue.drop, hmessages]
            simp only [hmessages, List.take_succ_cons]
            rw [← hafter]
            exact congrArg _ htaken
          · refine hlastQueue.trans ?_
            show (if place = queue then (received.queueAt queue).drop count
              else received.queueAt queue) = _
            rw [hqueue]
            by_cases hplace : place = queue
            · simp only [if_pos hplace]
              rw [drop_drop, Nat.add_comm]
            · simp only [if_neg hplace]
          · intro hpoolClean
            apply hclean
            rw [hpool]
            exact hpoolClean.releaseAll _

/-! ## Opening and closing -/

theorem queueAt_openQueue (relay : Relay) (queue : Nat) :
    relay.openQueue.2.queueAt queue =
      if queue = relay.queues.length then {} else relay.queueAt queue := by
  simp only [openQueue, Relay.queueAt]
  split
  · rename_i hnew
    simp [hnew]
  · rename_i hnew
    by_cases hlength : queue < relay.queues.length
    · rw [List.getElem?_append_left hlength]
    · have hbeyond : relay.queues.length + 1 ≤ queue := by omega
      rw [List.getElem?_eq_none (by simpa using hbeyond),
        List.getElem?_eq_none (by omega)]

theorem queueAt_closeQueue (relay : Relay) (place queue : Nat) :
    (relay.closeQueue place).queueAt queue =
      if place = queue then (relay.queueAt queue).close
      else relay.queueAt queue := by
  simp only [closeQueue, Relay.queueAt, List.getElem?_modify]
  by_cases hplace : place = queue
  · cases relay.queues[queue]? with
    | none => simp [hplace, OutboundQueue.close]
    | some found => simp [hplace]
  · simp [hplace]

theorem queueAt_hangUpQueue (relay : Relay) (place queue : Nat) :
    (relay.hangUpQueue place).queueAt queue =
      if place = queue then
        { relay.queueAt queue with isOpen := false, messages := [] }
      else relay.queueAt queue := by
  unfold hangUpQueue
  cases hfound : relay.queues[place]? with
  | none =>
      by_cases hplace : place = queue
      · rw [if_pos hplace, ← hplace]
        simp [Relay.queueAt, hfound]
      · rw [if_neg hplace]
  | some found =>
      have hlength := (List.getElem?_eq_some_iff.mp hfound).1
      rw [queueAt_set]
      by_cases hplace : place = queue
      · subst hplace
        rw [if_pos ⟨rfl, hlength⟩, if_pos rfl]
        simp [Relay.queueAt, hfound, OutboundQueue.hangUp]
      · rw [if_neg (fun hboth => hplace hboth.1), if_neg hplace]

theorem streams_hangUpQueue (relay : Relay) (place : Nat) :
    (relay.hangUpQueue place).streams = relay.streams := by
  unfold hangUpQueue
  split <;> rfl

theorem isClean_hangUpQueue (hclean : relay.pool.IsClean) (place : Nat) :
    (relay.hangUpQueue place).pool.IsClean := by
  unfold hangUpQueue
  split
  · exact hclean.releaseAll _
  · exact hclean

end Relay

end LiveRelay
