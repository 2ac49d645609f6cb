import LiveRelay.Proofs.OnAir

/-!
# Airings

An airing follows one stream from the moment it is published: viewers join and
leave, frames and descriptions are published, viewers pause and choose what
they want, and messages are received.  What was received is recorded, so what
a queue was sent can be told from the recording and from what still waits.
-/

namespace LiveRelay

/-- What happens to a stream and to the queues of its viewers. -/
inductive StreamEvent where
  | opened
  | joined (request : SubscribeRequest)
  | left (subscription : Nat)
  | frame (kind : MediaKind) (timestamp : UInt32) (payload : Bytes)
  | described (metadata : Properties)
  | paused (subscription : Nat) (isPaused : Bool)
  | chosen (subscription : Nat) (kind : MediaKind) (isWanted : Bool)
  | drained (queue count : Nat)
  | closed (queue : Nat)
  | hungUp (queue : Nat)

/-- Audio or video is turned on or off. -/
def Subscription.choose (subscription : Subscription) (kind : MediaKind)
    (isWanted : Bool) : Subscription :=
  match kind with
  | .audio => { subscription with receivesAudio := isWanted }
  | .video => { subscription with receivesVideo := isWanted }

def Programme.after (programme : Programme) : StreamEvent → Programme
  | .frame kind timestamp payload => programme.addFrame kind timestamp payload
  | .described metadata => programme.addDescription metadata
  | _ => programme

def Programme.ofEvents (events : List StreamEvent) : Programme :=
  events.foldl Programme.after {}

/-- The counter beside an open queue is right. -/
def OutboundQueue.IsCounted (queue : OutboundQueue) : Prop :=
  queue.isOpen = true → queue.pending = queue.messages.length

structure Airing where
  relay : Relay
  /-- What was received so far, each with its queue. -/
  received : List (Nat × OutboundMessage) := []

namespace Airing

/-- What happens once; a request that is refused changes nothing. -/
def step (published : Nat) (airing : Airing) : StreamEvent → Airing
  | .opened => { airing with relay := airing.relay.openQueue.2 }
  | .joined request =>
      match airing.relay.startSubscribing request with
      | .ok (_, relay) => { airing with relay := relay }
      | .error _ => airing
  | .left subscription =>
      { airing with
        relay := (airing.relay.stopSubscribing published subscription).2 }
  | .frame kind timestamp payload =>
      { airing with
        relay := (airing.relay.distribute published kind timestamp payload).2 }
  | .described metadata =>
      { airing with
        relay := (airing.relay.distributeMetadata published metadata).2 }
  | .paused subscription isPaused =>
      { airing with
        relay :=
          airing.relay.updateSubscription subscription
            ({ · with isPaused := isPaused }) }
  | .chosen subscription kind isWanted =>
      { airing with
        relay :=
          airing.relay.updateSubscription subscription
            (·.choose kind isWanted) }
  | .drained queue count =>
      let (messages, relay) := airing.relay.receiveSome queue count
      { relay := relay
        received := airing.received ++ messages.map (queue, ·) }
  | .closed queue => { airing with relay := airing.relay.closeQueue queue }
  | .hungUp queue => { airing with relay := airing.relay.hangUpQueue queue }

def run (published : Nat) (airing : Airing) (events : List StreamEvent) :
    Airing :=
  events.foldl (step published) airing

def receivedFrom (received : List (Nat × OutboundMessage)) (queue : Nat) :
    List OutboundMessage :=
  received.filterMap fun (source, message) =>
    if source = queue then some message else none

/-- All that a queue was sent, received or not. -/
def sentTo (airing : Airing) (queue : Nat) : List WireMessage :=
  (receivedFrom airing.received queue ++
    (airing.relay.queueAt queue).messages).map OutboundMessage.toWire

variable {published : Nat} {airing : Airing}

theorem run_append (first second : List StreamEvent) :
    airing.run published (first ++ second) =
      (airing.run published first).run published second :=
  List.foldl_append

theorem sentTo_of_pushAll {before after : Airing} {queue : Nat}
    {messages : List OutboundMessage}
    (hopen : (before.relay.queueAt queue).isOpen = true)
    (hreceived : after.received = before.received)
    (hqueue : after.relay.queueAt queue =
      (before.relay.queueAt queue).pushAll messages) :
    after.sentTo queue =
      before.sentTo queue ++ messages.map OutboundMessage.toWire := by
  have hmessages : (after.relay.queueAt queue).messages =
      (before.relay.queueAt queue).messages ++ messages := by
    rw [hqueue, OutboundQueue.pushAll_of_isOpen hopen]
  unfold sentTo
  rw [hreceived, hmessages, ← List.append_assoc, List.map_append]

theorem receivedFrom_map (messages : List OutboundMessage) (place queue : Nat) :
    receivedFrom (messages.map (place, ·)) queue =
      if place = queue then messages else [] := by
  induction messages with
  | nil => rw [ite_self]; rfl
  | cons message messages ih =>
      unfold receivedFrom at ih ⊢
      rw [List.map_cons, List.filterMap_cons, ih]
      by_cases hplace : place = queue
      · simp [hplace]
      · simp [hplace]

/-- Receiving moves messages from one record to the other. -/
theorem sentTo_drained (queue place count : Nat) :
    (airing.step published (.drained place count)).sentTo queue =
      airing.sentTo queue := by
  obtain ⟨htaken, -, hqueue, -⟩ :=
    airing.relay.receiveSome_spec place count queue
  have hreceived :
      receivedFrom (airing.step published (.drained place count)).received queue =
        receivedFrom airing.received queue ++
          if place = queue then (airing.relay.queueAt place).messages.take count
          else [] := by
    rw [← htaken, ← receivedFrom_map]
    exact List.filterMap_append
  unfold sentTo
  rw [hreceived]
  show ((_ ++ _) ++ ((airing.relay.receiveSome place count).2.queueAt
    queue).messages).map _ = _
  rw [hqueue]
  by_cases hplace : place = queue
  · subst hplace
    simp only [if_true, OutboundQueue.drop]
    rw [List.append_assoc, List.take_append_drop]
  · simp only [if_neg hplace, List.append_nil]

/-! ## What holds all the time -/

structure Airs (threshold published : Nat) (programme : Programme)
    (publication : Publication) (relay : Relay) : Prop where
  skipThreshold : relay.skipThreshold = threshold
  onAir : OnAir published programme relay.streams publication
  isClean : relay.pool.IsClean
  isCounted : ∀ queue, (relay.queueAt queue).IsCounted

end Airing

namespace OutboundQueue

variable {queue : OutboundQueue}

theorem IsCounted.pushAll (hcounted : queue.IsCounted)
    (messages : List OutboundMessage) : (queue.pushAll messages).IsCounted := by
  cases hopen : queue.isOpen with
  | false =>
      rw [pushAll_of_not_isOpen hopen]
      exact hcounted
  | true =>
      rw [pushAll_of_isOpen hopen]
      intro _
      simp [hcounted hopen]

theorem IsCounted.drop (hcounted : queue.IsCounted) (count : Nat) :
    (queue.drop count).IsCounted := by
  intro hopen
  have hpending := hcounted hopen
  simp only [OutboundQueue.drop, List.length_drop]
  omega

end OutboundQueue

namespace Airing

variable {threshold published : Nat} {programme : Programme}
  {publication : Publication} {relay : Relay}

theorem Airs.cache_eq (hairs : Airs threshold published programme publication relay) :
    (relay.publications[published]?).map Publication.cache =
      some publication.cache := by
  have hfound := hairs.onAir.found
  rw [Relay.getElem?_streams_publications] at hfound
  obtain ⟨counted, hcounted, hsame⟩ := Option.map_eq_some_iff.mp hfound
  rw [hcounted, ← hsame]
  rfl

theorem Airs.afterTurn {changed : Publication} {later : Programme}
    {after : Relay} (hairs : Airs threshold published programme publication relay)
    (honAir : OnAir published later
      (relay.streams.putPublication published changed) changed)
    (hturns : ∀ queue, ∃ messages,
      Relay.Turns published queue changed messages relay after) :
    Airs threshold published later changed after where
  skipThreshold := by
    obtain ⟨messages, hturn⟩ := hturns 0
    have hkept := congrArg Streams.skipThreshold hturn.streams
    exact hkept.trans hairs.skipThreshold
  onAir := by
    obtain ⟨messages, hturn⟩ := hturns 0
    rw [hturn.streams]
    exact honAir
  isClean := by
    obtain ⟨messages, hturn⟩ := hturns 0
    exact hturn.isClean
  isCounted queue := by
    obtain ⟨messages, hturn⟩ := hturns queue
    rw [hturn.queueAt]
    exact (hairs.isCounted queue).pushAll messages

theorem Airs.afterEnter (hairs : Airs threshold published programme publication relay)
    {kind : MediaKind} {timestamp : UInt32} {payload : Bytes}
    {numbered : NumberedFrame} {entered : Relay}
    (hnext : Relay.IsNext publication (MediaFrame.classify kind payload) timestamp
      payload numbered)
    (henters : Relay.Enters published publication numbered relay entered) :
    Airs threshold published (programme.addFrame kind timestamp payload)
      { publication with
        cache := publication.cache.afterEntering numbered
        sequence := numbered.sequence }
      entered where
  skipThreshold :=
    (congrArg Streams.skipThreshold henters.streams).trans hairs.skipThreshold
  onAir := by
    rw [henters.streams]
    exact hairs.onAir.afterFrame hnext
  isClean := henters.isClean
  isCounted queue := by
    rw [henters.queueAt]
    exact hairs.isCounted queue

theorem Airs.afterFrame (hairs : Airs threshold published programme publication relay)
    (kind : MediaKind) (timestamp : UInt32) (payload : Bytes) :
    ∃ changed, Airs threshold published (programme.addFrame kind timestamp payload) changed
      (relay.distribute published kind timestamp payload).2 := by
  obtain ⟨numbered, entered, hnext, henters, hturns⟩ :=
    Relay.distribute_spec hairs.onAir.found hairs.isClean kind timestamp payload
  refine ⟨_, hairs.afterTurn (hairs.onAir.afterFrame hnext) ?_⟩
  intro queue
  obtain ⟨messages, hsends⟩ :=
    entered.exists_sends_broadcast published numbered
  exact ⟨messages, hturns queue messages hsends⟩

theorem Airs.afterDescription
    (hairs : Airs threshold published programme publication relay)
    (metadata : Properties) :
    ∃ changed, Airs threshold published (programme.addDescription metadata) changed
      (relay.distributeMetadata published metadata).2 := by
  refine ⟨_, hairs.afterTurn (hairs.onAir.afterDescription metadata) ?_⟩
  intro queue
  obtain ⟨messages, hsends⟩ :=
    Relay.exists_sends_describeAll relay metadata publication.subscribers
  exact
    ⟨messages,
      Relay.distributeMetadata_spec hairs.onAir.found hairs.isClean hsends⟩

/-- A request that is accepted joins the list of the stream. -/
theorem Airs.exists_join (hairs : Airs threshold published programme publication relay)
    {request : SubscribeRequest} {found subscription : Nat} {joined : Relay}
    (hjoin :
      relay.startSubscribing request = .ok ((found, subscription), joined)) :
    found = published ∧
      (∀ other ∈ publication.subscribers, ∀ listed,
        relay.streams.subscriptions[other]? = some listed →
          listed.session ≠ request.session) ∧
      subscription = relay.streams.subscriptions.length ∧
      joined = (relay.join published publication.cache request).2 := by
  obtain ⟨other, hpath, hfound, hsessions, hsubscription, hjoined⟩ :=
    Relay.startSubscribing_spec hjoin
  have hpublished := hairs.onAir.alone request.path found hpath
  subst hpublished
  have hother : other = publication :=
    Option.some.inj (hfound.symm.trans hairs.onAir.found)
  subst hother
  exact ⟨rfl, hsessions, hsubscription, hjoined⟩

theorem Airs.afterJoin (hairs : Airs threshold published programme publication relay)
    (request : SubscribeRequest) :
    Airs threshold published programme
      { publication with
        subscribers :=
          publication.subscribers ++ [relay.streams.subscriptions.length] }
      (relay.join published publication.cache request).2 where
  skipThreshold := by
    obtain ⟨hstreams, -, -⟩ :=
      Relay.join_spec hairs.onAir.found publication.cache request 0
    exact (congrArg Streams.skipThreshold hstreams).trans hairs.skipThreshold
  onAir := by
    obtain ⟨hstreams, -, -⟩ :=
      Relay.join_spec hairs.onAir.found publication.cache request 0
    rw [hstreams]
    exact hairs.onAir.afterJoin request
  isClean := by
    obtain ⟨-, -, hclean⟩ :=
      Relay.join_spec hairs.onAir.found publication.cache request 0
    exact hclean hairs.isClean
  isCounted queue := by
    obtain ⟨-, hqueue, -⟩ :=
      Relay.join_spec hairs.onAir.found publication.cache request queue
    rw [hqueue]
    exact (hairs.isCounted queue).pushAll _

theorem Airs.afterSubscribing
    (hairs : Airs threshold published programme publication relay)
    {request : SubscribeRequest} {found subscription : Nat} {joined : Relay}
    (hjoin :
      relay.startSubscribing request = .ok ((found, subscription), joined)) :
    Airs threshold published programme
      { publication with
        subscribers :=
          publication.subscribers ++ [relay.streams.subscriptions.length] }
      joined := by
  obtain ⟨-, -, -, hjoined⟩ := hairs.exists_join hjoin
  rw [hjoined]
  exact hairs.afterJoin request

theorem Airs.afterLeave (hairs : Airs threshold published programme publication relay)
    (place : Nat) :
    Airs threshold published programme
      { publication with
        subscribers := publication.subscribers.filter (· ≠ place) }
      (relay.stopSubscribing published place).2 := by
  obtain ⟨hstreams, hqueues, hpool⟩ :=
    Relay.stopSubscribing_spec hairs.onAir.found place
  refine ⟨?_, ?_, ?_, ?_⟩
  · exact (congrArg Streams.skipThreshold hstreams).trans hairs.skipThreshold
  · rw [hstreams]
    exact hairs.onAir.afterLeave place
  · rw [hpool]
    exact hairs.isClean
  · intro queue
    rw [Relay.queueAt, hqueues]
    exact hairs.isCounted queue

theorem Airs.afterUpdate (hairs : Airs threshold published programme publication relay)
    (place : Nat) {change : Subscription → Subscription}
    (hchange : ∀ subscription,
      (change subscription).primedThrough = subscription.primedThrough)
    (huncounted : ∀ subscription,
      (change subscription).uncounted = change subscription.uncounted) :
    Airs threshold published programme publication
      (relay.updateSubscription place change) where
  skipThreshold := hairs.skipThreshold
  onAir := by
    rw [Relay.streams_updateSubscription relay place huncounted]
    exact hairs.onAir.afterUpdate place hchange
  isClean := hairs.isClean
  isCounted := hairs.isCounted

theorem Airs.afterQueues {after : Relay}
    (hairs : Airs threshold published programme publication relay)
    (hstreams : after.streams = relay.streams) (hclean : after.pool.IsClean)
    (hcounted : ∀ queue, (after.queueAt queue).IsCounted) :
    Airs threshold published programme publication after where
  skipThreshold :=
    (congrArg Streams.skipThreshold hstreams).trans hairs.skipThreshold
  onAir := by
    rw [hstreams]
    exact hairs.onAir
  isClean := hclean
  isCounted := hcounted

theorem Airs.afterSends {after : Relay}
    (hairs : Airs threshold published programme publication relay)
    (hsends : ∀ queue, ∃ messages, Relay.Sends queue messages relay after) :
    Airs threshold published programme publication after := by
  obtain ⟨_, hsent⟩ := hsends 0
  refine hairs.afterQueues hsent.streams (hsent.isClean hairs.isClean) ?_
  intro queue
  obtain ⟨messages, hqueue⟩ := hsends queue
  rw [hqueue.queueAt]
  exact (hairs.isCounted queue).pushAll messages

theorem Airs.afterReceive (hairs : Airs threshold published programme publication relay)
    (place count : Nat) :
    Airs threshold published programme publication
      (relay.receiveSome place count).2 := by
  obtain ⟨-, hstreams, -, hclean⟩ :=
    relay.receiveSome_spec place count 0
  refine hairs.afterQueues hstreams (hclean hairs.isClean) ?_
  intro queue
  obtain ⟨-, -, hqueue, -⟩ :=
    relay.receiveSome_spec place count queue
  rw [hqueue]
  split
  · exact (hairs.isCounted queue).drop count
  · exact hairs.isCounted queue

theorem Airs.afterOpen (hairs : Airs threshold published programme publication relay) :
    Airs threshold published programme publication relay.openQueue.2 := by
  refine hairs.afterQueues rfl hairs.isClean ?_
  intro queue
  rw [Relay.queueAt_openQueue]
  split
  · exact fun _ => rfl
  · exact hairs.isCounted queue

theorem Airs.afterClose (hairs : Airs threshold published programme publication relay)
    (place : Nat) :
    Airs threshold published programme publication (relay.closeQueue place) := by
  refine hairs.afterQueues rfl hairs.isClean ?_
  intro queue
  rw [Relay.queueAt_closeQueue]
  split
  · intro hopen
    cases hopen
  · exact hairs.isCounted queue

theorem Airs.afterHangUp (hairs : Airs threshold published programme publication relay)
    (place : Nat) :
    Airs threshold published programme publication (relay.hangUpQueue place) := by
  refine hairs.afterQueues (relay.streams_hangUpQueue place)
    (Relay.isClean_hangUpQueue hairs.isClean place) ?_
  intro queue
  rw [Relay.queueAt_hangUpQueue]
  split
  · intro hopen
    cases hopen
  · exact hairs.isCounted queue

variable {airing : Airing}

theorem Airs.afterStep
    (hairs : Airs threshold published programme publication airing.relay)
    (event : StreamEvent) :
    ∃ changed, Airs threshold published (programme.after event) changed
      (airing.step published event).relay := by
  cases event with
  | opened => exact ⟨publication, hairs.afterOpen⟩
  | joined request =>
      simp only [step]
      cases hjoin : airing.relay.startSubscribing request with
      | error error => exact ⟨publication, hairs⟩
      | ok result =>
          obtain ⟨⟨found, subscription⟩, joined⟩ := result
          exact ⟨_, hairs.afterSubscribing hjoin⟩
  | left subscription => exact ⟨_, hairs.afterLeave subscription⟩
  | frame kind timestamp payload =>
      exact hairs.afterFrame kind timestamp payload
  | described metadata => exact hairs.afterDescription metadata
  | paused subscription isPaused =>
      exact
        ⟨publication,
          hairs.afterUpdate subscription (fun _ => rfl) (fun _ => rfl)⟩
  | chosen subscription kind isWanted =>
      refine ⟨publication, hairs.afterUpdate subscription ?_ ?_⟩
      · intro subscription
        cases kind <;> rfl
      · intro subscription
        cases kind <;> rfl
  | drained queue count => exact ⟨publication, hairs.afterReceive queue count⟩
  | closed queue => exact ⟨publication, hairs.afterClose queue⟩
  | hungUp queue => exact ⟨publication, hairs.afterHangUp queue⟩

theorem Airs.afterRun
    (hairs : Airs threshold published programme publication airing.relay)
    (events : List StreamEvent) :
    ∃ changed, Airs threshold published (events.foldl Programme.after programme) changed
      (airing.run published events).relay := by
  induction events generalizing programme publication airing with
  | nil => exact ⟨publication, hairs⟩
  | cons event events ih =>
      obtain ⟨changed, hchanged⟩ := hairs.afterStep event
      exact ih hchanged

theorem airs_startPublishing {configuration : RelayConfiguration}
    {spread : StreamPath → Nat} {maximumPooled maximumCapacity : Nat}
    {observers : List Observer} {publish : PublishRequest}
    (hpublish :
      (Relay.ofConfiguration configuration spread
          { maximumPooled, maximumCapacity } observers).startPublishing publish =
        .ok (published, relay)) :
    ∃ publication,
      Airs configuration.skipThreshold published {} publication relay := by
  unfold Relay.startPublishing Relay.ofConfiguration at hpublish
  simp only [StreamDirectory.get?_empty, Except.ok.injEq, Prod.mk.injEq,
    List.length_nil, List.nil_append] at hpublish
  obtain ⟨rfl, rfl⟩ := hpublish
  let publication : Publication :=
    { path := publish.path, arguments := publish.arguments,
      session := publish.session, publishType := publish.publishType,
      cache := { group := { maximumBytes := configuration.maximumGroupBytes } } }
  refine ⟨publication, rfl, ?_, ?_, ?_⟩
  · refine ⟨rfl, ?_, List.nodup_nil, ?_, ?_, rfl, ?_, ?_⟩
    · intro path other hother
      simp only [Relay.streams, StreamDirectory.get?_put,
        StreamDirectory.get?_empty] at hother
      split at hother
      · exact (Option.some.inj hother).symm
      · cases hother
    · intro place hplace
      cases hplace
    · intro place subscription hsubscription
      cases hsubscription
    · exact ⟨fun _ => rfl, fun hopen => by cases hopen⟩
    · exact ⟨rfl, rfl, rfl, List.suffix_rfl⟩
  · intro allocation hallocation
    cases hallocation
  · intro queue hopen
    cases hopen

end Airing

end LiveRelay
