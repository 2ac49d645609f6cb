import LiveRelay.Proofs.EndOfStream
import LiveRelay.Proofs.SessionIsolation

/-!
# What sessions do to the relay

A session does to the relay what anybody can do to it: it asks the registry, it
moves frames and messages, and it has things taken down.  So whatever happens to a
server, its relay goes through a run of events, and what holds of all runs of a
relay holds of the relay of a server.

A session shuts its own queue, and that only when it ends.  So a session that runs
can be told something.
-/

namespace LiveRelay

/-- The queues that take no more messages after an event. -/
def RelayEvent.shuts : RelayEvent → List Nat
  | .moved (.closed queue) => [queue]
  | .moved (.hungUp queue) => [queue]
  | _ => []

theorem OutboundQueue.isOpen_pushAll (queue : OutboundQueue) (messages : List OutboundMessage) :
    (queue.pushAll messages).isOpen = queue.isOpen := by
  cases hopen : queue.isOpen with
  | true => rw [pushAll_of_isOpen hopen, hopen]
  | false => rw [pushAll_of_not_isOpen hopen, hopen]

namespace Relay

/-- The relay goes through events that shut no other queues than these. -/
def RunsTo (before : Relay) (shut : Nat → Prop) (after : Relay) : Prop :=
  ∃ events : List RelayEvent, after = before.run events ∧
    ∀ event ∈ events, ∀ queue ∈ event.shuts, shut queue

variable {relay before middle after : Relay} {shut : Nat → Prop}

theorem RunsTo.refl (relay : Relay) : relay.RunsTo shut relay :=
  ⟨[], rfl, fun _ hmember => by cases hmember⟩

theorem RunsTo.trans (hfirst : before.RunsTo shut middle)
    (hsecond : middle.RunsTo shut after) : before.RunsTo shut after := by
  obtain ⟨events, rfl, hevents⟩ := hfirst
  obtain ⟨others, rfl, hothers⟩ := hsecond
  refine ⟨events ++ others, List.foldl_append.symm, fun event hmember => ?_⟩
  rcases List.mem_append.mp hmember with hearly | hlate
  · exact hevents event hearly
  · exact hothers event hlate

theorem RunsTo.mono {more : Nat → Prop} (hruns : before.RunsTo shut after)
    (hmore : ∀ queue, shut queue → more queue) : before.RunsTo more after := by
  obtain ⟨events, hafter, hevents⟩ := hruns
  exact ⟨events, hafter, fun event hmember queue hshut =>
    hmore queue (hevents event hmember queue hshut)⟩

theorem runsTo_handle (relay : Relay) (event : RelayEvent)
    (hevent : ∀ queue ∈ event.shuts, shut queue) : relay.RunsTo shut (relay.handle event) :=
  ⟨[event], rfl, fun other hmember => by rwa [List.mem_singleton.mp hmember]⟩

theorem runsTo_call (relay : Relay) (call : RegistryCall) :
    relay.RunsTo shut (relay.call call).2 :=
  relay.runsTo_handle (.called call) fun _ hmember => by cases hmember

theorem runsTo_move (relay : Relay) (traffic : RelayTraffic)
    (htraffic : (RelayEvent.moved traffic).shuts = []) :
    relay.RunsTo shut (relay.move traffic) :=
  relay.runsTo_handle (.moved traffic) fun queue hmember => by
    rw [htraffic] at hmember
    cases hmember

theorem runsTo_foldl {α : Type} {step : Relay → α → Relay}
    (hstep : ∀ (relay : Relay) (item : α), relay.RunsTo shut (step relay item)) (relay : Relay)
    (items : List α) : relay.RunsTo shut (items.foldl step relay) := by
  induction items generalizing relay with
  | nil => exact .refl relay
  | cons item items ih => exact (hstep relay item).trans (ih _)

/-! ## What stays -/

theorem RunsTo.isOrderly (hruns : before.RunsTo shut after) (horderly : before.IsOrderly) :
    after.IsOrderly := by
  obtain ⟨events, rfl, -⟩ := hruns
  exact horderly.run events

theorem isOpen_handle {queue : Nat} {event : RelayEvent} (hspared : queue ∉ event.shuts)
    (hopen : (relay.queueAt queue).isOpen = true) :
    ((relay.handle event).queueAt queue).isOpen = true := by
  rw [queueAt_handle, OutboundQueue.isOpen_pushAll]
  unfold queueAside
  split
  · split
    · rfl
    · exact hopen
  · rename_i place message
    split
    · exact (OutboundQueue.isOpen_pushAll (relay.queueAt queue) [message]).trans hopen
    · exact hopen
  · split <;> exact hopen
  · rename_i place
    rw [if_neg fun hsame => hspared (List.mem_singleton.mpr hsame.symm)]
    exact hopen
  · rename_i place
    rw [if_neg fun hsame => hspared (List.mem_singleton.mpr hsame.symm)]
    exact hopen
  · exact hopen

theorem RunsTo.isOpen (hruns : before.RunsTo shut after) {queue : Nat} (hspared : ¬ shut queue)
    (hopen : (before.queueAt queue).isOpen = true) : (after.queueAt queue).isOpen = true := by
  obtain ⟨events, rfl, hevents⟩ := hruns
  induction events generalizing before with
  | nil => exact hopen
  | cons event events ih =>
      have hfirst : queue ∉ event.shuts := fun hmember =>
        hspared (hevents event List.mem_cons_self queue hmember)
      exact ih (isOpen_handle hfirst hopen) fun other hmember =>
        hevents other (List.mem_cons_of_mem event hmember)

/-! ## Single operations -/

variable (relay)

theorem runsTo_note (notice : Notice) : relay.RunsTo shut (relay.note notice) :=
  relay.runsTo_move (.noted notice) rfl

theorem runsTo_observe (path : StreamPath) (observation : Observation) :
    relay.RunsTo shut (relay.observe path observation) :=
  runsTo_foldl (fun relay _ => relay.runsTo_note _) relay relay.observers

theorem runsTo_startPublishing {request : PublishRequest} {place : Nat} {started : Relay}
    (hstart : relay.startPublishing request = .ok (place, started)) :
    relay.RunsTo shut started := by
  have hcalled : relay.RunsTo shut (relay.call (.publish request)).2 := relay.runsTo_call _
  simpa only [call, hstart] using hcalled

theorem runsTo_startSubscribing {request : SubscribeRequest} {places : Nat × Nat}
    {started : Relay} (hstart : relay.startSubscribing request = .ok (places, started)) :
    relay.RunsTo shut started := by
  have hcalled : relay.RunsTo shut (relay.call (.subscribe request)).2 := relay.runsTo_call _
  simpa only [call, hstart] using hcalled

/-- All that waits in a queue is received at once, or message by message. -/
theorem receiveSome_all {place : Nat} {queue : OutboundQueue}
    (hqueue : relay.queues[place]? = some queue) :
    (relay.receiveSome place queue.messages.length).2 =
      { relay with
        queues :=
          relay.queues.set place
            { queue with messages := [], pending := queue.pending - queue.messages.length }
        pool := relay.pool.releaseAll queue.buffers } := by
  obtain ⟨messages, isOpen, pending⟩ := queue
  induction messages generalizing relay pending with
  | nil =>
      obtain ⟨hlength, hfound⟩ := List.getElem?_eq_some_iff.mp hqueue
      have hsame : relay.queues.set place ⟨[], isOpen, pending⟩ = relay.queues := by
        rw [← hfound, List.set_getElem_self]
      simp [receiveSome, OutboundQueue.buffers, BufferPool.releaseAll, hsame]
  | cons message messages ih =>
      have hreceive : relay.receive? place =
          some (message,
            { relay with
              queues := relay.queues.set place ⟨messages, isOpen, pending - 1⟩ }) := by
        simp only [receive?, hqueue, Option.bind_some, OutboundQueue.receive?]
      have hlength := (List.getElem?_eq_some_iff.mp hqueue).1
      have hrest := ih
        { relay with
          queues := relay.queues.set place ⟨messages, isOpen, pending - 1⟩
          pool := relay.pool.releaseAll message.payload.buffer?.toList }
        (pending - 1) (List.getElem?_set_self hlength)
      simp only [List.length_cons, receiveSome, hreceive]
      rw [hrest]
      have hbuffers : OutboundQueue.buffers ⟨message :: messages, isOpen, pending⟩ =
          message.payload.buffer?.toList ++
            OutboundQueue.buffers ⟨messages, isOpen, pending - 1⟩ := by
        cases hpayload : message.payload.buffer? <;> simp [OutboundQueue.buffers, hpayload]
      have hpending : pending - 1 - messages.length = pending - (messages.length + 1) := by
        omega
      simp only [List.set_set, hbuffers, BufferPool.releaseAll, List.foldl_append, hpending]

end Relay

namespace Connection

variable {shut : Nat → Prop} (connection : Connection)

/-! ## Answers, notices and questions -/

theorem runsTo_send (message : OutboundMessage) :
    connection.relay.RunsTo shut (connection.send message).relay :=
  connection.relay.runsTo_move (.sent connection.session.queue message) rfl

theorem runsTo_tell (event : SessionEvent) :
    connection.relay.RunsTo shut (connection.tell event).relay :=
  connection.relay.runsTo_note _

theorem runsTo_noteAsked (question : Question) (names : List String) :
    connection.relay.RunsTo shut (connection.noteAsked question names).relay :=
  Relay.runsTo_foldl (fun relay _ => relay.runsTo_note _) connection.relay names

theorem runsTo_ask (policy : PolicyChain) (request : Request) :
    connection.relay.RunsTo shut (connection.ask policy request).2.relay :=
  connection.runsTo_noteAsked _ _

theorem runsTo_connect (configuration : ServerConfiguration) (policy : PolicyChain)
    (transaction : Binary64) (parameters : ConnectParameters) :
    connection.relay.RunsTo shut
      (connection.connect configuration policy transaction parameters).2.relay := by
  unfold connect
  split
  · exact .refl _
  · have hasked : connection.relay.RunsTo shut
        (connection.ask policy (.connect parameters)).2.relay := connection.runsTo_ask policy _
    simp only
    generalize connection.ask policy (.connect parameters) = asked at hasked
    obtain ⟨decision, asked⟩ := asked
    split
    · exact hasked.trans (asked.runsTo_send _)
    · generalize haccepted : Connection.mk _ asked.relay = accepted
      have hsame : accepted.relay = asked.relay := by rw [← haccepted]
      rw [← hsame] at hasked
      refine hasked.trans ?_
      exact (((accepted.runsTo_send _).trans (runsTo_send _ _)).trans (runsTo_send _ _)).trans
        (runsTo_send _ _)

/-! ## Streams -/

theorem runsTo_stopStream (streamId : UInt32) (mode : StreamMode) (notifies : Bool) :
    connection.relay.RunsTo shut (connection.stopStream streamId mode notifies).relay := by
  cases mode with
  | idle => exact .refl _
  | publishing publication =>
      have hstopped : connection.relay.RunsTo shut
          (connection.relay.stopPublishing publication).2 :=
        connection.relay.runsTo_call (.unpublish publication)
      simp only [stopStream]
      generalize connection.relay.stopPublishing publication = stop at hstopped
      obtain ⟨stopped, relay⟩ := stop
      have htold : connection.relay.RunsTo shut
          (if stopped then
            { connection with
              relay := relay.observe (connection.relay.pathOf publication)
                .groupCleared }.tell (.unpublished (connection.relay.pathOf publication))
          else { connection with relay := relay }).relay := by
        split
        · exact (hstopped.trans (relay.runsTo_observe _ _)).trans (runsTo_tell _ _)
        · exact hstopped
      split
      · exact htold.trans (runsTo_send _ _)
      · exact htold
  | playing publication subscription =>
      have hstopped : connection.relay.RunsTo shut
          (connection.relay.stopSubscribing publication subscription).2 :=
        connection.relay.runsTo_call (.unsubscribe publication subscription)
      simp only [stopStream]
      generalize connection.relay.stopSubscribing publication subscription = stop at hstopped
      obtain ⟨stopped, relay⟩ := stop
      have htold : connection.relay.RunsTo shut
          (if stopped then
            { connection with relay := relay }.tell
              (.unsubscribed (connection.relay.pathOf publication))
          else { connection with relay := relay }).relay := by
        split
        · exact hstopped.trans (runsTo_tell _ _)
        · exact hstopped
      split
      · exact htold.trans (runsTo_send _ _)
      · exact htold

theorem runsTo_deleteStream (streamId : UInt32) :
    connection.relay.RunsTo shut (connection.deleteStream streamId).relay := by
  unfold deleteStream
  split
  · exact runsTo_stopStream (connection.updateState _) _ _ _
  · exact .refl _

theorem runsTo_claimStream (streamId : UInt32) :
    connection.relay.RunsTo shut (connection.claimStream streamId).2.relay := by
  simp only [claimStream]
  split
  · exact runsTo_stopStream (connection.updateState _) _ _ _
  · exact .refl _

theorem runsTo_publishAs (streamId : UInt32) (request : PublishRequest) :
    connection.relay.RunsTo shut (connection.publishAs streamId request).relay := by
  unfold publishAs
  split
  · exact connection.runsTo_send _
  · rename_i place relay hstart
    have hstarted : connection.relay.RunsTo shut relay :=
      connection.relay.runsTo_startPublishing hstart
    have hmode : connection.relay.RunsTo shut
        ({ connection with relay := relay }.setMode streamId (.publishing place)).relay := hstarted
    exact ((hmode.trans (runsTo_send _ _)).trans (runsTo_send _ _)).trans (runsTo_tell _ _)

theorem runsTo_publish (policy : PolicyChain) (streamId : UInt32)
    (parameters : PublishParameters) :
    connection.relay.RunsTo shut (connection.publish policy streamId parameters).relay := by
  have hclaimed : connection.relay.RunsTo shut (connection.claimStream streamId).2.relay :=
    connection.runsTo_claimStream streamId
  unfold publish
  generalize connection.claimStream streamId = claimed at hclaimed
  obtain ⟨isFree, claimed⟩ := claimed
  simp only
  split
  · exact hclaimed.trans (claimed.runsTo_send _)
  · split
    · exact hclaimed.trans (claimed.runsTo_send _)
    · have hasked := fun request => hclaimed.trans (claimed.runsTo_ask policy request)
      split
      · exact (hasked _).trans (runsTo_send _ _)
      · exact (hasked _).trans (runsTo_publishAs _ _ _)

theorem runsTo_playAs (streamId : UInt32) (path : StreamPath) (arguments : StreamArguments) :
    connection.relay.RunsTo shut (connection.playAs streamId path arguments).relay := by
  unfold playAs
  simp only
  split
  · exact connection.runsTo_send _
  · rename_i publication subscription relay hstart
    have hstarted : connection.relay.RunsTo shut relay :=
      connection.relay.runsTo_startSubscribing hstart
    have hmode : connection.relay.RunsTo shut
        ({ connection with relay := relay }.setMode streamId
          (.playing publication subscription)).relay := hstarted
    exact hmode.trans (runsTo_tell _ _)

theorem runsTo_play (policy : PolicyChain) (streamId : UInt32) (parameters : PlayParameters) :
    connection.relay.RunsTo shut (connection.play policy streamId parameters).relay := by
  have hclaimed : connection.relay.RunsTo shut (connection.claimStream streamId).2.relay :=
    connection.runsTo_claimStream streamId
  unfold play
  generalize connection.claimStream streamId = claimed at hclaimed
  obtain ⟨isFree, claimed⟩ := claimed
  simp only
  split
  · exact hclaimed.trans (claimed.runsTo_send _)
  · split
    · exact hclaimed.trans (claimed.runsTo_send _)
    · have hasked := fun request => hclaimed.trans (claimed.runsTo_ask policy request)
      split
      · exact (hasked _).trans (runsTo_send _ _)
      · exact (hasked _).trans (runsTo_playAs _ _ _ _)

/-- A viewer pauses, goes on, or chooses what to receive. -/
theorem runsTo_updatePlay (streamId : UInt32) {change : Subscription → Subscription}
    (traffic : Nat → RelayTraffic)
    (hmove : ∀ (relay : Relay) place,
      relay.move (traffic place) = relay.updateSubscription place change)
    (htraffic : ∀ place, (RelayEvent.moved (traffic place)).shuts = []) :
    connection.relay.RunsTo shut (connection.updatePlay streamId change).relay := by
  unfold updatePlay
  split
  · rename_i place _
    have hmoved : connection.relay.RunsTo shut (connection.relay.move (traffic place)) :=
      connection.relay.runsTo_move _ (htraffic place)
    rwa [hmove] at hmoved
  · exact .refl _

theorem runsTo_pause (streamId : UInt32) (paused : Bool) :
    connection.relay.RunsTo shut (connection.pause streamId paused).relay := by
  have hpaused : connection.relay.RunsTo shut
      (connection.updatePlay streamId ({ · with isPaused := paused })).relay :=
    connection.runsTo_updatePlay streamId (.paused · paused) (fun _ _ => rfl) fun _ => rfl
  unfold pause
  split
  · exact .refl _
  · simp only
    split <;> exact hpaused.trans (runsTo_send _ _)

/-! ## Messages -/

theorem runsTo_run (configuration : ServerConfiguration) (policy : PolicyChain)
    (called : CommandCall) :
    connection.relay.RunsTo shut (connection.run configuration policy called).2.relay := by
  unfold run
  simp only
  split
  · exact connection.runsTo_connect configuration policy _ _
  · exact runsTo_send (connection.updateState _) _
  · exact connection.runsTo_publish policy _ _
  · exact connection.runsTo_play policy _ _
  · exact runsTo_stopStream (connection.updateState _) _ _ _
  · exact connection.runsTo_deleteStream _
  · exact connection.runsTo_pause _ _
  · rename_i enabled _
    exact connection.runsTo_updatePlay _ (.chosen · .audio enabled) (fun _ _ => rfl) fun _ => rfl
  · rename_i enabled _
    exact connection.runsTo_updatePlay _ (.chosen · .video enabled) (fun _ _ => rfl) fun _ => rfl
  · exact .refl _
  · exact connection.runsTo_send _
  · exact connection.runsTo_send _

theorem runsTo_receiveCommand (configuration : ServerConfiguration) (policy : PolicyChain)
    (streamId : UInt32) (payload : Bytes) :
    connection.relay.RunsTo shut
      (connection.receiveCommand configuration policy streamId payload).2.relay := by
  unfold receiveCommand
  split
  · exact .refl _
  · exact .refl _
  · unfold call
    split
    · exact .refl _
    · exact connection.runsTo_run configuration policy _

theorem runsTo_receiveData (message : DataMessage) :
    connection.relay.RunsTo shut (connection.receiveData message).relay := by
  unfold receiveData
  split
  · exact .refl _
  · rename_i place _
    split
    · rename_i metadata _
      exact (connection.runsTo_tell _).trans
        (Relay.runsTo_move _ (.described place metadata) rfl)
    · split
      · exact connection.relay.runsTo_move (.undescribed place) rfl
      · exact .refl _

theorem runsTo_receiveMedia (kind : MediaKind) (streamId timestamp : UInt32) (payload : Bytes) :
    connection.relay.RunsTo shut
      (connection.receiveMedia kind streamId timestamp payload).relay := by
  unfold receiveMedia
  split
  · rename_i place _
    exact connection.relay.runsTo_move (.frame place kind timestamp _) rfl
  · exact .refl _

theorem runsTo_receiveControl (reply : Option Message) :
    connection.relay.RunsTo shut (connection.receiveControl reply).relay := by
  cases reply with
  | none => exact .refl _
  | some message => exact connection.runsTo_send (.control message)

theorem runsTo_receiveArrival (configuration : ServerConfiguration) (policy : PolicyChain)
    (arrival : Arrival) :
    connection.relay.RunsTo shut
      (connection.receiveArrival configuration policy arrival).2.relay := by
  unfold receiveArrival
  split
  · exact connection.runsTo_receiveCommand configuration policy _ _
  · exact connection.runsTo_receiveData _
  · exact connection.runsTo_receiveMedia .audio _ _ _
  · exact connection.runsTo_receiveMedia .video _ _ _
  · exact .refl _
  · exact connection.runsTo_receiveControl _

theorem runsTo_receiveAll (configuration : ServerConfiguration) (policy : PolicyChain)
    (arrivals : List Arrival) :
    connection.relay.RunsTo shut
      (receiveAll configuration policy arrivals connection).2.relay := by
  induction arrivals generalizing connection with
  | nil => exact .refl _
  | cons arrival arrivals ih =>
      have hreceived : connection.relay.RunsTo shut
          (connection.countMessage.receiveArrival configuration policy arrival).2.relay :=
        connection.countMessage.runsTo_receiveArrival configuration policy arrival
      unfold receiveAll
      split
      · rename_i error ended houtcome
        rwa [houtcome] at hreceived
      · rename_i received houtcome
        rw [houtcome] at hreceived
        exact hreceived.trans (ih received)

/-! ## Pieces of bytes -/

theorem runsTo_work (configuration : ServerConfiguration) (policy : PolicyChain) :
    connection.relay.RunsTo shut (connection.work configuration policy).2.relay := by
  unfold work
  simp only
  generalize hread : Connection.mk _ connection.relay = read
  have hhandled : connection.relay.RunsTo shut
      (receiveAll configuration policy connection.session.inbound.drain.arrivals read).2.relay := by
    rw [← hread]
    exact runsTo_receiveAll _ configuration policy _
  split
  · rename_i error ended houtcome
    rwa [houtcome] at hhandled
  · rename_i handled houtcome
    rwa [houtcome] at hhandled

theorem runsTo_acknowledge (count : Nat) :
    connection.relay.RunsTo shut (connection.acknowledge count).relay := by
  unfold acknowledge
  simp only
  split
  · exact runsTo_send ⟨_, connection.relay⟩ _
  · exact .refl _

theorem runsTo_beginSession (configuration : ServerConfiguration) (policy : PolicyChain) :
    connection.relay.RunsTo shut (connection.beginSession configuration policy).2.relay := by
  unfold beginSession
  simp only
  generalize hcompleted : connection.updateState SessionState.completeHandshake = completed
  have hsame : completed.relay = connection.relay := by rw [← hcompleted]; rfl
  rw [← hsame]
  exact ((completed.runsTo_tell _).trans (runsTo_send _ _)).trans
    (runsTo_work (updateState _ _) configuration policy)

theorem runsTo_receiveHandshake (configuration : ServerConfiguration) (policy : PolicyChain)
    (keyed : KeyedDigest) (fill : Handshake.Fill) :
    connection.relay.RunsTo shut
      (connection.receiveHandshake configuration policy keyed fill).2.2.relay := by
  unfold receiveHandshake
  simp only
  split
  · exact .refl _
  · split
    · exact runsTo_beginSession ⟨_, connection.relay⟩ configuration policy
    · exact .refl _

theorem runsTo_receive (configuration : ServerConfiguration) (policy : PolicyChain)
    (keyed : KeyedDigest) (fill : Handshake.Fill) (piece : Bytes) :
    connection.relay.RunsTo shut
      (connection.receive configuration policy keyed fill piece).2.2.relay := by
  unfold receive
  simp only
  generalize hwaiting : Connection.mk _ connection.relay = waiting
  have hsame : waiting.relay = connection.relay := by rw [← hwaiting]
  rw [← hsame]
  split
  · have hworked : waiting.relay.RunsTo shut (waiting.work configuration policy).2.relay :=
      waiting.runsTo_work configuration policy
    split
    · rename_i error ended houtcome
      rwa [houtcome] at hworked
    · rename_i worked houtcome
      rw [houtcome] at hworked
      exact hworked.trans (worked.runsTo_acknowledge _)
  · exact waiting.runsTo_receiveHandshake configuration policy keyed fill

/-! ## The end -/

theorem runsTo_flush : connection.relay.RunsTo shut connection.flush.2.relay := by
  cases hqueue : connection.relay.queues[connection.session.queue]? with
  | some queue =>
      have hreceived : connection.relay.RunsTo shut
          (connection.relay.receiveSome connection.session.queue queue.messages.length).2 :=
        connection.relay.runsTo_move (.received _ _) rfl
      rw [Relay.receiveSome_all _ hqueue] at hreceived
      simpa only [flush, hqueue, Option.getD_some] using hreceived
  | none =>
      have hlength := List.getElem?_eq_none_iff.mp hqueue
      have hsame : connection.flush.2.relay = connection.relay := by
        simp only [flush, hqueue, Option.getD_none, List.set_eq_of_length_le hlength]
        rfl
      rw [hsame]
      exact .refl _

theorem runsTo_foldl {α : Type} {step : Connection → α → Connection}
    (hstep : ∀ (connection : Connection) (item : α),
      connection.relay.RunsTo shut (step connection item).relay) (items : List α) :
    connection.relay.RunsTo shut (items.foldl step connection).relay := by
  induction items generalizing connection with
  | nil => exact .refl _
  | cons item items ih => exact (hstep connection item).trans (ih _)

theorem runsTo_giveUpStreams (order : TeardownOrder) :
    connection.relay.RunsTo shut (connection.giveUpStreams order).relay := by
  have hstopped (drained : Connection) (stream : UInt32 × StreamMode) :
      drained.relay.RunsTo shut (drained.stopStream stream.1 stream.2 false).relay :=
    drained.runsTo_stopStream _ _ _
  exact runsTo_foldl (connection.updateState _) hstopped _

/-- A session that ends shuts its own queue. -/
theorem runsTo_finish (policy : PolicyChain) (order : TeardownOrder) :
    connection.relay.RunsTo (· = connection.session.queue)
      (connection.finish policy order).2.relay := by
  have hclosed : connection.relay.RunsTo (· = connection.session.queue)
      (connection.relay.closeQueue connection.session.queue) :=
    connection.relay.runsTo_handle (.moved (.closed _)) fun _ => List.mem_singleton.mp
  have hflushed := hclosed.trans
    (runsTo_flush ⟨connection.session, connection.relay.closeQueue connection.session.queue⟩)
  have hhungUp := hflushed.trans
    (Relay.runsTo_handle _ (.moved (.hungUp connection.session.queue)) fun _ =>
      List.mem_singleton.mp)
  exact ((hhungUp.trans (runsTo_giveUpStreams ⟨_, _⟩ order)).trans (runsTo_tell _ _)).trans
    (runsTo_noteAsked _ _ _)

end Connection

/-! ## A whole server -/

namespace Server

variable {server : Server} {number : Nat}

theorem get?_endSessionIn (server : Server) (order : TeardownOrder) (number : Nat) :
    (server.endSessionIn order number).2.sessions.get? number = none :=
  Table.get?_eq_none_iff.mpr (notMem_keys_endSessionIn order number)

theorem runsTo_endSessionIn {session : Session}
    (hrunning : server.sessions.get? number = some session) (order : TeardownOrder) :
    server.relay.RunsTo (· = session.queue) (server.endSessionIn order number).2.relay := by
  have hfound : server.connection? number = some ⟨session, server.relay⟩ := by
    simp [connection?, hrunning]
  simp only [endSessionIn, hfound]
  exact Connection.runsTo_finish ⟨session, server.relay⟩ server.policy order

/-- A session that has done something may end with it, and then it shuts its queue. -/
theorem ActsAs.runsTo_ended {before after : Server} {session : Session} {connection : Connection}
    (hacts : ActsAs number before after session connection)
    (hown : after.sessions.get? number = some connection.session)
    (hruns : before.relay.RunsTo (fun _ => False) connection.relay) (order : TeardownOrder) :
    before.relay.RunsTo
      (fun queue => queue = session.queue ∧
        (after.endSessionIn order number).2.sessions.get? number = none)
      (after.endSessionIn order number).2.relay := by
  have hended := runsTo_endSessionIn hown order
  rw [hacts.relay_eq] at hended
  refine (hruns.mono fun _ => False.elim).trans (hended.mono fun queue hsame => ?_)
  exact ⟨hsame.trans hacts.keepsToOwn.queue_eq, after.get?_endSessionIn order number⟩

/-- A session that acts shuts a queue only if it is gone, and then it is its own. -/
theorem runsTo_act (hapart : server.Apart) {session : Session}
    (hrunning : server.sessions.get? number = some session) (act : SessionAct) :
    server.relay.RunsTo
      (fun queue => queue = session.queue ∧
        (server.act number act).sessions.get? number = none)
      (server.act number act).relay := by
  have hown := hapart.holdsOwn number session hrunning
  have hfound : server.connection? number = some ⟨session, server.relay⟩ := by
    simp [connection?, hrunning]
  cases act with
  | message inbound arrival order =>
      have hkeeps := Connection.keepsToOwn_reading hown inbound server.configuration
        server.policy arrival
      simp only [act, receiveArrival, reading?, hfound, Option.map_some]
      split
      · exact (actsAs_keep hapart hrunning hkeeps).runsTo_ended
          (own_keep hapart hrunning hkeeps)
          (Connection.runsTo_receiveArrival (Connection.countMessage _) _ _ _) order
      · exact Connection.runsTo_receiveArrival (Connection.countMessage _) _ _ _
  | bytes keyed fill piece =>
      have hkeeps := Connection.keepsToOwn_receive hown server.configuration
        server.policy keyed fill piece
      simp only [act, receive, hfound]
      split
      · exact (actsAs_keep hapart hrunning hkeeps).runsTo_ended
          (own_keep hapart hrunning hkeeps) (Connection.runsTo_receive _ _ _ _ _ _) .asListed
      · exact Connection.runsTo_receive _ _ _ _ _ _
  | flush =>
      simp only [act, flush, hfound]
      exact Connection.runsTo_flush ⟨session, server.relay⟩
  | leave order =>
      exact (runsTo_endSessionIn hrunning order).mono fun queue hsame =>
        ⟨hsame, server.get?_endSessionIn order number⟩

/-! ## Whatever happens -/

theorem runsTo_letIn (server : Server) (number : Nat) :
    server.relay.openQueue.2.RunsTo (fun _ => False) (server.letIn number).2.relay := by
  unfold letIn
  simp only
  split
  · exact (Connection.runsTo_noteAsked ⟨_, server.relay.openQueue.2⟩ _ _).trans
      (Connection.runsTo_tell _ _)
  · exact Connection.runsTo_noteAsked ⟨_, server.relay.openQueue.2⟩ _ _

theorem runsTo_after (hapart : server.Apart) (occurrence : Occurrence) :
    server.relay.RunsTo (fun _ => True) (server.after occurrence).relay := by
  cases occurrence with
  | policyChanged policy => exact .refl _
  | accepted canSendWithoutDelay =>
      have hopened : server.relay.RunsTo (fun _ => True) server.relay.openQueue.2 :=
        server.relay.runsTo_move .opened rfl
      simp only [Server.after, accept]
      split
      · exact .refl _
      · split
        · exact .refl _
        · exact hopened.trans
            ((runsTo_letIn { server with nextSession := server.nextSession + 1 } _).mono
              fun _ => False.elim)
  | acted number act =>
      show server.relay.RunsTo _ (server.act number act).relay
      cases hrunning : server.sessions.get? number with
      | none =>
          rw [act_of_absent hrunning]
          exact .refl _
      | some session => exact (runsTo_act hapart hrunning act).mono fun _ _ => trivial

/-- The relay of a server goes through a run, whatever happens to the server. -/
theorem exists_run_afterAll (configuration : ServerConfiguration) (policy : PolicyChain)
    (observers : List Observer) (spread : StreamPath → Nat) (occurrences : List Occurrence) :
    ∃ events : List RelayEvent,
      ((ofConfiguration configuration policy observers spread).afterAll occurrences).relay =
        (ofConfiguration configuration policy observers spread).relay.run events := by
  have hruns (server : Server) (hapart : server.Apart) :
      server.relay.RunsTo (fun _ => True) (server.afterAll occurrences).relay := by
    induction occurrences generalizing server with
    | nil => exact .refl _
    | cons occurrence occurrences ih =>
        exact (runsTo_after hapart occurrence).trans
          (ih (server.after occurrence) (hapart.afterOccurrence occurrence))
  obtain ⟨events, hrun, -⟩ :=
    hruns _ (apart_ofConfiguration configuration policy observers spread)
  exact ⟨events, hrun⟩

/-! ## Sessions that can be told something -/

/-- Each running session has an open queue of its own, and lists, paths and plays
agree. -/
structure IsServing (server : Server) : Prop where
  apart : server.Apart
  isOrderly : server.relay.IsOrderly
  isOpen : ∀ number session, server.sessions.get? number = some session →
    (server.relay.queueAt session.queue).isOpen = true

theorem IsServing.afterAct (hserving : server.IsServing) (number : Nat) (act : SessionAct) :
    (server.act number act).IsServing := by
  cases hrunning : server.sessions.get? number with
  | none => rwa [act_of_absent hrunning]
  | some session =>
      have hruns := runsTo_act hserving.apart hrunning act
      obtain ⟨connection, hacts⟩ := exists_actsAs hserving.apart hrunning act
      refine ⟨hacts.apart hserving.apart, hruns.isOrderly hserving.isOrderly,
        fun other running hother => ?_⟩
      obtain ⟨earlier, hearlier, hqueue, -⟩ := hacts.exists_before hother
      rw [hqueue]
      refine hruns.isOpen ?_ (hserving.isOpen other earlier hearlier)
      rintro ⟨hsame, hgone⟩
      obtain rfl : other = number :=
        hserving.apart.queue_ne other earlier number session hearlier hrunning hsame
      rw [hgone] at hother
      cases hother

theorem queue_of_letIn {session : Session} {fresh : Nat}
    (hrunning : (server.letIn fresh).2.sessions.get? number = some session) :
    server.sessions.get? number = some session ∨
      session.queue = server.relay.queues.length := by
  simp only [letIn, Relay.openQueue] at hrunning
  split at hrunning
  · simp only [keep, Connection.tell, Table.get?_put] at hrunning
    split at hrunning
    · obtain rfl := Option.some.inj hrunning
      exact .inr rfl
    · exact .inl hrunning
  · exact .inl hrunning

theorem IsServing.afterLetIn (hserving : server.IsServing) (fresh : Nat) :
    (server.letIn fresh).2.IsServing := by
  have hruns := server.runsTo_letIn fresh
  have hopened : server.relay.openQueue.2.IsOrderly :=
    hserving.isOrderly.handle (.moved .opened)
  refine ⟨hserving.apart.afterLetIn fresh, hruns.isOrderly hopened,
    fun number session hrunning => hruns.isOpen id ?_⟩
  rw [Relay.queueAt_openQueue]
  split
  · rfl
  · rename_i hold
    rcases queue_of_letIn hrunning with hearlier | hfresh
    · exact hserving.isOpen number session hearlier
    · exact absurd hfresh hold

theorem IsServing.afterOccurrence (hserving : server.IsServing) (occurrence : Occurrence) :
    (server.after occurrence).IsServing := by
  cases occurrence with
  | policyChanged policy =>
      exact { hserving with apart := hserving.apart.afterOccurrence (.policyChanged policy) }
  | accepted canSendWithoutDelay =>
      have hnumbered : IsServing { server with nextSession := server.nextSession + 1 } :=
        { hserving with apart := { hserving.apart with } }
      simp only [Server.after, accept]
      split
      · exact hserving
      · split
        · exact hnumbered
        · exact hnumbered.afterLetIn _
  | acted session act => exact hserving.afterAct session act

theorem IsServing.afterAll (hserving : server.IsServing) (occurrences : List Occurrence) :
    (server.afterAll occurrences).IsServing := by
  induction occurrences generalizing server with
  | nil => exact hserving
  | cons occurrence occurrences ih => exact ih (hserving.afterOccurrence occurrence)

theorem IsServing.exists_queue (hserving : server.IsServing) {session : Session}
    (hrunning : server.sessions.get? number = some session) :
    ∃ queue, server.relay.queues[session.queue]? = some queue ∧ queue.isOpen = true := by
  have hqueue := List.getElem?_eq_getElem (hserving.apart.queue_lt number session hrunning)
  have hopen := hserving.isOpen number session hrunning
  rw [Relay.queueAt, hqueue, Option.getD_some] at hopen
  exact ⟨_, hqueue, hopen⟩

theorem isServing_ofConfiguration (configuration : ServerConfiguration) (policy : PolicyChain)
    (observers : List Observer) (spread : StreamPath → Nat) :
    (ofConfiguration configuration policy observers spread).IsServing where
  apart := apart_ofConfiguration configuration policy observers spread
  isOrderly := Relay.isOrderly_ofConfiguration _ _ _ _
  isOpen _ _ hrunning := by cases hrunning

end Server

end LiveRelay
