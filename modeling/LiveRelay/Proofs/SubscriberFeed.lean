import LiveRelay.Proofs.Viewer

/-!
# What a subscriber receives

Which messages a viewer is sent can be told from the events of the stream
alone: what the play starts with, and then each description and each frame that
the viewer wants and keeps up with, in the order of publishing.
-/

namespace LiveRelay

/-! ## One event -/

/-- The queue is open and belongs to the session of a subscription.  Once the
subscription is off the list, no later one uses the queue. -/
structure Airing.IsWatched (airing : Airing)
    (published queue session place : Nat) : Prop where
  isOpen : (airing.relay.queueAt queue).isOpen = true
  own : ∀ (other : Nat) (subscription : Subscription),
    airing.relay.subscriptions[other]? = some subscription →
      subscription.queue = queue → subscription.session = session
  last : place ∉ airing.relay.streams.subscribers published →
    ∀ (other : Nat) (subscription : Subscription), place < other →
      airing.relay.subscriptions[other]? = some subscription →
        subscription.queue ≠ queue

theorem Airing.IsWatched.own_streams {airing : Airing}
    {published queue session place : Nat}
    (hwatched : airing.IsWatched published queue session place) {other : Nat}
    {subscription : Subscription}
    (hsubscription :
      airing.relay.streams.subscriptions[other]? = some subscription)
    (hqueue : subscription.queue = queue) : subscription.session = session := by
  rw [Relay.getElem?_streams_subscriptions] at hsubscription
  obtain ⟨counted, hcounted, rfl⟩ := Option.map_eq_some_iff.mp hsubscription
  exact hwatched.own other counted hcounted hqueue

theorem Airing.IsWatched.last_streams {airing : Airing}
    {published queue session place : Nat}
    (hwatched : airing.IsWatched published queue session place)
    (hleft : place ∉ airing.relay.streams.subscribers published) {other : Nat}
    {subscription : Subscription} (hlater : place < other)
    (hsubscription :
      airing.relay.streams.subscriptions[other]? = some subscription) :
    subscription.queue ≠ queue := by
  rw [Relay.getElem?_streams_subscriptions] at hsubscription
  obtain ⟨counted, hcounted, rfl⟩ := Option.map_eq_some_iff.mp hsubscription
  exact hwatched.last hleft other counted hlater hcounted

namespace Viewer

/-- The viewer is sent what the event gets it. -/
structure Continues (viewer : Viewer) (published : Nat) (event : StreamEvent)
    (before after : Airing) : Prop where
  follows : (viewer.after event).Follows published after.relay
  sentTo :
    after.sentTo viewer.queue = before.sentTo viewer.queue ++ viewer.gets event

variable {viewer : Viewer} {published : Nat} {programme : Programme}
  {publication : Publication} {airing after : Airing} {event : StreamEvent}

theorem Follows.continues (hfollows : viewer.Follows published airing.relay)
    {messages : List OutboundMessage}
    (hsubscription : after.relay.streams.subscriptions[viewer.place]? =
      airing.relay.streams.subscriptions[viewer.place]?)
    (hlisted : viewer.place ∈ after.relay.streams.subscribers published ↔
      viewer.place ∈ airing.relay.streams.subscribers published)
    (hsole : after.relay.streams.IsSole viewer.queue viewer.place
      (after.relay.streams.subscribers published))
    (hreceived : after.received = airing.received)
    (hqueue : after.relay.queueAt viewer.queue =
      (airing.relay.queueAt viewer.queue).pushAll messages)
    (hmessages : messages.map OutboundMessage.toWire = viewer.gets event)
    (hafter : viewer.after event =
      { viewer with waiting := viewer.waiting + (viewer.gets event).length }) :
    viewer.Continues published event airing after where
  follows := by
    rw [hafter, ← hmessages, List.length_map]
    exact hfollows.afterSends hsubscription hlisted hsole hqueue
  sentTo := by
    rw [← hmessages]
    exact Airing.sentTo_of_pushAll hfollows.isOpen hreceived hqueue

theorem Follows.continues_of_turns
    (hfollows : viewer.Follows published airing.relay)
    (hfound :
      airing.relay.streams.publications[published]? = some publication)
    {changed : Publication} {messages : List OutboundMessage}
    (hturn : Relay.Turns published viewer.queue changed messages airing.relay
      after.relay)
    (hsubscribers : changed.subscribers = publication.subscribers)
    (hreceived : after.received = airing.received)
    (hmessages : messages.map OutboundMessage.toWire = viewer.gets event)
    (hafter : viewer.after event =
      { viewer with waiting := viewer.waiting + (viewer.gets event).length }) :
    viewer.Continues published event airing after := by
  have hsubscriptions : after.relay.streams.subscriptions =
      airing.relay.streams.subscriptions := by
    rw [hturn.streams]
    rfl
  have hlist : after.relay.streams.subscribers published =
      airing.relay.streams.subscribers published := by
    rw [hturn.streams, Streams.subscribers_putPublication hfound, hsubscribers,
      Streams.subscribers_eq hfound]
  refine
    hfollows.continues ?_ ?_ ?_ hreceived hturn.queueAt hmessages hafter
  · rw [hsubscriptions]
  · rw [hlist]
  · unfold Streams.IsSole
    rw [hlist, hsubscriptions]
    exact hfollows.sole

theorem Follows.continues_silently
    (hfollows : viewer.Follows published airing.relay)
    (hstreams : after.relay.streams = airing.relay.streams)
    (hqueue : after.relay.queueAt viewer.queue =
      airing.relay.queueAt viewer.queue)
    (hreceived : after.received = airing.received)
    (hnothing : viewer.gets event = [])
    (hafter : viewer.after event =
      { viewer with waiting := viewer.waiting + (viewer.gets event).length }) :
    viewer.Continues published event airing after := by
  have hsends : after.relay.queueAt viewer.queue =
      (airing.relay.queueAt viewer.queue).pushAll [] := hqueue
  refine hfollows.continues ?_ ?_ ?_ hreceived hsends hnothing.symm hafter
  · rw [hstreams]
  · rw [hstreams]
  · rw [hstreams]
    exact hfollows.sole

theorem Follows.continues_frame
    (hfollows : viewer.Follows published airing.relay)
    (hairs : Airing.Airs viewer.skipThreshold published programme publication
      airing.relay)
    (kind : MediaKind) (timestamp : UInt32) (payload : Bytes) :
    viewer.Continues published (.frame kind timestamp payload) airing
      (airing.step published (.frame kind timestamp payload)) := by
  obtain ⟨numbered, entered, hnext, henters, hturns⟩ :=
    Relay.distribute_spec hairs.onAir.found hairs.isClean kind timestamp payload
  have hfound := hairs.onAir.found
  have hsubscribers := Streams.subscribers_eq hfound
  have hsole : entered.streams.IsSole viewer.queue viewer.place
      publication.subscribers := by
    rw [henters.streams, ← hsubscribers]
    exact hfollows.sole
  have hbroadcast :=
    Relay.sends_broadcast (henters.found hfound) hairs.onAir.nodup hsole numbered
  rw [henters.messagesTo] at hbroadcast
  have hturn := hturns viewer.queue _ hbroadcast
  refine hfollows.continues_of_turns hfound hturn rfl rfl ?_ rfl
  have hmessages := hfollows.map_messagesTo hairs numbered
  rw [hsubscribers] at hmessages
  have hlater : viewer.primedThrough < numbered.sequence := by
    obtain ⟨subscription, hsubscription, hmatches⟩ := hfollows.subscribed
    have hprimed := hairs.onAir.primed _ _ hsubscription
    rw [hmatches.primedThrough] at hprimed
    rw [hnext.sequence]
    omega
  rw [hmessages]
  simp [gets, hlater, hnext.frame, MediaFrame.kind_classify, hnext.timestamp,
    hnext.content]

theorem Follows.continues_described
    (hfollows : viewer.Follows published airing.relay)
    (hairs : Airing.Airs viewer.skipThreshold published programme publication
      airing.relay)
    (metadata : Properties) :
    viewer.Continues published (.described metadata) airing
      (airing.step published (.described metadata)) := by
  have hfound := hairs.onAir.found
  have hsubscribers := Streams.subscribers_eq hfound
  have hsole : airing.relay.streams.IsSole viewer.queue viewer.place
      publication.subscribers := by
    rw [← hsubscribers]
    exact hfollows.sole
  have hturn :=
    Relay.distributeMetadata_spec hfound hairs.isClean
      (Relay.sends_describeAll hairs.onAir.nodup hsole metadata)
  refine hfollows.continues_of_turns hfound hturn rfl rfl ?_ rfl
  rw [← hsubscribers]
  exact hfollows.map_metadataTo metadata

theorem Follows.continues_joined
    (hfollows : viewer.Follows published airing.relay)
    (hairs : Airing.Airs viewer.skipThreshold published programme publication
      airing.relay)
    (request : SubscribeRequest)
    (hwatched : (airing.step published (.joined request)).IsWatched published
      viewer.queue viewer.session viewer.place) :
    viewer.Continues published (.joined request) airing
      (airing.step published (.joined request)) := by
  cases hjoin : airing.relay.startSubscribing request with
  | error error =>
      have hstep : airing.step published (.joined request) = airing := by
        simp [Airing.step, hjoin]
      rw [hstep]
      exact hfollows.continues_silently rfl rfl rfl rfl rfl
  | ok result =>
      obtain ⟨⟨found, place⟩, joined⟩ := result
      obtain ⟨-, hsessions, -, hjoined⟩ := hairs.exists_join hjoin
      have hfound := hairs.onAir.found
      obtain ⟨hstreams, hqueue, -⟩ :=
        Relay.join_spec hfound publication.cache request viewer.queue
      have hstep : airing.step published (.joined request) =
          { airing with relay := joined } := by
        simp [Airing.step, hjoin]
      rw [hstep] at hwatched ⊢
      rw [← hjoined] at hstreams hqueue
      obtain ⟨subscription, hsubscription, hmatches⟩ := hfollows.subscribed
      have hplace : viewer.place < airing.relay.streams.subscriptions.length :=
        (List.getElem?_eq_some_iff.mp hsubscription).1
      have hsubscriptions : joined.streams.subscriptions =
          airing.relay.streams.subscriptions ++
            [request.subscription publication.cache] :=
        congrArg Streams.subscriptions hstreams
      have hsubscribers : joined.streams.subscribers published =
          airing.relay.streams.subscribers published ++
            [airing.relay.streams.subscriptions.length] := by
        rw [hstreams, Streams.subscribers_eq hfound]
        exact Streams.subscribers_putPublication hfound _
      have hnew : joined.streams.subscriptions[
          airing.relay.streams.subscriptions.length]? =
            some (request.subscription publication.cache) := by
        rw [hsubscriptions, List.getElem?_concat_length]
      have hlisted : viewer.place ∈ joined.streams.subscribers published ↔
          viewer.place ∈ airing.relay.streams.subscribers published := by
        rw [hsubscribers, List.mem_append, List.mem_singleton]
        have hold : viewer.place ≠ airing.relay.streams.subscriptions.length :=
          Nat.ne_of_lt hplace
        simp only [hold, or_false]
      -- A session that is on the list is refused, whatever its queue is.
      have hother : request.queue ≠ viewer.queue := by
        intro hsame
        by_cases hmember :
            viewer.place ∈ airing.relay.streams.subscribers published
        · have hsession : request.session = viewer.session :=
            hwatched.own_streams hnew hsame
          rw [Streams.subscribers_eq hfound] at hmember
          apply hsessions viewer.place hmember subscription hsubscription
          rw [hmatches.session, hsession]
        · exact
            hwatched.last_streams (fun hafter => hmember (hlisted.mp hafter))
              hplace hnew hsame
      rw [if_neg hother] at hqueue
      refine hfollows.continues ?_ ?_ ?_ rfl hqueue rfl rfl
      · show joined.streams.subscriptions[viewer.place]? = _
        rw [hsubscriptions, List.getElem?_append_left hplace]
      · exact hlisted
      · show joined.streams.IsSole _ _ (joined.streams.subscribers published)
        intro other hmember subscription hothers hqueueOther
        rw [hsubscribers, List.mem_append, List.mem_singleton] at hmember
        rcases hmember with hold | hlast
        · have hlength : other < airing.relay.streams.subscriptions.length := by
            rw [Streams.subscribers_eq hfound] at hold
            exact hairs.onAir.listed other hold
          rw [hsubscriptions, List.getElem?_append_left hlength] at hothers
          exact hfollows.sole other hold subscription hothers hqueueOther
        · rw [hlast, hnew] at hothers
          rw [← Option.some.inj hothers] at hqueueOther
          exact absurd hqueueOther hother

theorem Follows.continues_left
    (hfollows : viewer.Follows published airing.relay)
    (hairs : Airing.Airs viewer.skipThreshold published programme publication
      airing.relay)
    (place : Nat) :
    viewer.Continues published (.left place) airing
      (airing.step published (.left place)) := by
  have hfound := hairs.onAir.found
  obtain ⟨hstreams, hqueues, -⟩ := Relay.stopSubscribing_spec hfound place
  let left := (airing.relay.stopSubscribing published place).2
  have hqueue : left.queueAt viewer.queue =
      (airing.relay.queueAt viewer.queue).pushAll [] := by
    show (left.queues[viewer.queue]?).getD _ = _
    rw [hqueues]
    rfl
  have hsubscribers : left.streams.subscribers published =
      (airing.relay.streams.subscribers published).filter (· ≠ place) := by
    rw [hstreams, Streams.subscribers_eq hfound]
    exact Streams.subscribers_putPublication hfound _
  have hsubscriptions :
      left.streams.subscriptions = airing.relay.streams.subscriptions := by
    rw [hstreams]
    rfl
  have hreceived :
      (airing.step published (.left place)).received = airing.received := rfl
  have hsent : (airing.step published (.left place)).sentTo viewer.queue =
      airing.sentTo viewer.queue ++ [] :=
    Airing.sentTo_of_pushAll hfollows.isOpen hreceived hqueue
  refine ⟨⟨?_, ?_, ?_, ?_, ?_⟩, hsent⟩
  · obtain ⟨subscription, hsubscription, hmatches⟩ := hfollows.subscribed
    refine ⟨subscription, ?_, { hmatches with }⟩
    show left.streams.subscriptions[viewer.place]? = some subscription
    rw [hsubscriptions]
    exact hsubscription
  · show viewer.place ∈ left.streams.subscribers published ↔
      (viewer.isListed && decide (place ≠ viewer.place)) = true
    rw [hsubscribers, List.mem_filter, hfollows.listed, Bool.and_eq_true]
    simp only [ne_eq, eq_comm]
  · show left.streams.IsSole viewer.queue viewer.place
      (left.streams.subscribers published)
    rw [hsubscribers]
    intro other hmember subscription hothers
    rw [hsubscriptions] at hothers
    exact hfollows.sole other (List.mem_filter.mp hmember).1 subscription hothers
  · show (left.queueAt viewer.queue).isOpen = true
    rw [hqueue]
    exact hfollows.isOpen
  · show (left.queueAt viewer.queue).messages.length = viewer.waiting
    rw [hqueue]
    exact hfollows.waiting

/-- The terms of a subscription are changed, perhaps of the viewer's own. -/
theorem Follows.continues_updated
    (hfollows : viewer.Follows published airing.relay) {place : Nat}
    {change : Subscription → Subscription}
    {isPaused receivesAudio receivesVideo : Bool}
    (huncounted : ∀ subscription,
      (change subscription).uncounted = change subscription.uncounted)
    (hqueue : ∀ subscription, (change subscription).queue = subscription.queue)
    (hmatches : ∀ subscription, viewer.Matches subscription →
      ({ viewer with
          isPaused := isPaused
          receivesAudio := receivesAudio
          receivesVideo := receivesVideo } : Viewer).Matches
        (change subscription))
    (hafter : viewer.after event =
      if place = viewer.place then
        { viewer with
          isPaused := isPaused
          receivesAudio := receivesAudio
          receivesVideo := receivesVideo }
      else viewer)
    (hnothing : viewer.gets event = []) :
    viewer.Continues published event airing
      { airing with relay := airing.relay.updateSubscription place change } := by
  let updated := airing.relay.updateSubscription place change
  have hstreams : updated.streams =
      airing.relay.streams.updateSubscription place change :=
    Relay.streams_updateSubscription airing.relay place huncounted
  have hsubscriptions : ∀ other : Nat, updated.streams.subscriptions[other]? =
      airing.relay.streams.subscriptions[other]?.map fun subscription =>
        if place = other then change subscription else subscription := by
    intro other
    rw [hstreams]
    exact List.getElem?_modify _ _ _ _
  have hsubscribers : updated.streams.subscribers published =
      airing.relay.streams.subscribers published := by
    rw [hstreams]
    rfl
  have hsole : updated.streams.IsSole viewer.queue viewer.place
      (updated.streams.subscribers published) := by
    rw [hsubscribers]
    intro other hmember subscription hother hsame
    rw [hsubscriptions] at hother
    obtain ⟨known, hknown, rfl⟩ := Option.map_eq_some_iff.mp hother
    refine hfollows.sole other hmember known hknown ?_
    split at hsame
    · rwa [hqueue] at hsame
    · exact hsame
  obtain ⟨subscription, hsubscription, hviewer⟩ := hfollows.subscribed
  have hsent : ({ airing with relay := updated } : Airing).sentTo viewer.queue =
      airing.sentTo viewer.queue := rfl
  refine ⟨?_, ?_⟩
  · rw [hafter]
    split
    · rename_i hplace
      refine ⟨⟨change subscription, ?_, hmatches subscription hviewer⟩, ?_, hsole,
        hfollows.isOpen, hfollows.waiting⟩
      · show updated.streams.subscriptions[viewer.place]? = _
        rw [hsubscriptions, hsubscription, Option.map_some, if_pos hplace]
      · show viewer.place ∈ updated.streams.subscribers published ↔ _
        rw [hsubscribers]
        exact hfollows.listed
    · rename_i hplace
      refine ⟨⟨subscription, ?_, hviewer⟩, ?_, hsole, hfollows.isOpen,
        hfollows.waiting⟩
      · show updated.streams.subscriptions[viewer.place]? = _
        rw [hsubscriptions, hsubscription, Option.map_some, if_neg hplace]
      · show viewer.place ∈ updated.streams.subscribers published ↔ _
        rw [hsubscribers]
        exact hfollows.listed
  · rw [hsent, hnothing, List.append_nil]

theorem Follows.continues_drained
    (hfollows : viewer.Follows published airing.relay) (queue count : Nat) :
    viewer.Continues published (.drained queue count) airing
      (airing.step published (.drained queue count)) := by
  obtain ⟨-, hstreams, hqueue, -⟩ :=
    airing.relay.receiveSome_spec queue count viewer.queue
  let drained := (airing.relay.receiveSome queue count).2
  have hfollowed : ∀ waiting,
      (drained.queueAt viewer.queue).isOpen = true →
      (drained.queueAt viewer.queue).messages.length = waiting →
        ({ viewer with waiting := waiting } : Viewer).Follows published
          drained := by
    intro waiting hopen hwaiting
    obtain ⟨subscription, hsubscription, hmatches⟩ := hfollows.subscribed
    refine ⟨⟨subscription, ?_, { hmatches with }⟩, ?_, ?_, hopen, hwaiting⟩
    · rw [hstreams]
      exact hsubscription
    · rw [hstreams]
      exact hfollows.listed
    · rw [hstreams]
      exact hfollows.sole
  refine ⟨?_, ?_⟩
  · show Follows (if queue = viewer.queue then _ else _) published drained
    by_cases hsame : queue = viewer.queue
    · rw [if_pos hsame] at hqueue ⊢
      refine hfollowed _ ?_ ?_
      · rw [hqueue]
        exact hfollows.isOpen
      · rw [hqueue]
        simp [OutboundQueue.drop, hfollows.waiting]
    · rw [if_neg hsame] at hqueue ⊢
      refine hfollowed viewer.waiting ?_ ?_
      · rw [hqueue]
        exact hfollows.isOpen
      · rw [hqueue]
        exact hfollows.waiting
  · rw [Airing.sentTo_drained]
    exact (List.append_nil _).symm

/-- Every event gets the viewer what it should, as long as its queue is open
and nobody else uses it. -/
theorem Follows.continues_step
    (hfollows : viewer.Follows published airing.relay)
    (hairs : Airing.Airs viewer.skipThreshold published programme publication
      airing.relay)
    (event : StreamEvent)
    (hwatched :
      (airing.step published event).IsWatched published viewer.queue
        viewer.session viewer.place) :
    viewer.Continues published event airing (airing.step published event) := by
  cases event with
  | opened =>
      refine hfollows.continues_silently rfl ?_ rfl rfl rfl
      show airing.relay.openQueue.2.queueAt viewer.queue = _
      rw [Relay.queueAt_openQueue, if_neg]
      intro hnew
      have hopen := hfollows.isOpen
      simp [Relay.queueAt, hnew] at hopen
  | joined request => exact hfollows.continues_joined hairs request hwatched
  | left place => exact hfollows.continues_left hairs place
  | frame kind timestamp payload =>
      exact hfollows.continues_frame hairs kind timestamp payload
  | described metadata => exact hfollows.continues_described hairs metadata
  | paused place isPaused =>
      refine hfollows.continues_updated (fun _ => rfl) (fun _ => rfl) ?_ rfl rfl
      intro subscription hmatches
      exact { hmatches with isPaused := rfl }
  | chosen place kind isWanted =>
      cases kind with
      | audio =>
          refine
            hfollows.continues_updated (fun _ => rfl) (fun _ => rfl) ?_ rfl rfl
          intro subscription hmatches
          exact { hmatches with receivesAudio := rfl }
      | video =>
          refine
            hfollows.continues_updated (fun _ => rfl) (fun _ => rfl) ?_ rfl rfl
          intro subscription hmatches
          exact { hmatches with receivesVideo := rfl }
  | drained queue count => exact hfollows.continues_drained queue count
  | closed queue =>
      have hopen := hwatched.isOpen
      have hqueue := Relay.queueAt_closeQueue airing.relay queue viewer.queue
      refine hfollows.continues_silently rfl ?_ rfl rfl rfl
      by_cases hsame : queue = viewer.queue
      · rw [if_pos hsame] at hqueue
        change ((airing.relay.closeQueue queue).queueAt _).isOpen = true at hopen
        rw [hqueue] at hopen
        cases hopen
      · rw [if_neg hsame] at hqueue
        exact hqueue
  | hungUp queue =>
      have hopen := hwatched.isOpen
      have hqueue := Relay.queueAt_hangUpQueue airing.relay queue viewer.queue
      refine
        hfollows.continues_silently (Relay.streams_hangUpQueue _ queue) ?_ rfl rfl
          rfl
      by_cases hsame : queue = viewer.queue
      · rw [if_pos hsame] at hqueue
        change ((airing.relay.hangUpQueue queue).queueAt _).isOpen = true at hopen
        rw [hqueue] at hopen
        cases hopen
      · rw [if_neg hsame] at hqueue
        exact hqueue

/-! ## Whole runs -/

theorem samePlay_after (viewer : Viewer) (event : StreamEvent) :
    viewer.SamePlay (viewer.after event) := by
  cases event with
  | paused place isPaused =>
      simp only [after]
      split <;> exact ⟨rfl, rfl, rfl, rfl, rfl, rfl⟩
  | chosen place kind isWanted =>
      simp only [after]
      split
      · cases kind <;> exact ⟨rfl, rfl, rfl, rfl, rfl, rfl⟩
      · exact ⟨rfl, rfl, rfl, rfl, rfl, rfl⟩
  | drained queue count =>
      simp only [after]
      split <;> exact ⟨rfl, rfl, rfl, rfl, rfl, rfl⟩
  | _ => exact ⟨rfl, rfl, rfl, rfl, rfl, rfl⟩

theorem Follows.sentTo_run (hfollows : viewer.Follows published airing.relay)
    (hairs : Airing.Airs viewer.skipThreshold published programme publication
      airing.relay)
    {events : List StreamEvent}
    (hwatched : ∀ shown, shown <+: events →
      (airing.run published shown).IsWatched published viewer.queue
        viewer.session viewer.place) :
    (airing.run published events).sentTo viewer.queue =
      airing.sentTo viewer.queue ++ viewer.feed events := by
  induction events generalizing viewer programme publication airing with
  | nil => exact (List.append_nil _).symm
  | cons event events ih =>
      have hsame := viewer.samePlay_after event
      have hfirst : [event] <+: event :: events := ⟨events, rfl⟩
      have hstep := hfollows.continues_step hairs event (hwatched _ hfirst)
      obtain ⟨changed, hchanged⟩ := hairs.afterStep event
      rw [← hsame.skipThreshold] at hchanged
      have hrest := ih hstep.follows hchanged (by
        intro shown hshown
        rw [hsame.place, hsame.session, hsame.queue]
        exact hwatched (event :: shown)
          (List.cons_prefix_cons.mpr ⟨rfl, hshown⟩))
      rw [hsame.queue, hstep.sentTo] at hrest
      rw [feed, ← List.append_assoc]
      exact hrest

/-! ## Joining -/

/-- The viewer that a request makes, once it was accepted. -/
def ofRequest (request : SubscribeRequest) (cache : MediaCache)
    (place skipThreshold waiting : Nat) : Viewer where
  place := place
  session := request.session
  queue := request.queue
  streamId := request.streamId
  skipThreshold := skipThreshold
  primedThrough := cache.replayedThrough
  waiting := waiting

theorem matches_ofRequest (request : SubscribeRequest) (cache : MediaCache)
    (place skipThreshold waiting : Nat) :
    (ofRequest request cache place skipThreshold waiting).Matches
      (request.subscription cache) :=
  ⟨rfl, rfl, rfl, rfl, rfl, rfl, rfl, rfl⟩

variable {threshold : Nat} {request : SubscribeRequest} {found place : Nat}
  {joined : Relay}

theorem follows_startSubscribing
    (hairs : Airing.Airs threshold published programme publication airing.relay)
    (hjoin : airing.relay.startSubscribing request =
      .ok ((found, place), joined))
    (hwatched : ({ airing with relay := joined } : Airing).IsWatched published
      request.queue request.session place) :
    let viewer :=
      ofRequest request publication.cache place threshold
        (joined.queueAt request.queue).messages.length
    viewer.Follows published joined ∧
      ({ airing with relay := joined } : Airing).sentTo request.queue =
        airing.sentTo request.queue ++ request.opening publication.cache := by
  intro viewer
  have hopen : (joined.queueAt request.queue).isOpen = true := hwatched.isOpen
  obtain ⟨-, hsessions, hplace, hjoined⟩ := hairs.exists_join hjoin
  have hfound := hairs.onAir.found
  obtain ⟨hstreams, hqueue, -⟩ :=
    Relay.join_spec hfound publication.cache request request.queue
  rw [← hjoined] at hstreams hqueue
  rw [if_pos rfl] at hqueue
  have hsubscriptions : joined.streams.subscriptions =
      airing.relay.streams.subscriptions ++
        [request.subscription publication.cache] :=
    congrArg Streams.subscriptions hstreams
  have hsubscribers : joined.streams.subscribers published =
      publication.subscribers ++ [place] := by
    rw [hstreams, hplace]
    exact Streams.subscribers_putPublication hfound _
  have hother : ∀ other ∈ publication.subscribers, ∀ subscription,
      airing.relay.streams.subscriptions[other]? = some subscription →
        subscription.queue ≠ request.queue := by
    intro other hmember subscription hsubscription hsame
    have hlength := hairs.onAir.listed other hmember
    have hlater : joined.streams.subscriptions[other]? = some subscription := by
      rw [hsubscriptions, List.getElem?_append_left hlength]
      exact hsubscription
    exact
      hsessions other hmember subscription hsubscription
        (hwatched.own_streams hlater hsame)
  constructor
  · refine ⟨?_, ?_, ?_, hopen, rfl⟩
    · refine ⟨request.subscription publication.cache, ?_, matches_ofRequest ..⟩
      show joined.streams.subscriptions[place]? = _
      rw [hsubscriptions, hplace]
      exact List.getElem?_concat_length
    · rw [hsubscribers]
      simp [viewer, ofRequest]
    · rw [hsubscribers]
      intro other hmember subscription hsubscription hsame
      rcases List.mem_append.mp hmember with hold | hnew
      · have hlength := hairs.onAir.listed other hold
        rw [hsubscriptions, List.getElem?_append_left hlength] at hsubscription
        exact absurd hsame (hother other hold subscription hsubscription)
      · exact List.mem_singleton.mp hnew
  · have hopenBefore : (airing.relay.queueAt request.queue).isOpen = true := by
      cases hclosed : (airing.relay.queueAt request.queue).isOpen with
      | true => rfl
      | false =>
          rw [hqueue, OutboundQueue.pushAll_of_not_isOpen hclosed, hclosed] at hopen
          cases hopen
    have hreceived :
        ({ airing with relay := joined } : Airing).received = airing.received :=
      rfl
    rw [Airing.sentTo_of_pushAll hopenBefore hreceived hqueue,
      MediaCache.map_toWire_opening]

end Viewer

namespace Airing

variable {configuration : RelayConfiguration} {spread : StreamPath → Nat}
  {maximumPooled maximumCapacity : Nat} {observers : List Observer}
  {publish : PublishRequest} {published : Nat} {airing : Airing}
  {before rest : List StreamEvent} {request : SubscribeRequest}
  {found place : Nat} {joined : Relay}

theorem run_joined
    (hjoin :
      (airing.run published before).relay.startSubscribing request =
        .ok ((found, place), joined))
    (rest : List StreamEvent) :
    airing.run published (before ++ .joined request :: rest) =
      ({ airing.run published before with relay := joined } : Airing).run published
        rest := by
  have haccepted :
      (airing.run published before).step published (.joined request) =
        { airing.run published before with relay := joined } := by
    simp [step, hjoin]
  rw [run_append, ← haccepted]
  rfl

/-- A subscriber is sent what its play starts with, then the latest codec
configurations and the latest description of what was published before it
joined, with the last few frames, and after that every description, every codec
configuration, and every other frame that it wants and keeps up with. -/
theorem sentTo_run_joined
    (hpublish :
      (Relay.ofConfiguration configuration spread
          { maximumPooled, maximumCapacity } observers).startPublishing publish =
        .ok (published, airing.relay))
    (hjoin :
      (airing.run published before).relay.startSubscribing request =
        .ok ((found, place), joined))
    (hwatched : ∀ shown, shown <+: rest →
      (airing.run published (before ++ .joined request :: shown)).IsWatched
        published request.queue request.session place) :
    let reached := airing.run published before
    let streamId := request.streamId
    let path := request.path.text
    ∃ cache,
      (reached.relay.publications[published]?).map Publication.cache = some cache ∧
        cache.Reflects (.ofEvents before) ∧
        let viewer : Viewer :=
          .ofRequest request cache place configuration.skipThreshold
            (joined.queueAt request.queue).messages.length
        (airing.run published (before ++ .joined request :: rest)).sentTo
            request.queue =
          reached.sentTo request.queue ++
            ([.streamBegin streamId,
                .status streamId "NetStream.Play.Reset"
                  s!"Playing and resetting {path}.",
                .status streamId "NetStream.Play.Start" s!"Started playing {path}.",
                .data streamId "|RtmpSampleAccess" [.boolean true, .boolean true]] ++
              cache.videoHeader.toList.map
                (fun header => .media streamId .video 0 header.content) ++
              cache.audioHeader.toList.map
                (fun header => .media streamId .audio 0 header.content) ++
              cache.metadata.toList.map
                (fun metadata =>
                  .data streamId "onMetaData" [.ecmaArray metadata]) ++
              cache.group.entries.map fun entry =>
                .media streamId entry.kind entry.timestamp entry.buffer.content) ++
            viewer.feed rest := by
  intro reached streamId path
  obtain ⟨publication, hstart⟩ := airs_startPublishing hpublish
  obtain ⟨current, hairs⟩ := hstart.afterRun before
  have hfirst := hwatched [] List.nil_prefix
  rw [run_joined hjoin] at hfirst
  obtain ⟨hfollows, hopening⟩ :=
    Viewer.follows_startSubscribing hairs hjoin hfirst
  refine ⟨current.cache, hairs.cache_eq, hairs.onAir.reflects, ?_⟩
  intro viewer
  let accepted : Airing := { airing.run published before with relay := joined }
  have hwatchedAccepted : ∀ shown, shown <+: rest →
      (accepted.run published shown).IsWatched published viewer.queue
        viewer.session viewer.place := by
    intro shown hshown
    have hshownWatched := hwatched shown hshown
    rw [run_joined hjoin] at hshownWatched
    exact hshownWatched
  have hrun : (accepted.run published rest).sentTo viewer.queue =
      accepted.sentTo viewer.queue ++ viewer.feed rest := by
    have hfollowsAccepted : viewer.Follows published accepted.relay := hfollows
    have hairsAccepted : Airs viewer.skipThreshold published
        (before.foldl Programme.after {}) _ accepted.relay :=
      hairs.afterSubscribing hjoin
    exact hfollowsAccepted.sentTo_run hairsAccepted hwatchedAccepted
  have hsent : (accepted.run published rest).sentTo request.queue =
      reached.sentTo request.queue ++ request.opening current.cache ++
        viewer.feed rest := by
    rw [← hopening]
    exact hrun
  rw [run_joined hjoin]
  exact hsent

/-! ## An example -/

/-- A stream that was just published. -/
def premiere : Airing where
  relay :=
    { Relay.ofConfiguration {} (fun _ => 0) {} [] with
      directory := StreamDirectory.put (.empty (fun _ => 0) 64) ⟨"/live/demo"⟩ 0
      publications :=
        [{ path := ⟨"/live/demo"⟩, arguments := [], session := 1,
           publishType := "live",
           cache := { group := { maximumBytes := 4194304 } } }] }

/-- A description, the codec configurations, a key frame and a frame behind it. -/
def firstScene : List StreamEvent :=
  [.opened, .described [("stereo", .boolean true)], .frame .audio 0 [0xaf, 0],
    .frame .video 0 [0x17, 0], .frame .video 20 [0x17, 1, 5],
    .frame .audio 25 [0xaf, 1, 6]]

def firstRequest : SubscribeRequest :=
  ⟨2, 1, ⟨"/live/demo"⟩, [], 0⟩

/-- The viewer misses a frame during its pause, but not the codec configuration. -/
def secondAct : List StreamEvent :=
  [.described [("stereo", .boolean false)], .paused 0 true,
    .frame .video 40 [0x27, 1, 7], .frame .video 60 [0x17, 0, 1], .paused 0 false,
    .chosen 0 .audio false, .frame .audio 80 [0xaf, 1, 9],
    .frame .video 90 [0x27, 1, 8], .left 0, .frame .video 99 [0x17, 1, 9]]

theorem isWatched_firstRequest {shown : List StreamEvent}
    (hshown : shown <+: secondAct) :
    (premiere.run 0 (firstScene ++ .joined firstRequest :: shown)).IsWatched 0 0 2
      0 := by
  have hall : ∀ count < secondAct.length + 1,
      let later :=
        premiere.run 0 (firstScene ++ .joined firstRequest :: secondAct.take count)
      later.relay.subscriptions.map Subscription.session = [2] ∧
        (later.relay.queueAt 0).isOpen = true := by
    decide +kernel
  have htimes := hall shown.length (Nat.lt_succ_of_le hshown.length_le)
  rw [← List.prefix_iff_eq_take.mp hshown] at htimes
  obtain ⟨hsessions, hopen⟩ := htimes
  generalize premiere.run 0 (firstScene ++ .joined firstRequest :: shown) = later
    at hsessions hopen ⊢
  have hfirst : ∀ (other : Nat) (subscription : Subscription),
      later.relay.subscriptions[other]? = some subscription →
        other = 0 ∧ subscription.session = 2 := by
    intro other subscription hsubscription
    have hmap := congrArg (·[other]?) hsessions
    simp only [List.getElem?_map, hsubscription, Option.map_some,
      List.getElem?_singleton] at hmap
    split at hmap
    · rename_i hzero
      exact ⟨hzero, Option.some.inj hmap⟩
    · cases hmap
  refine ⟨hopen, ?_, ?_⟩
  · intro other subscription hsubscription _
    exact (hfirst other subscription hsubscription).2
  · intro _ other subscription hother hsubscription
    have hzero := (hfirst other subscription hsubscription).1
    omega

theorem sentTo_run_firstRequest :
    (premiere.run 0 (firstScene ++ .joined firstRequest :: secondAct)).sentTo 0 =
      [.streamBegin 1,
        .status 1 "NetStream.Play.Reset" "Playing and resetting /live/demo.",
        .status 1 "NetStream.Play.Start" "Started playing /live/demo.",
        .data 1 "|RtmpSampleAccess" [.boolean true, .boolean true],
        .media 1 .video 0 [0x17, 0],
        .media 1 .audio 0 [0xaf, 0],
        .data 1 "onMetaData" [.ecmaArray [("stereo", .boolean true)]],
        .media 1 .video 20 [0x17, 1, 5],
        .media 1 .audio 25 [0xaf, 1, 6],
        .data 1 "onMetaData" [.ecmaArray [("stereo", .boolean false)]],
        .media 1 .video 60 [0x17, 0, 1],
        .media 1 .video 90 [0x27, 1, 8]] := by
  have hpublish :
      (Relay.ofConfiguration {} (fun _ => 0) {} []).startPublishing
          ⟨1, ⟨"/live/demo"⟩, [], "live"⟩ = .ok (0, premiere.relay) := rfl
  have hjoin :
      (premiere.run 0 firstScene).relay.startSubscribing firstRequest =
        .ok ((0, 0),
          (premiere.run 0 (firstScene ++ [.joined firstRequest])).relay) := rfl
  obtain ⟨cache, hcache, -, hsent⟩ :=
    sentTo_run_joined hpublish hjoin
      (fun _ hshown => isWatched_firstRequest hshown)
  cases hcache
  exact hsent

end Airing

end LiveRelay
