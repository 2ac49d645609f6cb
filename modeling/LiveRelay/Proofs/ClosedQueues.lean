import LiveRelay.Proofs.Letters

/-!
# Closed queues

The queue of a session that is gone takes no more messages, and who offers it a
frame is told so.  But an ordinary frame is not offered at all while too many
messages are pending, and those that were pending when the receiver went away
stay so.  Then the session is taken for one that does not keep up: each ordinary
frame is counted as skipped, by the subscription and by its stream.

With no more pending messages than the threshold this does not happen, however
long the subscription stays on the list.
-/

namespace LiveRelay

namespace Relay

/-! ## What becomes of frames -/

/-- What becomes of a frame for one subscription. -/
def outcome (numbered : NumberedFrame) (relay : Relay) (place : Nat) :
    List (Nat × Delivery) :=
  [(place, (relay.deliver numbered place).1)]

/-- What becomes of a frame for each subscription of the stream, in turn. -/
def deliveries (relay : Relay) : RelayEvent → List (Nat × Delivery)
  | .moved (.frame place kind timestamp payload) =>
      match relay.enter place (MediaFrame.classify kind payload) timestamp payload with
      | some (_, numbered, entered) =>
          entered.collect (fun relay subscriber => (relay.deliver numbered subscriber).2)
            (outcome numbered)
            ((entered.publications[place]?.map Publication.subscribers).getD [])
      | none => []
  | _ => []

def deliveriesOfRun (relay : Relay) : List RelayEvent → List (Nat × Delivery)
  | [] => []
  | event :: events => relay.deliveries event ++ (relay.handle event).deliveriesOfRun events

/-- The queue of a subscription, and how many frames were left out for it. -/
def account? (relay : Relay) (place : Nat) : Option (Nat × UInt64) :=
  relay.subscriptions[place]?.map fun subscription => (subscription.queue, subscription.dropped)

/-- Subscriptions keep their queues, and count how often they are skipped. -/
structure Counts (deliveries : List (Nat × Delivery)) (before after : Relay) : Prop where
  skipThreshold : after.skipThreshold = before.skipThreshold
  length_queues : before.queues.length ≤ after.queues.length
  account : ∀ place queue dropped, before.account? place = some (queue, dropped) →
    after.account? place =
      some (queue, dropped + UInt64.ofNat (deliveries.count (place, .skipped)))

variable {relay before middle after : Relay} {first second : List (Nat × Delivery)}

theorem Counts.trans (hfirst : Counts first before middle)
    (hsecond : Counts second middle after) : Counts (first ++ second) before after where
  skipThreshold := hsecond.skipThreshold.trans hfirst.skipThreshold
  length_queues := Nat.le_trans hfirst.length_queues hsecond.length_queues
  account place queue dropped haccount := by
    have hafter := hsecond.account _ _ _ (hfirst.account place queue dropped haccount)
    rw [hafter, List.count_append, UInt64.ofNat_add, UInt64.add_assoc]

theorem Counts.silent_trans (hfirst : Counts [] before middle)
    (hsecond : Counts second middle after) : Counts second before after :=
  hfirst.trans hsecond

theorem Counts.trans_silent (hfirst : Counts first before middle)
    (hsecond : Counts [] middle after) : Counts first before after := by
  have hboth := hfirst.trans hsecond
  rwa [List.append_nil] at hboth

/-- Neither the terms nor the number of subscriptions have changed. -/
theorem counts_of_eq (hthreshold : after.skipThreshold = before.skipThreshold)
    (hsubscriptions : after.subscriptions = before.subscriptions)
    (hlength : before.queues.length ≤ after.queues.length) : Counts [] before after where
  skipThreshold := hthreshold
  length_queues := hlength
  account place queue dropped haccount := by
    simp only [account?, hsubscriptions] at haccount ⊢
    simp [haccount]

theorem Counts.refl (relay : Relay) : Counts [] relay relay :=
  counts_of_eq rfl rfl (Nat.le_refl _)

theorem Counts.unskipped (hcounts : Counts [] before after) {delivery : Delivery}
    (hdelivery : delivery ≠ .skipped) (place : Nat) :
    Counts [(place, delivery)] before after where
  skipThreshold := hcounts.skipThreshold
  length_queues := hcounts.length_queues
  account other queue dropped haccount := by
    rw [hcounts.account other queue dropped haccount]
    simp [hdelivery]

theorem counts_foldl {α : Type} {step : Relay → α → Relay}
    (hstep : ∀ relay item, Counts [] relay (step relay item)) (relay : Relay)
    (items : List α) : Counts [] relay (items.foldl step relay) := by
  induction items generalizing relay with
  | nil => exact .refl relay
  | cons item items ih => exact (hstep relay item).silent_trans (ih _)

theorem counts_collect {step : Relay → Nat → Relay}
    {yields : Relay → Nat → List (Nat × Delivery)}
    (hstep : ∀ relay place, Counts (yields relay place) relay (step relay place))
    (relay : Relay) (places : List Nat) :
    Counts (relay.collect step yields places) relay (places.foldl step relay) := by
  induction places generalizing relay with
  | nil => exact .refl relay
  | cons place places ih => exact (hstep relay place).trans (ih _)

/-! ## Counting through one operation -/

theorem counts_send (relay : Relay) (place : Nat) (message : OutboundMessage) :
    Counts [] relay (relay.send place message).2 :=
  counts_of_eq rfl rfl (Nat.le_of_eq (List.length_set ..).symm)

theorem counts_sendAll (relay : Relay) (place : Nat) (messages : List OutboundMessage) :
    Counts [] relay (relay.sendAll place messages) :=
  counts_foldl (fun relay message => counts_send relay place message) relay messages

theorem counts_updateSubscription (relay : Relay) (place : Nat)
    {change : Subscription → Subscription}
    (hqueue : ∀ subscription, (change subscription).queue = subscription.queue)
    (hdropped : ∀ subscription, (change subscription).dropped = subscription.dropped) :
    Counts [] relay (relay.updateSubscription place change) where
  skipThreshold := rfl
  length_queues := Nat.le_refl _
  account other queue dropped haccount := by
    have hmap :
        (relay.subscriptions.modify place change).map
            (fun subscription => (subscription.queue, subscription.dropped))
          = relay.subscriptions.map
            (fun subscription => (subscription.queue, subscription.dropped)) :=
      map_modify_of_unseen (fun subscription => by rw [hqueue, hdropped]) relay.subscriptions place
    simp only [account?, updateSubscription, ← List.getElem?_map] at haccount ⊢
    rw [hmap, haccount]
    simp

theorem counts_note (relay : Relay) (notice : Notice) : Counts [] relay (relay.note notice) :=
  counts_of_eq rfl rfl (Nat.le_refl _)

theorem counts_observe (relay : Relay) (path : StreamPath) (observation : Observation) :
    Counts [] relay (relay.observe path observation) :=
  counts_foldl (fun relay _ => counts_note relay _) relay _

theorem counts_showChange (relay : Relay) (path : StreamPath) (numbered : NumberedFrame)
    (change : CacheChange) : Counts [] relay (relay.showChange path numbered change) := by
  have hshown (relay : Relay) : Counts [] relay (relay.showKeyFrame path numbered) := by
    apply counts_foldl
    intro relay observer
    unfold showKeyFrameTo
    simp only
    split <;> exact counts_of_eq rfl rfl (Nat.le_refl _)
  cases change with
  | unnoticed => exact .refl relay
  | headerSet => exact counts_observe relay path _
  | groupStarted cleared =>
      cases cleared with
      | false => exact hshown relay
      | true => exact (counts_observe relay path _).silent_trans (hshown _)

theorem counts_deliver (numbered : NumberedFrame) (relay : Relay) (place : Nat) :
    Counts (outcome numbered relay place) relay (relay.deliver numbered place).2 := by
  unfold outcome deliver
  cases hfound : relay.subscriptions[place]? with
  | none => exact (Counts.refl relay).unskipped (by simp) place
  | some subscription =>
      simp only
      split
      · exact (Counts.refl relay).unskipped (by simp) place
      · split
        · refine ⟨rfl, Nat.le_refl _, fun other queue dropped haccount => ?_⟩
          simp only [account?, updateSubscription, List.getElem?_modify] at haccount ⊢
          obtain ⟨found, hother, hsame⟩ := Option.map_eq_some_iff.mp haccount
          obtain ⟨rfl, rfl⟩ := Prod.mk.inj hsame
          by_cases hplace : place = other
          · simp [hother, hplace]
          · simp [hother, hplace]
        · refine Counts.unskipped ?_ ?_ place
          · have hclaim : Counts [] relay (relay.claim numbered.buffer) :=
              counts_of_eq rfl rfl (Nat.le_refl _)
            exact hclaim.silent_trans (counts_send _ _ _)
          · split <;> simp

theorem counts_finish (relay : Relay) (place : Nat) (path : StreamPath)
    (numbered : NumberedFrame) (tally : DeliveryTally) :
    Counts [] relay (relay.finish place path numbered tally) := by
  let counted := relay.updatePublication place fun publication =>
    { publication with
      counters := publication.counters.recordDropped (UInt64.ofNat tally.skipped) }
  have hcounted : Counts [] relay counted := counts_of_eq rfl rfl (Nat.le_refl _)
  have hshown := hcounted.silent_trans
    (counts_observe counted path
      (.frame numbered.frame.kind numbered.buffer.content numbered.timestamp
        numbered.frame.isSkippable))
  exact hshown.silent_trans (counts_of_eq rfl rfl (Nat.le_refl _))

theorem counts_enter {place : Nat} {frame : MediaFrame} {timestamp : UInt32} {payload : Bytes}
    {change : CacheChange} {numbered : NumberedFrame} {entered : Relay}
    (henter : relay.enter place frame timestamp payload = some (change, numbered, entered)) :
    Counts [] relay entered := by
  obtain ⟨cache, counters, pool, rfl⟩ := exists_eq_of_enter henter
  exact counts_of_eq rfl rfl (Nat.le_refl _)

theorem counts_distribute (relay : Relay) (place : Nat) (kind : MediaKind)
    (timestamp : UInt32) (payload : Bytes) :
    Counts (relay.deliveries (.moved (.frame place kind timestamp payload))) relay
      (relay.distribute place kind timestamp payload).2 := by
  simp only [distribute, deliveries]
  cases henter : relay.enter place (MediaFrame.classify kind payload) timestamp payload with
  | none => exact .refl relay
  | some result =>
      obtain ⟨change, numbered, entered⟩ := result
      have hdelivered := (counts_enter henter).silent_trans
        (counts_collect (counts_deliver numbered) entered
          ((entered.publications[place]?.map Publication.subscribers).getD []))
      simp only [broadcast, deliverAll_eq_foldl]
      exact hdelivered.trans_silent
        ((counts_showChange _ (entered.pathOf place) numbered change).silent_trans
          (counts_finish _ place (entered.pathOf place) numbered _))

theorem counts_distributeMetadata (relay : Relay) (place : Nat) (metadata : Properties) :
    Counts [] relay (relay.distributeMetadata place metadata).2 := by
  unfold distributeMetadata
  cases relay.publications[place]? with
  | none => exact .refl relay
  | some publication =>
      have hdescribed : Counts [] relay (relay.describeAll metadata publication.subscribers).2 := by
        rw [describeAll_eq_foldl]
        refine counts_foldl (fun relay place => ?_) relay _
        unfold describeTo
        simp only
        split
        · exact .refl relay
        · exact counts_send relay _ _
      exact hdescribed.silent_trans (counts_of_eq rfl rfl (Nat.le_refl _))

theorem counts_clearCache (relay : Relay) (place : Nat) :
    Counts [] relay (relay.clearCache place) := by
  unfold clearCache
  split
  · exact counts_of_eq rfl rfl (Nat.le_refl _)
  · exact .refl relay

theorem counts_endSubscription (relay : Relay) (place : Nat) :
    Counts [] relay (relay.endSubscription place) := by
  unfold endSubscription
  split
  · split
    · exact .refl relay
    · have hmarked : Counts [] relay
          (relay.updateSubscription place ({ · with hasEnded := true })) :=
        counts_updateSubscription relay place (fun _ => rfl) fun _ => rfl
      exact hmarked.silent_trans (counts_sendAll _ _ _)
  · exact .refl relay

theorem counts_stopPublishing (relay : Relay) (place : Nat) :
    Counts [] relay (relay.stopPublishing place).2 := by
  by_cases hcurrent : ∃ publication, relay.publications[place]? = some publication ∧
      relay.directory.get? publication.path = some place
  · obtain ⟨publication, hfound, hlisted⟩ := hcurrent
    rw [relay.stopPublishing_eq hfound hlisted]
    have herased : Counts [] relay
        { relay with directory := relay.directory.erase publication.path } :=
      counts_of_eq rfl rfl (Nat.le_refl _)
    have htaken : Counts [] relay (relay.takeDown place publication) :=
      (herased.silent_trans (counts_clearCache _ place)).silent_trans
        (counts_of_eq rfl rfl (Nat.le_refl _))
    exact htaken.silent_trans (counts_foldl counts_endSubscription _ _)
  · have hstale : (relay.stopPublishing place).2 = relay := by
      unfold stopPublishing
      split
      · rename_i publication hfound
        exact congrArg Prod.snd (if_neg fun hlisted => hcurrent ⟨publication, hfound, hlisted⟩)
      · rfl
    rw [hstale]
    exact .refl relay

theorem counts_join (relay : Relay) (place : Nat) (cache : MediaCache)
    (request : SubscribeRequest) : Counts [] relay (relay.join place cache request).2 := by
  let started := relay.sendAll request.queue (request.subscription cache).startMessages
  let claimed := { started with pool := started.pool.claimAll cache.buffers }
  have hstarted : Counts [] relay started := counts_sendAll relay request.queue _
  have hclaimed : Counts [] started claimed := counts_of_eq rfl rfl (Nat.le_refl _)
  have hprimed : Counts [] claimed (relay.prime cache request) :=
    counts_sendAll claimed request.queue _
  have hjoining := hstarted.silent_trans (hclaimed.silent_trans hprimed)
  refine hjoining.silent_trans ⟨rfl, Nat.le_refl _, fun other queue dropped haccount => ?_⟩
  obtain ⟨found, hother, hsame⟩ := Option.map_eq_some_iff.mp haccount
  have hjoined : (relay.join place cache request).2.subscriptions[other]? = some found :=
    (List.getElem?_append_left (List.getElem?_eq_some_iff.mp hother).1).trans hother
  simp only [account?, hjoined, Option.map_some, hsame]
  simp

theorem counts_receiveSome (relay : Relay) (place count : Nat) :
    Counts [] relay (relay.receiveSome place count).2 := by
  induction count generalizing relay with
  | zero => exact .refl relay
  | succ count ih =>
      rw [receiveSome]
      cases hreceive : relay.receive? place with
      | none => exact .refl relay
      | some result =>
          obtain ⟨message, received⟩ := result
          refine Counts.silent_trans ?_ (ih _)
          unfold receive? at hreceive
          split at hreceive
          · simp only [Option.some.injEq, Prod.mk.injEq] at hreceive
            obtain ⟨-, rfl⟩ := hreceive
            exact counts_of_eq rfl rfl (Nat.le_of_eq (List.length_set ..).symm)
          · cases hreceive

/-! ## Counting through a run -/

theorem counts_call (relay : Relay) (call : RegistryCall) :
    Counts [] relay (relay.call call).2 := by
  cases call with
  | publish request =>
      rcases relay.call_publish request with ⟨_, _, hstart, hcalled⟩ | ⟨_, _, hcalled⟩
      · rw [hcalled]
        unfold startPublishing at hstart
        split at hstart
        · cases hstart
        · simp only [Except.ok.injEq, Prod.mk.injEq] at hstart
          obtain ⟨-, rfl⟩ := hstart
          exact counts_of_eq rfl rfl (Nat.le_refl _)
      · rw [hcalled]
        exact .refl relay
  | unpublish place => exact counts_stopPublishing relay place
  | subscribe request =>
      rcases relay.call_subscribe request with
        ⟨place, _, _, hstart, hcalled⟩ | ⟨_, _, hcalled⟩
      · obtain ⟨publication, -, -, -, -, rfl⟩ := startSubscribing_spec hstart
        rw [hcalled]
        exact counts_join relay place publication.cache request
      · rw [hcalled]
        exact .refl relay
  | unsubscribe place subscription =>
      show Counts [] relay (relay.stopSubscribing place subscription).2
      unfold stopSubscribing
      split
      · split
        · exact counts_of_eq rfl rfl (Nat.le_refl _)
        · exact .refl relay
      · exact .refl relay
  | find path => exact .refl relay
  | count => exact .refl relay

theorem counts_handle (relay : Relay) (event : RelayEvent) :
    Counts (relay.deliveries event) relay (relay.handle event) := by
  cases event with
  | called call => exact counts_call relay call
  | moved traffic =>
      cases traffic with
      | frame place kind timestamp payload =>
          exact counts_distribute relay place kind timestamp payload
      | described place metadata => exact counts_distributeMetadata relay place metadata
      | paused subscription isPaused =>
          exact counts_updateSubscription relay subscription (fun _ => rfl) fun _ => rfl
      | chosen subscription kind isWanted =>
          cases kind <;>
            exact counts_updateSubscription relay subscription (fun _ => rfl) fun _ => rfl
      | opened =>
          show Counts [] relay relay.openQueue.2
          exact counts_of_eq rfl rfl (by simp [openQueue])
      | sent queue message => exact counts_send relay queue message
      | received queue count => exact counts_receiveSome relay queue count
      | closed queue =>
          exact counts_of_eq rfl rfl (Nat.le_of_eq (List.length_modify ..).symm)
      | hungUp queue =>
          show Counts [] relay (relay.hangUpQueue queue)
          unfold hangUpQueue
          split
          · exact counts_of_eq rfl rfl (Nat.le_of_eq (List.length_set ..).symm)
          · exact .refl relay
      | discarded held =>
          refine counts_foldl (fun relay place => ?_) relay _
          unfold discard
          split
          · split
            · exact .refl relay
            · exact counts_clearCache relay place
          · exact .refl relay
      | undescribed | noted | logTaken | keptReleased =>
          exact counts_of_eq rfl rfl (Nat.le_refl _)

theorem counts_run (relay : Relay) (events : List RelayEvent) :
    Counts (relay.deliveriesOfRun events) relay (relay.run events) := by
  induction events generalizing relay with
  | nil => exact .refl relay
  | cons event events ih => exact (counts_handle relay event).trans (ih _)

/-! ## The counter of a stream -/

theorem dropped_recordFrame (counters : StreamCounters) (kind : MediaKind) (bytes : UInt64)
    (isKeyFrame : Bool) :
    (counters.recordFrame kind bytes isKeyFrame).dropped = counters.dropped := by
  cases kind <;> rfl

theorem skipped_foldl_record (outcomes : List Delivery) (tally : DeliveryTally) :
    (outcomes.foldl DeliveryTally.record tally).skipped =
      tally.skipped + outcomes.count .skipped := by
  induction outcomes generalizing tally with
  | nil => rfl
  | cons outcome outcomes ih =>
      rw [List.foldl_cons, ih]
      cases outcome with
      | skipped =>
          simp only [DeliveryTally.record, List.count_cons_self]
          omega
      | sent | filtered | closed => simp [DeliveryTally.record]

theorem tally_deliverAll (relay : Relay) (numbered : NumberedFrame) (places : List Nat) :
    (relay.deliverAll numbered places).1 =
      ((relay.collect (fun relay place => (relay.deliver numbered place).2) (outcome numbered)
        places).map Prod.snd).foldl DeliveryTally.record {} := by
  unfold deliverAll
  generalize ({} : DeliveryTally) = tally
  induction places generalizing relay tally with
  | nil => rfl
  | cons place places ih => exact ih (relay.deliver numbered place).2 _

theorem publications_deliverAll (relay : Relay) (numbered : NumberedFrame)
    (places : List Nat) :
    (relay.deliverAll numbered places).2.publications = relay.publications := by
  rw [deliverAll_eq_foldl]
  refine foldl_keeps publications (fun relay place => ?_) places relay
  unfold deliver
  split
  · rfl
  · split
    · rfl
    · split <;> rfl

theorem publications_observe (relay : Relay) (path : StreamPath) (observation : Observation) :
    (relay.observe path observation).publications = relay.publications := by
  refine foldl_keeps publications (fun relay observer => ?_) relay.observers relay
  rfl

theorem publications_showChange (relay : Relay) (path : StreamPath) (numbered : NumberedFrame)
    (change : CacheChange) :
    (relay.showChange path numbered change).publications = relay.publications := by
  have hshown (relay : Relay) :
      (relay.showKeyFrame path numbered).publications = relay.publications := by
    refine foldl_keeps publications (fun relay observer => ?_) relay.observers relay
    unfold showKeyFrameTo
    simp only
    split <;> rfl
  cases change with
  | unnoticed => rfl
  | headerSet => exact publications_observe relay path _
  | groupStarted cleared =>
      cases cleared with
      | false => exact hshown relay
      | true => exact (hshown _).trans (publications_observe relay path _)

/-- A stream counts all skips of its frames. -/
theorem dropped_distribute (relay : Relay) (place : Nat) (kind : MediaKind)
    (timestamp : UInt32) (payload : Bytes) :
    ((relay.distribute place kind timestamp payload).2.publications[place]?.map
        (·.counters.dropped)) =
      relay.publications[place]?.map fun publication =>
        publication.counters.dropped +
          UInt64.ofNat (((relay.deliveries
            (.moved (.frame place kind timestamp payload))).map Prod.snd).count .skipped) := by
  simp only [distribute, deliveries]
  cases hfound : relay.publications[place]? with
  | none => simp [enter, hfound]
  | some publication =>
      cases henter : relay.enter place (MediaFrame.classify kind payload) timestamp payload with
      | none => simp [enter, hfound] at henter
      | some result =>
          obtain ⟨change, numbered, entered⟩ := result
          have hentered : entered.publications[place]?.map (·.counters.dropped) =
              some publication.counters.dropped := by
            simp only [enter, hfound, Option.some.injEq, Prod.mk.injEq] at henter
            obtain ⟨-, -, rfl⟩ := henter
            simp [updatePublication, hfound, dropped_recordFrame]
          obtain ⟨known, hknown, hdropped⟩ := Option.map_eq_some_iff.mp hentered
          simp only [finish, broadcast, tally_deliverAll, skipped_foldl_record]
          simp only [release, publications_observe, updatePublication,
            publications_showChange, publications_deliverAll, List.getElem?_modify, hknown]
          simp [StreamCounters.recordDropped, hdropped]

/-! ## A queue once it is closed -/

end Relay

/-- What becomes of a closed queue. -/
structure OutboundQueue.Remains (before after : OutboundQueue) : Prop where
  isOpen : after.isOpen = false
  pending_le : after.pending ≤ before.pending
  pending_eq : before.messages = [] → after.messages = [] ∧ after.pending = before.pending

namespace Relay

variable {relay : Relay} {queue place : Nat} {subscription : Subscription}

theorem remains_handle (hexists : queue < relay.queues.length)
    (hclosed : (relay.queueAt queue).isOpen = false) (event : RelayEvent) :
    (relay.queueAt queue).Remains ((relay.handle event).queueAt queue) := by
  have hkept : (relay.queueAt queue).Remains (relay.queueAt queue) :=
    ⟨hclosed, Nat.le_refl _, fun hempty => ⟨hempty, rfl⟩⟩
  have haside : (relay.queueAt queue).Remains (relay.queueAside queue event) := by
    unfold queueAside
    split
    · rw [if_neg (Nat.ne_of_lt hexists)]
      exact hkept
    · split
      · simpa [OutboundQueue.push, hclosed] using hkept
      · exact hkept
    · split
      · refine ⟨hclosed, Nat.sub_le _ _, fun hempty => ?_⟩
        simp [OutboundQueue.drop, hempty]
      · exact hkept
    · split
      · exact ⟨rfl, Nat.le_refl _, fun hempty => ⟨hempty, rfl⟩⟩
      · exact hkept
    · split
      · exact ⟨rfl, Nat.le_refl _, fun _ => ⟨rfl, rfl⟩⟩
      · exact hkept
    · exact hkept
  rw [queueAt_handle, OutboundQueue.pushAll_of_not_isOpen haside.isOpen]
  exact haside

theorem remains_run (hexists : queue < relay.queues.length)
    (hclosed : (relay.queueAt queue).isOpen = false) (events : List RelayEvent) :
    (relay.queueAt queue).Remains ((relay.run events).queueAt queue) := by
  induction events generalizing relay with
  | nil => exact ⟨hclosed, Nat.le_refl _, fun hempty => ⟨hempty, rfl⟩⟩
  | cons event events ih =>
      have hfirst := remains_handle hexists hclosed event
      have hothers := ih
        (Nat.lt_of_lt_of_le hexists (counts_handle relay event).length_queues) hfirst.isOpen
      refine ⟨hothers.isOpen, Nat.le_trans hothers.pending_le hfirst.pending_le,
        fun hempty => ?_⟩
      obtain ⟨hstill, hsame⟩ := hfirst.pending_eq hempty
      obtain ⟨hlast, hfinal⟩ := hothers.pending_eq hstill
      exact ⟨hlast, hfinal.trans hsame⟩

/-! ## Offering a frame to a closed queue -/

theorem deliver_eq_skipped_iff (relay : Relay) (numbered : NumberedFrame) (place : Nat) :
    (relay.deliver numbered place).1 = .skipped ↔
      ∃ subscription, relay.subscriptions[place]? = some subscription ∧
        subscription.wants numbered = true ∧ numbered.frame.isSkippable = true ∧
        relay.skipThreshold < relay.pending subscription.queue := by
  unfold deliver
  cases relay.subscriptions[place]? with
  | none => simp
  | some subscription =>
      simp only [Option.some.injEq, exists_eq_left']
      cases subscription.wants numbered with
      | false => simp
      | true =>
          simp only [Bool.not_true, Bool.false_eq_true, if_false, Bool.and_eq_true,
            decide_eq_true_eq, true_and]
          split
          · rename_i hskip
            simp [hskip]
          · rename_i hkept
            simp only [hkept, iff_false]
            split <;> simp

theorem live_giveBack (pool : BufferPool) (allocation : Allocation) :
    (pool.giveBack allocation).live = pool.live := by
  simp only [BufferPool.giveBack]
  split <;> rfl

/-- The claim for a message that is not taken is given up. -/
theorem claims_release_claim (pool : BufferPool) (buffer other : RentedBuffer) :
    ((pool.claim buffer).release buffer).claims other = pool.claims other := by
  unfold BufferPool.claim
  cases hlive : pool.live.get? buffer.id with
  | none => simp [BufferPool.release, hlive]
  | some live =>
      simp only [BufferPool.release, Table.get?_put, if_true]
      by_cases hunclaimed : live.claims + 1 ≤ 1
      · have hzero : live.claims = 0 := by omega
        simp only [if_pos hunclaimed, BufferPool.claims, live_giveBack, Table.get?_erase,
          Table.get?_put]
        by_cases hsame : buffer.id = other.id
        · rw [if_pos hsame, ← hsame, hlive]
          exact hzero.symm
        · rw [if_neg hsame, if_neg hsame]
      · simp only [if_neg hunclaimed, BufferPool.claims, Table.get?_put]
        by_cases hsame : buffer.id = other.id
        · rw [if_pos hsame, ← hsame, hlive]
          rfl
        · rw [if_neg hsame, if_neg hsame]

theorem send_of_closed (hclosed : (relay.queueAt queue).isOpen = false)
    (message : OutboundMessage) :
    (relay.send queue message).1 = false ∧
      (relay.send queue message).2.pool =
        relay.pool.releaseAll message.payload.buffer?.toList := by
  have hqueue : (relay.queues[queue]?.getD { isOpen := false }).isOpen = false := hclosed
  simp [send, OutboundQueue.send, hqueue]

theorem deliver_of_closed (hfound : relay.subscriptions[place]? = some subscription)
    (hclosed : (relay.queueAt subscription.queue).isOpen = false)
    (numbered : NumberedFrame) :
    (relay.deliver numbered place).1 =
        (if subscription.wants numbered then
          if numbered.frame.isSkippable ∧
              relay.skipThreshold < relay.pending subscription.queue then .skipped
          else .closed
        else .filtered) ∧
      ∀ buffer, (relay.deliver numbered place).2.pool.claims buffer =
        relay.pool.claims buffer := by
  have hclaimed : ((relay.claim numbered.buffer).queueAt subscription.queue).isOpen = false :=
    hclosed
  obtain ⟨hsent, hpool⟩ := send_of_closed hclaimed (subscription.messageFor numbered)
  have hbuffer : (subscription.messageFor numbered).payload.buffer?.toList =
      [numbered.buffer] := by
    unfold Subscription.messageFor OutboundMessage.media
    cases numbered.frame.kind <;> rfl
  unfold deliver
  simp only [hfound]
  cases subscription.wants numbered with
  | false => exact ⟨rfl, fun _ => rfl⟩
  | true =>
      simp only [Bool.not_true, Bool.false_eq_true, if_false, if_true, Bool.and_eq_true,
        decide_eq_true_eq]
      split
      · exact ⟨rfl, fun _ => rfl⟩
      · refine ⟨by simp [hsent], fun buffer => ?_⟩
        simp only [hpool, hbuffer]
        exact claims_release_claim relay.pool numbered.buffer buffer

/-- A frame is skipped on account of the messages that are pending in a closed queue
all along. -/
theorem threshold_lt_of_skipped {dropped : UInt64} {event : RelayEvent}
    (haccount : relay.account? place = some (queue, dropped))
    (hclosed : (relay.queueAt queue).isOpen = false)
    (hskipped : (place, .skipped) ∈ relay.deliveries event) :
    relay.skipThreshold < relay.pending queue := by
  unfold deliveries at hskipped
  split at hskipped
  · split at hskipped
    · rename_i numbered entered henter
      let holds (before : Relay) : Prop :=
        before.skipThreshold = relay.skipThreshold ∧
          before.queueAt queue = relay.queueAt queue ∧
          ∃ dropped, before.account? place = some (queue, dropped)
      have hentered := counts_enter henter
      have hstart : holds entered :=
        ⟨hentered.skipThreshold, relay.queueAt_enter queue henter,
          _, hentered.account place queue dropped haccount⟩
      have hstep (before : Relay) (other : Nat) (hholds : holds before) :
          holds (before.deliver numbered other).2 := by
        obtain ⟨hthreshold, hqueue, dropped, haccount⟩ := hholds
        have hcounts := counts_deliver numbered before other
        refine ⟨hcounts.skipThreshold.trans hthreshold, ?_, _, hcounts.account _ _ _ haccount⟩
        rw [queueAt_deliver, OutboundQueue.pushAll_of_not_isOpen (hqueue ▸ hclosed), hqueue]
      obtain ⟨before, other, ⟨hthreshold, hqueue, dropped, hbefore⟩, -, hyielded⟩ :=
        exists_of_mem_collect holds hstep hstart hskipped
      obtain ⟨rfl, hdelivery⟩ := Prod.mk.inj (List.mem_singleton.mp hyielded)
      obtain ⟨subscription, hfound, -, -, hover⟩ :=
        (deliver_eq_skipped_iff before numbered place).mp hdelivery.symm
      have hsame : subscription.queue = queue := by
        simp only [account?, hfound, Option.map_some, Option.some.injEq] at hbefore
        exact congrArg Prod.fst hbefore
      rw [hsame, pending_eq, hqueue, hthreshold, ← pending_eq] at hover
      exact hover
    · cases hskipped
  · cases hskipped

theorem notMem_deliveriesOfRun {dropped : UInt64}
    (haccount : relay.account? place = some (queue, dropped))
    (hexists : queue < relay.queues.length) (hclosed : (relay.queueAt queue).isOpen = false)
    (hpending : relay.pending queue ≤ relay.skipThreshold) (events : List RelayEvent) :
    (place, .skipped) ∉ relay.deliveriesOfRun events := by
  induction events generalizing relay dropped with
  | nil => exact List.not_mem_nil
  | cons event events ih =>
      have hcounts := counts_handle relay event
      have hremains := remains_handle hexists hclosed event
      intro hskipped
      rcases List.mem_append.mp hskipped with hfirst | hothers
      · exact absurd (threshold_lt_of_skipped haccount hclosed hfirst) (by omega)
      · refine ih (hcounts.account _ _ _ haccount)
          (Nat.lt_of_lt_of_le hexists hcounts.length_queues) hremains.isOpen ?_ hothers
        rw [pending_eq, hcounts.skipThreshold]
        rw [pending_eq] at hpending
        exact Nat.le_trans hremains.pending_le hpending

/-- What becomes of the frames that are offered to a session which is gone. -/
theorem closed_or_skipped (relay : Relay) (events : List RelayEvent)
    (hfound : relay.subscriptions[place]? = some subscription)
    (hexists : subscription.queue < relay.queues.length)
    (hclosed : (relay.queueAt subscription.queue).isOpen = false) :
    let later := relay.run events
    let pending := later.pending subscription.queue
    ∃ now, later.subscriptions[place]? = some now ∧ now.queue = subscription.queue ∧
      pending ≤ relay.pending subscription.queue ∧
      ((relay.queueAt subscription.queue).messages = [] →
        pending = relay.pending subscription.queue) ∧
      (∀ numbered,
        (later.deliver numbered place).1 =
            (if now.wants numbered then
              if numbered.frame.isSkippable ∧ relay.skipThreshold < pending then .skipped
              else .closed
            else .filtered) ∧
          ∀ buffer, (later.deliver numbered place).2.pool.claims buffer =
            later.pool.claims buffer) ∧
      now.dropped = subscription.dropped +
        UInt64.ofNat ((relay.deliveriesOfRun events).count (place, .skipped)) ∧
      (∀ published kind timestamp payload,
        let frame := RelayEvent.moved (.frame published kind timestamp payload)
        (later.handle frame).publications[published]?.map (·.counters.dropped) =
          later.publications[published]?.map fun publication =>
            publication.counters.dropped +
              UInt64.ofNat (((later.deliveries frame).map Prod.snd).count .skipped)) ∧
      (relay.pending subscription.queue ≤ relay.skipThreshold →
        (place, .skipped) ∉ relay.deliveriesOfRun events) := by
  intro later pending
  have hcounts := counts_run relay events
  have hremains := remains_run hexists hclosed events
  have haccount : relay.account? place = some (subscription.queue, subscription.dropped) := by
    rw [account?, hfound, Option.map_some]
  have hlater := hcounts.account _ _ _ haccount
  obtain ⟨now, hnow, hsame⟩ := Option.map_eq_some_iff.mp hlater
  obtain ⟨hqueue, hdropped⟩ := Prod.mk.inj hsame
  have hstill : (later.queueAt now.queue).isOpen = false := by
    rw [hqueue]
    exact hremains.isOpen
  refine ⟨now, hnow, hqueue, ?_, fun hempty => ?_, fun numbered => ?_, hdropped,
    fun published kind timestamp payload => ?_, fun hpending => ?_⟩
  · simp only [pending, pending_eq]
    exact hremains.pending_le
  · simp only [pending, pending_eq]
    exact (hremains.pending_eq hempty).2
  · have hdeliver := deliver_of_closed hnow hstill numbered
    rw [hqueue, hcounts.skipThreshold] at hdeliver
    exact hdeliver
  · exact dropped_distribute later published kind timestamp payload
  · exact notMem_deliveriesOfRun haccount hexists hclosed hpending events

/-- A viewer with four pending messages has gone away, where three are allowed. -/
def goneWhileBehind : List RelayEvent :=
  let demo : StreamPath := ⟨"/live/demo"⟩
  [.moved .opened, .called (.publish ⟨1, demo, [], "live"⟩),
    .called (.subscribe ⟨2, 1, demo, [], 0⟩), .moved (.hungUp 0)]

/-- An ordinary frame is counted as skipped, by the subscription and by the stream. -/
theorem skips_goneWhileBehind :
    let relay := (ofConfiguration { skipThreshold := 3 } (fun _ => 0) {} []).run goneWhileBehind
    let frame := RelayEvent.moved (.frame 0 .video 0 [0x27, 1])
    (relay.queueAt 0).isOpen = false ∧ relay.deliveries frame = [(0, .skipped)] ∧
      (relay.handle frame).subscriptions[0]?.map Subscription.dropped = some 1 ∧
      (relay.handle frame).publications[0]?.map (·.counters.dropped) = some 1 := by
  exact ⟨rfl, rfl, rfl, rfl⟩

/-- With a larger threshold the same viewer is found to be gone. -/
theorem closed_of_goneWhileBehind :
    let relay := (ofConfiguration { skipThreshold := 4 } (fun _ => 0) {} []).run goneWhileBehind
    let frame := RelayEvent.moved (.frame 0 .video 0 [0x27, 1])
    relay.pending 0 ≤ relay.skipThreshold ∧ (0, .skipped) ∉ relay.deliveriesOfRun [frame] ∧
      ∃ now, (relay.run [frame]).subscriptions[0]? = some now ∧ now.dropped = 0 := by
  intro relay frame
  obtain ⟨viewer, hviewer, hqueue, hunskippedYet⟩ :
      ∃ viewer, relay.subscriptions[0]? = some viewer ∧ viewer.queue = 0 ∧ viewer.dropped = 0 :=
    ⟨_, rfl, rfl, rfl⟩
  have hexists : viewer.queue < relay.queues.length := by
    rw [hqueue]
    exact Nat.zero_lt_one
  have hclosed : (relay.queueAt viewer.queue).isOpen = false := by
    rw [hqueue]
    rfl
  have hpending : relay.pending 0 ≤ relay.skipThreshold := Nat.le_refl 4
  obtain ⟨now, hnow, -, -, -, -, hdropped, -, hnone⟩ :=
    closed_or_skipped relay [frame] hviewer hexists hclosed
  have hunskipped := hnone (hqueue ▸ hpending)
  refine ⟨hpending, hunskipped, now, hnow, ?_⟩
  rw [hdropped, hunskippedYet, List.count_eq_zero_of_not_mem hunskipped]
  rfl

end Relay

end LiveRelay
