import LiveRelay.Distribution
import LiveRelay.Registration

/-!
# Streams and queues

Most of what a relay does moves buffers and counters around.  What decides who
is sent what are the streams: which publication is found where, what it has
cached, who is on its list and on which terms.  Counters are left out of the
streams, because nothing depends on them.  The events that have told of a
stream belong to the streams as well.

Operations are described by what they send to one queue.  All that a queue
takes goes to its end, and a queue that is closed takes nothing.
-/

namespace LiveRelay

def Publication.uncounted (publication : Publication) : Publication :=
  { publication with counters := {} }

def Subscription.uncounted (subscription : Subscription) : Subscription :=
  { subscription with dropped := 0 }

/-! ## What is told of streams -/

inductive StreamChange where
  | published
  | unpublished
  | subscribed
  | unsubscribed
  deriving DecidableEq, Repr

/-- The change of a stream that an event tells of. -/
def SessionEvent.change? : SessionEvent → Option (StreamChange × StreamPath)
  | .published path _ => some (.published, path)
  | .unpublished path => some (.unpublished, path)
  | .subscribed path _ => some (.subscribed, path)
  | .unsubscribed path => some (.unsubscribed, path)
  | _ => none

def Notice.change? : Notice → Option (Nat × StreamChange × StreamPath)
  | .event context happened => happened.change?.map (context.sessionId, ·)
  | _ => none

def Relay.told (relay : Relay) : List (Nat × StreamChange × StreamPath) :=
  relay.log.filterMap Notice.change?

theorem Relay.told_note (relay : Relay) (notice : Notice) :
    (relay.note notice).told = relay.told ++ notice.change?.toList := by
  simp only [told, note, List.filterMap_append]
  cases hchange : notice.change? <;> simp [hchange]

/-! ## Streams -/

structure Streams where
  maximumGroupBytes : Nat
  skipThreshold : Nat
  directory : StreamDirectory
  publications : List Publication
  subscriptions : List Subscription
  /-- Each change with the session that it was told for. -/
  told : List (Nat × StreamChange × StreamPath)

def Relay.streams (relay : Relay) : Streams where
  maximumGroupBytes := relay.maximumGroupBytes
  skipThreshold := relay.skipThreshold
  directory := relay.directory
  publications := relay.publications.map Publication.uncounted
  subscriptions := relay.subscriptions.map Subscription.uncounted
  told := relay.told

theorem map_modify {α β : Type} {view : α → β} {change : α → α} (after : β → β)
    (hview : ∀ item, view (change item) = after (view item)) (items : List α)
    (place : Nat) :
    (items.modify place change).map view = (items.map view).modify place after := by
  apply List.ext_getElem?
  intro index
  simp only [List.getElem?_map, List.getElem?_modify]
  cases items[index]? with
  | none => rfl
  | some item =>
      by_cases hplace : place = index
      · simp [hplace, hview]
      · simp [hplace]

theorem map_modify_of_unseen {α β : Type} {view : α → β} {change : α → α}
    (hview : ∀ item, view (change item) = view item) (items : List α) (place : Nat) :
    (items.modify place change).map view = items.map view := by
  rw [map_modify id hview, List.modify_id]

/-- What no step changes, a run of steps does not change. -/
theorem foldl_keeps {α β σ : Type} (view : σ → β) {step : σ → α → σ}
    (hstep : ∀ state item, view (step state item) = view state) (items : List α)
    (state : σ) : view (items.foldl step state) = view state := by
  induction items generalizing state with
  | nil => rfl
  | cons item items ih => exact (ih (step state item)).trans (hstep state item)

/-- Of some subscriptions one at most sends to the queue. -/
def Streams.IsSole (streams : Streams) (queue place : Nat)
    (subscribers : List Nat) : Prop :=
  ∀ other ∈ subscribers, ∀ subscription,
    streams.subscriptions[other]? = some subscription →
      subscription.queue = queue → other = place

/-- A queue that does not exist takes nothing. -/
def Relay.queueAt (relay : Relay) (queue : Nat) : OutboundQueue :=
  relay.queues[queue]?.getD { isOpen := false }

/-! ## Queues -/

namespace OutboundQueue

def push (queue : OutboundQueue) (message : OutboundMessage) : OutboundQueue :=
  if queue.isOpen then
    { queue with
      messages := queue.messages ++ [message], pending := queue.pending + 1 }
  else queue

def pushAll (queue : OutboundQueue) (messages : List OutboundMessage) :
    OutboundQueue :=
  messages.foldl push queue

theorem pushAll_append (queue : OutboundQueue)
    (first second : List OutboundMessage) :
    queue.pushAll (first ++ second) = (queue.pushAll first).pushAll second :=
  List.foldl_append

theorem pushAll_of_isOpen {queue : OutboundQueue} (hopen : queue.isOpen = true)
    (messages : List OutboundMessage) :
    queue.pushAll messages =
      { queue with
        messages := queue.messages ++ messages
        pending := queue.pending + messages.length } := by
  induction messages generalizing queue with
  | nil => simp [pushAll]
  | cons message messages ih =>
      have hpush : queue.push message =
          { queue with
            messages := queue.messages ++ [message]
            pending := queue.pending + 1 } := by
        simp [push, hopen]
      have hstillOpen : (queue.push message).isOpen = true := by
        rw [hpush]
        exact hopen
      have hrest := ih hstillOpen
      show (queue.push message).pushAll messages = _
      rw [hrest, hpush]
      simp only [List.append_assoc, List.singleton_append, List.length_cons,
        OutboundQueue.mk.injEq, true_and]
      omega

theorem pushAll_of_not_isOpen {queue : OutboundQueue}
    (hclosed : queue.isOpen = false) (messages : List OutboundMessage) :
    queue.pushAll messages = queue := by
  induction messages with
  | nil => rfl
  | cons message messages ih =>
      have hpush : queue.push message = queue := by
        simp [push, hclosed]
      show (queue.push message).pushAll messages = queue
      rw [hpush, ih]

theorem send_eq (queue : OutboundQueue) (pool : BufferPool)
    (message : OutboundMessage) :
    (queue.send pool message).2.1 = queue.push message := by
  unfold send push
  split <;> rfl

end OutboundQueue

/-! ## Clean pools -/

namespace BufferPool

/-- Idle allocations are empty, so a buffer holds what it was rented with. -/
def IsClean (pool : BufferPool) : Prop :=
  ∀ allocation ∈ pool.free, allocation.content = []

variable {pool : BufferPool}

theorem IsClean.takeFree (hclean : pool.IsClean) :
    pool.takeFree.1.content = [] ∧ pool.takeFree.2.IsClean := by
  unfold BufferPool.takeFree
  cases hfree : pool.free with
  | nil =>
      refine ⟨rfl, ?_⟩
      intro allocation hallocation
      cases hallocation
  | cons first free =>
      constructor
      · exact hclean first (by rw [hfree]; exact List.mem_cons_self)
      · intro allocation hallocation
        apply hclean
        rw [hfree]
        exact List.mem_cons_of_mem _ hallocation

theorem IsClean.content_rent (hclean : pool.IsClean) (bytes : Bytes) :
    (pool.rent bytes).1.content = bytes := by
  show pool.takeFree.1.content ++ bytes = bytes
  rw [hclean.takeFree.1, List.nil_append]

theorem IsClean.rent (hclean : pool.IsClean) (bytes : Bytes) :
    (pool.rent bytes).2.IsClean :=
  hclean.takeFree.2

theorem IsClean.claim (hclean : pool.IsClean) (buffer : RentedBuffer) :
    (pool.claim buffer).IsClean := by
  unfold BufferPool.claim
  split <;> exact hclean

theorem IsClean.giveBack (hclean : pool.IsClean) (allocation : Allocation) :
    (pool.giveBack allocation).IsClean := by
  unfold BufferPool.giveBack
  simp only
  split
  · intro other hother
    rcases List.mem_cons.mp hother with hnew | hold
    · rw [hnew]
      rfl
    · exact hclean other hold
  · exact hclean

theorem IsClean.release (hclean : pool.IsClean) (buffer : RentedBuffer) :
    (pool.release buffer).IsClean := by
  unfold BufferPool.release
  split
  · split
    · apply IsClean.giveBack
      exact hclean
    · exact hclean
  · exact hclean

theorem IsClean.claimAll (hclean : pool.IsClean) (buffers : List RentedBuffer) :
    (pool.claimAll buffers).IsClean := by
  induction buffers generalizing pool with
  | nil => exact hclean
  | cons buffer buffers ih => exact ih (hclean.claim buffer)

theorem IsClean.releaseAll (hclean : pool.IsClean)
    (buffers : List RentedBuffer) :
    (pool.releaseAll buffers).IsClean := by
  induction buffers generalizing pool with
  | nil => exact hclean
  | cons buffer buffers ih => exact ih (hclean.release buffer)

theorem IsClean.send (hclean : pool.IsClean) (queue : OutboundQueue)
    (message : OutboundMessage) :
    (queue.send pool message).2.2.IsClean := by
  unfold OutboundQueue.send
  split
  · exact hclean
  · exact hclean.releaseAll _

end BufferPool

/-! ## What an operation sends -/

namespace Relay

/-- The streams are as before, and a queue has been sent some messages. -/
structure Sends (queue : Nat) (messages : List OutboundMessage)
    (before after : Relay) : Prop where
  streams : after.streams = before.streams
  queueAt : after.queueAt queue = (before.queueAt queue).pushAll messages
  isClean : before.pool.IsClean → after.pool.IsClean

variable {queue : Nat} {first second : List OutboundMessage}
  {before middle after : Relay}

theorem Sends.refl (queue : Nat) (relay : Relay) : Sends queue [] relay relay :=
  ⟨rfl, rfl, id⟩

theorem Sends.trans (hfirst : Sends queue first before middle)
    (hsecond : Sends queue second middle after) :
    Sends queue (first ++ second) before after where
  streams := hsecond.streams.trans hfirst.streams
  queueAt := by
    rw [hsecond.queueAt, hfirst.queueAt, OutboundQueue.pushAll_append]
  isClean hclean := hsecond.isClean (hfirst.isClean hclean)

theorem Sends.silent_trans (hfirst : Sends queue [] before middle)
    (hsecond : Sends queue second middle after) :
    Sends queue second before after :=
  hfirst.trans hsecond

theorem Sends.trans_silent (hfirst : Sends queue first before middle)
    (hsecond : Sends queue [] middle after) :
    Sends queue first before after := by
  have hboth := hfirst.trans hsecond
  rwa [List.append_nil] at hboth

theorem sends_foldl {α : Type} {step : Relay → α → Relay}
    (hstep : ∀ relay item, Sends queue [] relay (step relay item))
    (relay : Relay) (items : List α) :
    Sends queue [] relay (items.foldl step relay) := by
  induction items generalizing relay with
  | nil => exact Sends.refl queue relay
  | cons item items ih => exact (hstep relay item).silent_trans (ih _)

theorem sends_note (relay : Relay) {notice : Notice} (hchange : notice.change? = none) :
    Sends queue [] relay (relay.note notice) where
  streams := by
    have htold := relay.told_note notice
    rw [hchange, Option.toList_none, List.append_nil] at htold
    simp only [streams, htold]
    rfl
  queueAt := rfl
  isClean := id

theorem sends_claim (relay : Relay) (buffer : RentedBuffer) :
    Sends queue [] relay (relay.claim buffer) :=
  ⟨rfl, rfl, fun hclean => hclean.claim buffer⟩

theorem sends_release (relay : Relay) (buffer : RentedBuffer) :
    Sends queue [] relay (relay.release buffer) :=
  ⟨rfl, rfl, fun hclean => hclean.release buffer⟩

theorem sends_observe (relay : Relay) (path : StreamPath)
    (observation : Observation) :
    Sends queue [] relay (relay.observe path observation) := by
  apply sends_foldl
  intro relay observer
  exact sends_note relay rfl

theorem sends_showKeyFrame (relay : Relay) (path : StreamPath)
    (numbered : NumberedFrame) :
    Sends queue [] relay (relay.showKeyFrame path numbered) := by
  apply sends_foldl
  intro relay observer
  have hclaim : Sends queue [] relay (relay.claim numbered.buffer) :=
    sends_claim relay numbered.buffer
  unfold showKeyFrameTo
  simp only
  split
  · exact hclaim.silent_trans ((sends_note _ rfl).silent_trans ⟨rfl, rfl, id⟩)
  · exact hclaim.silent_trans
      ((sends_note _ rfl).silent_trans (sends_release _ numbered.buffer))

theorem sends_showChange (relay : Relay) (path : StreamPath)
    (numbered : NumberedFrame) (change : CacheChange) :
    Sends queue [] relay (relay.showChange path numbered change) := by
  cases change with
  | unnoticed => exact Sends.refl queue relay
  | headerSet => exact sends_observe relay path _
  | groupStarted cleared =>
      cases cleared with
      | false => exact sends_showKeyFrame relay path numbered
      | true =>
          exact (sends_observe relay path _).silent_trans
            (sends_showKeyFrame _ path numbered)

theorem sends_updatePublication (relay : Relay) (place : Nat)
    {change : Publication → Publication}
    (hchange : ∀ publication,
      (change publication).uncounted = publication.uncounted) :
    Sends queue [] relay (relay.updatePublication place change) where
  streams := by
    simp only [streams, updatePublication]
    rw [map_modify_of_unseen hchange]
    rfl
  queueAt := rfl
  isClean := id

theorem sends_updateSubscription (relay : Relay) (place : Nat)
    {change : Subscription → Subscription}
    (hchange : ∀ subscription,
      (change subscription).uncounted = subscription.uncounted) :
    Sends queue [] relay (relay.updateSubscription place change) where
  streams := by
    simp only [streams, updateSubscription]
    rw [map_modify_of_unseen hchange]
    rfl
  queueAt := rfl
  isClean := id

theorem queueAt_set (relay : Relay) (place : Nat) (put : OutboundQueue)
    (pool : BufferPool) :
    ({ relay with queues := relay.queues.set place put, pool := pool } :
        Relay).queueAt queue =
      if place = queue ∧ queue < relay.queues.length then put
      else relay.queueAt queue := by
  simp only [Relay.queueAt, List.getElem?_set]
  by_cases hplace : place = queue
  · subst hplace
    by_cases hlength : place < relay.queues.length
    · simp [hlength]
    · simp [hlength]
  · simp [hplace]

theorem sends_send (relay : Relay) (place : Nat) (message : OutboundMessage) :
    Sends queue (if place = queue then [message] else []) relay
      (relay.send place message).2 where
  streams := rfl
  queueAt := by
    have hsend := OutboundQueue.send_eq (relay.queueAt place) relay.pool message
    show Relay.queueAt { relay with
      queues := relay.queues.set place _, pool := _ } queue = _
    rw [queueAt_set]
    by_cases hplace : place = queue
    · subst hplace
      by_cases hlength : place < relay.queues.length
      · rw [if_pos ⟨rfl, hlength⟩, if_pos rfl]
        exact hsend
      · have hclosed : relay.queueAt place = { isOpen := false } := by
          simp [Relay.queueAt, hlength]
        rw [if_neg (fun hboth => hlength hboth.2), if_pos rfl, hclosed]
        rfl
    · rw [if_neg (fun hboth => hplace hboth.1), if_neg hplace]
      rfl
  isClean hclean := hclean.send _ message

theorem sends_sendAll (relay : Relay) (place : Nat)
    (messages : List OutboundMessage) :
    Sends queue (if place = queue then messages else []) relay
      (relay.sendAll place messages) := by
  induction messages generalizing relay with
  | nil =>
      rw [ite_self]
      exact Sends.refl queue relay
  | cons message messages ih =>
      have hboth := (sends_send relay place message).trans (ih _)
      split
      · rename_i hplace
        rw [if_pos hplace, if_pos hplace] at hboth
        exact hboth
      · rename_i hplace
        rw [if_neg hplace, if_neg hplace] at hboth
        exact hboth

/-! ## Delivering -/

/-- What a subscription is sent of a frame, if its messages go to the queue. -/
def messagesTo (relay : Relay) (queue : Nat) (numbered : NumberedFrame)
    (place : Nat) : List OutboundMessage :=
  match relay.streams.subscriptions[place]? with
  | some subscription =>
      if subscription.queue = queue ∧ subscription.wants numbered ∧
          ¬ (numbered.frame.isSkippable ∧
            relay.skipThreshold < (relay.queueAt queue).pending)
      then [subscription.messageFor numbered] else []
  | none => []

theorem getElem?_streams_subscriptions (relay : Relay) (place : Nat) :
    relay.streams.subscriptions[place]? =
      relay.subscriptions[place]?.map Subscription.uncounted := by
  simp [streams]

theorem getElem?_streams_publications (relay : Relay) (place : Nat) :
    relay.streams.publications[place]? =
      relay.publications[place]?.map Publication.uncounted := by
  simp [streams]

theorem pending_eq (relay : Relay) (queue : Nat) :
    relay.pending queue = (relay.queueAt queue).pending := by
  unfold pending Relay.queueAt
  cases relay.queues[queue]? <;> rfl

theorem sends_deliver (relay : Relay) (numbered : NumberedFrame) (place : Nat) :
    Sends queue (relay.messagesTo queue numbered place) relay
      (relay.deliver numbered place).2 := by
  unfold messagesTo deliver
  rw [getElem?_streams_subscriptions]
  cases hplace : relay.subscriptions[place]? with
  | none => exact Sends.refl queue relay
  | some subscription =>
      have hwants : subscription.uncounted.wants numbered =
          subscription.wants numbered := rfl
      have hqueue : subscription.uncounted.queue = subscription.queue := rfl
      simp only [Option.map_some, hwants, hqueue, pending_eq]
      cases subscription.wants numbered with
      | false =>
          simp only [Bool.not_false, if_true, Bool.false_eq_true, false_and,
            and_false, if_false]
          exact Sends.refl queue relay
      | true =>
          simp only [Bool.not_true, Bool.false_eq_true, if_false, true_and,
            Bool.and_eq_true, decide_eq_true_eq]
          by_cases hskip : numbered.frame.isSkippable = true ∧
              relay.skipThreshold < (relay.queueAt subscription.queue).pending
          · rw [if_pos hskip, if_neg]
            · exact sends_updateSubscription relay place (fun _ => rfl)
            · rintro ⟨hsame, hkept⟩
              rw [hsame] at hskip
              exact hkept hskip
          · rw [if_neg hskip]
            have hclaim : Sends queue [] relay (relay.claim numbered.buffer) :=
              sends_claim relay numbered.buffer
            have hsend := hclaim.silent_trans
              (sends_send (relay.claim numbered.buffer) subscription.queue
                (subscription.messageFor numbered))
            by_cases hsame : subscription.queue = queue
            · rw [if_pos hsame] at hsend
              rw [hsame] at hskip
              rw [if_pos ⟨hsame, hskip⟩]
              exact hsend
            · rw [if_neg hsame] at hsend
              rw [if_neg (fun hboth => hsame hboth.1)]
              exact hsend

theorem Sends.messagesTo (hsends : Sends queue [] before after)
    (numbered : NumberedFrame) (place : Nat) :
    after.messagesTo queue numbered place =
      before.messagesTo queue numbered place := by
  have hqueue : after.queueAt queue = before.queueAt queue := hsends.queueAt
  have hthreshold : after.skipThreshold = before.skipThreshold :=
    congrArg Streams.skipThreshold hsends.streams
  unfold Relay.messagesTo
  rw [hsends.streams, hqueue, hthreshold]

theorem messagesTo_eq_nil {relay : Relay} {numbered : NumberedFrame}
    {place : Nat}
    (hother : ∀ subscription,
      relay.streams.subscriptions[place]? = some subscription →
        subscription.queue ≠ queue) :
    relay.messagesTo queue numbered place = [] := by
  unfold messagesTo
  split
  · rename_i subscription hsubscription
    rw [if_neg (fun hall => hother subscription hsubscription hall.1)]
  · rfl

theorem exists_sends_each {α : Type} {step : α × Relay → Nat → α × Relay}
    (hstep : ∀ state other, ∃ messages,
      Sends queue messages state.2 (step state other).2)
    (state : α × Relay) (subscribers : List Nat) :
    ∃ messages,
      Sends queue messages state.2 (subscribers.foldl step state).2 := by
  induction subscribers generalizing state with
  | nil => exact ⟨[], Sends.refl queue state.2⟩
  | cons other subscribers ih =>
      obtain ⟨first, hfirst⟩ := hstep state other
      obtain ⟨second, hsecond⟩ := ih (step state other)
      exact ⟨first ++ second, hfirst.trans hsecond⟩

/-- One subscription after the other is sent something.  If only one of them
sends to the queue, the others do not matter. -/
theorem sends_each {α : Type} {step : α × Relay → Nat → α × Relay}
    {messagesOf : Relay → Nat → List OutboundMessage}
    (hstep : ∀ state other,
      Sends queue (messagesOf state.2 other) state.2 (step state other).2)
    (hsilent : ∀ before after, Sends queue [] before after →
      ∀ other, messagesOf after other = messagesOf before other)
    (hother : ∀ relay other,
      (∀ subscription, relay.streams.subscriptions[other]? = some subscription →
        subscription.queue ≠ queue) → messagesOf relay other = [])
    (state : α × Relay) {subscribers : List Nat} {place : Nat}
    (hnodup : subscribers.Nodup)
    (hsole : state.2.streams.IsSole queue place subscribers) :
    Sends queue
      (if place ∈ subscribers then messagesOf state.2 place else [])
      state.2 (subscribers.foldl step state).2 := by
  induction subscribers generalizing state with
  | nil => exact Sends.refl queue state.2
  | cons other subscribers ih =>
      obtain ⟨habsent, hrest⟩ := List.nodup_cons.mp hnodup
      have hfirst := hstep state other
      have hsoleOthers :
          (step state other).2.streams.IsSole queue place subscribers := by
        rw [hfirst.streams]
        exact fun third hthird => hsole third (List.mem_cons_of_mem _ hthird)
      have hothers := ih _ hrest hsoleOthers
      rw [List.foldl_cons]
      by_cases hplace : other = place
      · subst hplace
        rw [if_neg habsent] at hothers
        rw [if_pos List.mem_cons_self]
        exact hfirst.trans_silent hothers
      · have hnone : messagesOf state.2 other = [] := by
          apply hother
          intro subscription hsubscription hqueue
          exact hplace
            (hsole other List.mem_cons_self subscription hsubscription hqueue)
        rw [hnone] at hfirst
        rw [hsilent _ _ hfirst] at hothers
        have hmember : place ∈ other :: subscribers ↔ place ∈ subscribers := by
          simp [Ne.symm hplace]
        simp only [hmember]
        exact hfirst.silent_trans hothers

theorem broadcast_eq {relay : Relay} {published : Nat}
    {publication : Publication}
    (hpublication :
      relay.streams.publications[published]? = some publication)
    (numbered : NumberedFrame) :
    relay.broadcast published numbered =
      relay.deliverAll numbered publication.subscribers := by
  rw [getElem?_streams_publications] at hpublication
  obtain ⟨counted, hcounted, hsame⟩ := Option.map_eq_some_iff.mp hpublication
  have hsubscribers : counted.subscribers = publication.subscribers := by
    rw [← hsame]
    rfl
  unfold broadcast
  rw [hcounted, Option.map_some, Option.getD_some, hsubscribers]

theorem exists_sends_broadcast (relay : Relay) (published : Nat)
    (numbered : NumberedFrame) :
    ∃ messages,
      Sends queue messages relay (relay.broadcast published numbered).2 := by
  refine exists_sends_each ?_ (({} : DeliveryTally), relay) _
  intro state other
  exact ⟨_, sends_deliver state.2 numbered other⟩

theorem sends_broadcast {relay : Relay} {published : Nat}
    {publication : Publication} {place : Nat}
    (hpublication :
      relay.streams.publications[published]? = some publication)
    (hnodup : publication.subscribers.Nodup)
    (hsole : relay.streams.IsSole queue place publication.subscribers)
    (numbered : NumberedFrame) :
    Sends queue
      (if place ∈ publication.subscribers then
        relay.messagesTo queue numbered place else [])
      relay (relay.broadcast published numbered).2 := by
  rw [broadcast_eq hpublication]
  exact
    sends_each
      (fun state other => sends_deliver state.2 numbered other)
      (fun _ _ hsends other => hsends.messagesTo numbered other)
      (fun _ _ hother => messagesTo_eq_nil hother)
      (({} : DeliveryTally), relay) hnodup hsole

theorem sends_finish (relay : Relay) (place : Nat) (path : StreamPath)
    (numbered : NumberedFrame) (tally : DeliveryTally) :
    Sends queue [] relay (relay.finish place path numbered tally) := by
  unfold finish
  refine (sends_updatePublication relay place ?_).silent_trans
    ((sends_observe _ path _).silent_trans (sends_release _ numbered.buffer))
  exact fun _ => rfl

/-! ## Describing -/

/-- What a subscription is sent of a description. -/
def metadataTo (relay : Relay) (queue : Nat) (metadata : Properties)
    (place : Nat) : List OutboundMessage :=
  match relay.streams.subscriptions[place]? with
  | some subscription =>
      if subscription.queue = queue then [subscription.metadataMessage metadata]
      else []
  | none => []

/-- One subscription is sent a description, and is counted if its queue takes
it. -/
def describeTo (metadata : Properties) (state : Nat × Relay) (place : Nat) :
    Nat × Relay :=
  match state.2.subscriptions[place]? with
  | none => state
  | some subscription =>
      let (taken, relay) :=
        state.2.send subscription.queue (subscription.metadataMessage metadata)
      (if taken then state.1 + 1 else state.1, relay)

def describeAll (relay : Relay) (metadata : Properties)
    (subscribers : List Nat) : Nat × Relay :=
  subscribers.foldl (describeTo metadata) (0, relay)

theorem sends_describeTo (metadata : Properties) (state : Nat × Relay)
    (place : Nat) :
    Sends queue (state.2.metadataTo queue metadata place) state.2
      (describeTo metadata state place).2 := by
  unfold metadataTo describeTo
  rw [getElem?_streams_subscriptions]
  cases state.2.subscriptions[place]? with
  | none => exact Sends.refl queue state.2
  | some subscription => exact sends_send state.2 subscription.queue _

theorem metadataTo_eq_nil {relay : Relay} {metadata : Properties} {place : Nat}
    (hother : ∀ subscription,
      relay.streams.subscriptions[place]? = some subscription →
        subscription.queue ≠ queue) :
    relay.metadataTo queue metadata place = [] := by
  unfold metadataTo
  split
  · rename_i subscription hsubscription
    rw [if_neg (hother subscription hsubscription)]
  · rfl

theorem exists_sends_describeAll (relay : Relay) (metadata : Properties)
    (subscribers : List Nat) :
    ∃ messages,
      Sends queue messages relay (relay.describeAll metadata subscribers).2 :=
  exists_sends_each
    (fun state other => ⟨_, sends_describeTo metadata state other⟩)
    (0, relay) subscribers

theorem sends_describeAll {relay : Relay} {subscribers : List Nat} {place : Nat}
    (hnodup : subscribers.Nodup)
    (hsole : relay.streams.IsSole queue place subscribers)
    (metadata : Properties) :
    Sends queue
      (if place ∈ subscribers then relay.metadataTo queue metadata place else [])
      relay (relay.describeAll metadata subscribers).2 :=
  sends_each
    (fun state other => sends_describeTo metadata state other)
    (fun before after hsilent other => by
      unfold metadataTo
      rw [hsilent.streams])
    (fun _ _ hother => metadataTo_eq_nil hother) (0, relay) hnodup hsole

end Relay

end LiveRelay
