import LiveRelay.Proofs.BufferClaims
import LiveRelay.Proofs.Stocks

/-!
# Holders of buffers

Three places keep claims for longer than one step: the caches of publications,
the queues, and observers that do not give their claims back.  Every step of a
relay keeps the books of the pool balanced against these places.  Within a
step there are also the claims in hand, such as the one on the frame that is
being distributed.  At the end of the step nothing is left in hand.
-/

namespace LiveRelay

theorem exists_flatMap_perm {α β : Type} (view : α → List β) {items : List α} {place : Nat}
    {item : α} (hitem : items[place]? = some item) :
    ∃ others, (items.flatMap view).Perm (view item ++ others) ∧
      ∀ put, ((items.set place put).flatMap view).Perm (view put ++ others) := by
  induction items generalizing place with
  | nil => simp at hitem
  | cons first items ih =>
      cases place with
      | zero =>
          obtain rfl : first = item := by simpa using hitem
          exact ⟨items.flatMap view, .rfl, fun put => .rfl⟩
      | succ place =>
          obtain ⟨others, hbefore, hafter⟩ := ih (by simpa using hitem)
          refine ⟨view first ++ others, ?_, fun put => ?_⟩
          · exact (hbefore.append_left _).trans (List.perm_append_comm_assoc _ _ _)
          · exact ((hafter put).append_left _).trans (List.perm_append_comm_assoc _ _ _)

theorem flatMap_modify {α β : Type} {view : α → List β} {change : α → α}
    (hview : ∀ item, view (change item) = view item) (items : List α) (place : Nat) :
    (items.modify place change).flatMap view = items.flatMap view := by
  rw [List.flatMap_def, List.flatMap_def, map_modify_of_unseen hview]

/-! ## Caches and queues -/

section

variable {pool : BufferPool} {held : List RentedBuffer}

namespace GroupCache

variable {cache : GroupCache}

theorem balanced_clear (hbalanced : pool.Balanced (cache.buffers ++ held)) :
    (cache.clear pool).2.Balanced held :=
  hbalanced.releaseAll

/-- The group takes the claim on a key frame, or gives it up. -/
theorem balanced_start {keyFrame : GroupEntry}
    (hbalanced : pool.Balanced (cache.buffers ++ keyFrame.buffer :: held)) :
    (cache.start pool keyFrame).2.Balanced ((cache.start pool keyFrame).1.buffers ++ held) := by
  have hcleared := balanced_clear hbalanced
  unfold start
  simp only
  split
  · exact hcleared
  · exact hcleared.release

theorem balanced_push {entry : GroupEntry}
    (hbalanced : pool.Balanced (cache.buffers ++ entry.buffer :: held)) :
    (cache.push pool entry).2.2.Balanced ((cache.push pool entry).2.1.buffers ++ held) := by
  unfold push
  simp only
  split
  · exact (hbalanced.perm List.perm_middle).release
  · split
    · exact (balanced_clear hbalanced).release
    · simpa [buffers] using hbalanced

end GroupCache

namespace MediaCache

variable {cache : MediaCache}

theorem balanced_clear (hbalanced : pool.Balanced (cache.buffers ++ held)) :
    (cache.clear pool).2.Balanced held := by
  unfold buffers at hbalanced
  rw [List.append_assoc] at hbalanced
  exact hbalanced.releaseAll.releaseAll

/-- The claim on a configuration replaces the claim on the one before. -/
theorem balanced_setHeader (kind : MediaKind) {buffer : RentedBuffer}
    (hbalanced : pool.Balanced (buffer :: (cache.buffers ++ held))) :
    (cache.setHeader pool kind buffer).2.Balanced
      ((cache.setHeader pool kind buffer).1.buffers ++ held) := by
  cases kind with
  | audio =>
      simp only [buffers, List.append_assoc] at hbalanced
      simpa [setHeader, buffers] using (hbalanced.perm List.perm_middle.symm).releaseAll
  | video =>
      have hperm : (buffer :: (cache.buffers ++ held)).Perm
          (cache.videoHeader.toList ++
            (cache.audioHeader.toList ++ (buffer :: (cache.group.buffers ++ held)))) := by
        simp only [buffers, List.append_assoc]
        exact (List.perm_middle.symm.trans (List.perm_middle.symm.append_left _)).trans
          (List.perm_append_comm_assoc _ _ _)
      simpa [setHeader, buffers] using (hbalanced.perm hperm).releaseAll

theorem buffers_perm (cache : MediaCache) (held : List RentedBuffer) :
    (cache.buffers ++ held).Perm
      (cache.group.buffers ++ (cache.audioHeader.toList ++ cache.videoHeader.toList ++ held)) := by
  simp only [buffers, List.append_assoc]
  exact ((List.perm_append_comm_assoc _ _ _).append_left _).trans
    (List.perm_append_comm_assoc _ _ _)

theorem balanced_enter {numbered : NumberedFrame} (hmem : numbered.buffer ∈ held)
    (hbalanced : pool.Balanced (cache.buffers ++ held)) :
    (cache.enter pool numbered).2.2.Balanced
      ((cache.enter pool numbered).2.1.buffers ++ held) := by
  have hclaimed := hbalanced.claim (List.mem_append_right _ hmem)
  have hgroup := hclaimed.perm (((buffers_perm cache held).cons _).trans List.perm_middle.symm)
  unfold enter
  simp only
  split
  · exact balanced_setHeader _ hclaimed
  · split
    · split
      · exact (GroupCache.balanced_start hgroup).perm
          (buffers_perm { cache with group := _ } held).symm
      · exact hbalanced
    · exact (GroupCache.balanced_push hgroup).perm
        (buffers_perm { cache with group := _ } held).symm

end MediaCache

namespace OutboundQueue

variable {queue : OutboundQueue}

/-- A message takes its claim into the queue, or gives it up. -/
theorem balanced_send {message : OutboundMessage}
    (hbalanced : pool.Balanced (message.payload.buffer?.toList ++ (queue.buffers ++ held))) :
    (queue.send pool message).2.2.Balanced ((queue.send pool message).2.1.buffers ++ held) := by
  unfold send
  split
  · refine hbalanced.perm ((List.perm_append_comm_assoc _ _ _).trans ?_)
    cases hbuffer : message.payload.buffer? <;> simp [buffers, hbuffer]
  · exact hbalanced.releaseAll

theorem buffers_of_receive? {message : OutboundMessage} {rest : OutboundQueue}
    (hreceive : queue.receive? = some (message, rest)) :
    queue.buffers = message.payload.buffer?.toList ++ rest.buffers := by
  unfold receive? at hreceive
  split at hreceive
  · cases hreceive
  · rename_i first messages hmessages
    obtain ⟨rfl, rfl⟩ := Prod.mk.inj (Option.some.inj hreceive)
    cases hbuffer : first.payload.buffer? <;> simp [buffers, hmessages, hbuffer]

end OutboundQueue

end

/-! ## Relays -/

namespace Relay

def cachedBuffers (relay : Relay) : List RentedBuffer :=
  relay.publications.flatMap fun publication => publication.cache.buffers

def queuedBuffers (relay : Relay) : List RentedBuffer :=
  relay.queues.flatMap OutboundQueue.buffers

def holders (relay : Relay) : List RentedBuffer :=
  relay.cachedBuffers ++ relay.queuedBuffers ++ relay.kept

variable {relay : Relay} {place : Nat} {observers : List Observer}
  {inHand : List RentedBuffer}

/-- The books are balanced against the holders and the claims in hand.
Observers that give their claims back keep nothing. -/
structure Holds (observers : List Observer) (relay : Relay) (inHand : List RentedBuffer) :
    Prop where
  balanced : relay.pool.Balanced (inHand ++ relay.holders)
  observed : relay.observers = observers
  kept : (∀ observer ∈ observers, observer.keeps = false) → relay.kept = []

theorem Holds.perm {others : List RentedBuffer} (hholds : Holds observers relay inHand)
    (hperm : inHand.Perm others) : Holds observers relay others :=
  { hholds with balanced := hholds.balanced.perm (hperm.append_right _) }

theorem Holds.claim {buffer : RentedBuffer} (hholds : Holds observers relay inHand)
    (hmem : buffer ∈ inHand) : Holds observers (relay.claim buffer) (buffer :: inHand) :=
  { hholds with balanced := hholds.balanced.claim (List.mem_append_left _ hmem) }

theorem Holds.release {buffer : RentedBuffer}
    (hholds : Holds observers relay (buffer :: inHand)) :
    Holds observers (relay.release buffer) inHand :=
  { hholds with balanced := hholds.balanced.release }

/-- One cache and everything else. -/
theorem Holds.exists_others_of_publication {publication : Publication}
    (hholds : Holds observers relay inHand)
    (hfound : relay.publications[place]? = some publication) :
    ∃ others, relay.pool.Balanced (inHand ++ (publication.cache.buffers ++ others)) ∧
      ∀ (change : Publication → Publication) (cache : MediaCache) (pool : BufferPool)
        (left : List RentedBuffer),
        (∀ publication, (change publication).cache = cache) →
          pool.Balanced (left ++ (cache.buffers ++ others)) →
            Holds observers { relay.updatePublication place change with pool := pool } left := by
  obtain ⟨others, hbefore, hafter⟩ :=
    exists_flatMap_perm (fun publication => publication.cache.buffers) hfound
  refine ⟨others ++ (relay.queuedBuffers ++ relay.kept), ?_,
    fun change cache pool left hchange hbalanced => ?_⟩
  · refine hholds.balanced.perm (List.Perm.append_left _ ?_)
    simpa only [holders, cachedBuffers, List.append_assoc] using
      hbefore.append_right (relay.queuedBuffers ++ relay.kept)
  · refine { hholds with balanced := hbalanced.perm (List.Perm.append_left _ ?_) }
    have hholders : { relay.updatePublication place change with pool := pool }.holders =
        (relay.publications.set place (change publication)).flatMap
            (fun publication => publication.cache.buffers) ++
          relay.queuedBuffers ++ relay.kept := by
      have hset : relay.publications.modify place change =
          relay.publications.set place (change publication) := by
        rw [List.modify_eq_set_getElem?, hfound]
        rfl
      rw [← hset]
      rfl
    rw [hholders]
    simpa only [hchange, List.append_assoc] using
      (hafter (change publication)).symm.append_right (relay.queuedBuffers ++ relay.kept)

/-- One queue and everything else. -/
theorem Holds.exists_others_of_queue {queue : OutboundQueue}
    (hholds : Holds observers relay inHand) (hfound : relay.queues[place]? = some queue) :
    ∃ others, relay.pool.Balanced (inHand ++ (queue.buffers ++ others)) ∧
      ∀ (put : OutboundQueue) (pool : BufferPool) (left : List RentedBuffer),
        pool.Balanced (left ++ (put.buffers ++ others)) →
          Holds observers { relay with queues := relay.queues.set place put, pool := pool }
            left := by
  obtain ⟨others, hbefore, hafter⟩ := exists_flatMap_perm OutboundQueue.buffers hfound
  have hqueued : ∀ queued, (relay.cachedBuffers ++ queued ++ relay.kept).Perm
      (queued ++ (relay.cachedBuffers ++ relay.kept)) := fun queued => by
    rw [List.append_assoc]
    exact List.perm_append_comm_assoc _ _ _
  refine ⟨others ++ (relay.cachedBuffers ++ relay.kept), ?_, fun put pool left hbalanced => ?_⟩
  · refine hholds.balanced.perm (List.Perm.append_left _ ?_)
    rw [← List.append_assoc]
    exact (hqueued relay.queuedBuffers).trans (hbefore.append_right _)
  · refine { hholds with balanced := hbalanced.perm (List.Perm.append_left _ ?_) }
    rw [← List.append_assoc]
    exact ((hafter put).symm.append_right _).trans (hqueued _).symm

theorem Holds.updatePublication (hholds : Holds observers relay inHand) (place : Nat)
    {change : Publication → Publication}
    (hchange : ∀ publication, (change publication).cache.buffers = publication.cache.buffers) :
    Holds observers (relay.updatePublication place change) inHand := by
  have hholders : (relay.updatePublication place change).holders = relay.holders := by
    rw [holders, cachedBuffers, Relay.updatePublication, flatMap_modify hchange]
    rfl
  exact { hholds with balanced := hholders ▸ hholds.balanced }

theorem holds_foldl {α σ : Type} (relayOf : σ → Relay) {step : σ → α → σ} {items : List α}
    {state : σ}
    (hstep : ∀ state, ∀ item ∈ items, Holds observers (relayOf state) inHand →
      Holds observers (relayOf (step state item)) inHand)
    (hholds : Holds observers (relayOf state) inHand) :
    Holds observers (relayOf (items.foldl step state)) inHand := by
  induction items generalizing state with
  | nil => exact hholds
  | cons item items ih =>
      exact ih (fun state other hother => hstep state other (List.mem_cons_of_mem _ hother))
        (hstep state item List.mem_cons_self hholds)

/-! ### Queues -/

theorem Holds.send {message : OutboundMessage}
    (hholds : Holds observers relay (message.payload.buffer?.toList ++ inHand)) :
    Holds observers (relay.send place message).2 inHand := by
  cases hfound : relay.queues[place]? with
  | none =>
      have hqueues : (relay.send place message).2 =
          { relay with pool := relay.pool.releaseAll message.payload.buffer?.toList } := by
        simp [Relay.send, hfound, OutboundQueue.send,
          List.set_eq_of_length_le (List.getElem?_eq_none_iff.mp hfound)]
      rw [hqueues]
      have hbalanced := hholds.balanced
      rw [List.append_assoc] at hbalanced
      exact { hholds with balanced := hbalanced.releaseAll }
  | some queue =>
      obtain ⟨others, hbalanced, hafter⟩ := hholds.exists_others_of_queue hfound
      rw [List.append_assoc] at hbalanced
      have hsent := hbalanced.perm ((List.perm_append_comm_assoc _ _ _).append_left _)
      simp only [Relay.send, hfound, Option.getD_some]
      exact hafter _ _ _ ((OutboundQueue.balanced_send hsent).perm
        (List.perm_append_comm_assoc _ _ _))

theorem Holds.sendAll {messages : List OutboundMessage}
    (hholds : Holds observers relay (messages.filterMap (·.payload.buffer?) ++ inHand)) :
    Holds observers (relay.sendAll place messages) inHand := by
  induction messages generalizing relay with
  | nil => exact hholds
  | cons message messages ih =>
      refine ih (hholds.perm ?_).send
      cases hbuffer : message.payload.buffer? <;> simp [hbuffer]

theorem Holds.receive? {message : OutboundMessage} {received : Relay}
    (hholds : Holds observers relay inHand)
    (hreceive : relay.receive? place = some (message, received)) :
    Holds observers received (message.payload.buffer?.toList ++ inHand) := by
  unfold Relay.receive? at hreceive
  split at hreceive
  · rename_i first rest hqueue
    obtain ⟨rfl, rfl⟩ := Prod.mk.inj (Option.some.inj hreceive)
    obtain ⟨queue, hfound, hrest⟩ := Option.bind_eq_some_iff.mp hqueue
    obtain ⟨others, hbalanced, hafter⟩ := hholds.exists_others_of_queue hfound
    rw [OutboundQueue.buffers_of_receive? hrest, List.append_assoc] at hbalanced
    refine hafter _ _ _ (hbalanced.perm ?_)
    rw [List.append_assoc]
    exact List.perm_append_comm_assoc _ _ _
  · cases hreceive

theorem Holds.receiveSome (hholds : Holds observers relay inHand) (count : Nat) :
    Holds observers (relay.receiveSome place count).2 inHand := by
  induction count generalizing relay with
  | zero => exact hholds
  | succ count ih =>
      rw [Relay.receiveSome]
      split
      · exact hholds
      · rename_i message received hreceive
        have hreceived := hholds.receive? hreceive
        have hbalanced := hreceived.balanced
        rw [List.append_assoc] at hbalanced
        exact ih { hreceived with balanced := hbalanced.releaseAll }

theorem Holds.closeQueue (hholds : Holds observers relay inHand) :
    Holds observers (relay.closeQueue place) inHand := by
  have hqueued : (relay.closeQueue place).holders = relay.holders := by
    have hclose : ∀ queue : OutboundQueue, queue.close.buffers = queue.buffers := fun _ => rfl
    rw [holders, queuedBuffers, Relay.closeQueue, flatMap_modify hclose]
    rfl
  exact { hholds with balanced := hqueued ▸ hholds.balanced }

theorem Holds.openQueue (hholds : Holds observers relay inHand) :
    Holds observers relay.openQueue.2 inHand := by
  have hqueued : relay.openQueue.2.holders = relay.holders := by
    simp [holders, cachedBuffers, queuedBuffers, Relay.openQueue, OutboundQueue.buffers]
  exact { hholds with balanced := hqueued ▸ hholds.balanced }

theorem Holds.hangUpQueue (hholds : Holds observers relay inHand) :
    Holds observers (relay.hangUpQueue place) inHand := by
  unfold Relay.hangUpQueue
  split
  · rename_i queue hfound
    obtain ⟨others, hbalanced, hafter⟩ := hholds.exists_others_of_queue hfound
    exact hafter (queue.hangUp relay.pool).1 _ _
      (hbalanced.perm (List.perm_append_comm_assoc _ _ _)).releaseAll
  · exact hholds

/-! ### Observers -/

theorem Holds.observe (hholds : Holds observers relay inHand) (path : StreamPath)
    (observation : Observation) :
    Holds observers (relay.observe path observation) inHand :=
  holds_foldl id (fun _ _ _ hshown => { hshown with }) hholds

theorem Holds.showKeyFrameTo {numbered : NumberedFrame} {observer : Observer}
    (hholds : Holds observers relay inHand) (hmem : numbered.buffer ∈ inHand)
    (hobserver : observer ∈ observers) (path : StreamPath) :
    Holds observers (showKeyFrameTo path numbered relay observer) inHand := by
  have hclaimed := hholds.claim hmem
  unfold Relay.showKeyFrameTo
  simp only
  split
  · rename_i hkeeps
    refine { hclaimed with balanced := hclaimed.balanced.perm ?_, kept := fun hdrops => ?_ }
    · simp only [holders, List.cons_append, ← List.append_assoc]
      exact (List.perm_append_singleton _ _).symm
    · exact absurd hkeeps (by simp [hdrops observer hobserver])
  · exact Holds.release { hclaimed with }

theorem Holds.showKeyFrame {numbered : NumberedFrame}
    (hholds : Holds observers relay inHand) (hmem : numbered.buffer ∈ inHand)
    (path : StreamPath) :
    Holds observers (relay.showKeyFrame path numbered) inHand := by
  unfold Relay.showKeyFrame
  rw [hholds.observed]
  exact holds_foldl id
    (fun _ _ hobserver hshown => hshown.showKeyFrameTo hmem hobserver path) hholds

theorem Holds.showChange {numbered : NumberedFrame} (hholds : Holds observers relay inHand)
    (hmem : numbered.buffer ∈ inHand) (path : StreamPath) (change : CacheChange) :
    Holds observers (relay.showChange path numbered change) inHand := by
  cases change with
  | unnoticed => exact hholds
  | headerSet => exact hholds.observe path _
  | groupStarted cleared =>
      cases cleared with
      | true => exact (hholds.observe path _).showKeyFrame hmem path
      | false => exact hholds.showKeyFrame hmem path

/-! ### Distribution -/

/-- A frame that has entered the cache is still in hand. -/
theorem Holds.enter {frame : MediaFrame} {timestamp : UInt32} {payload : Bytes}
    {change : CacheChange} {numbered : NumberedFrame} {entered : Relay}
    (hholds : Holds observers relay [])
    (henter : relay.enter place frame timestamp payload = some (change, numbered, entered)) :
    Holds observers entered [numbered.buffer] := by
  unfold Relay.enter at henter
  split at henter
  · cases henter
  · rename_i publication hfound
    simp only [Option.some.injEq, Prod.mk.injEq] at henter
    obtain ⟨-, rfl, rfl⟩ := henter
    obtain ⟨others, hbalanced, hafter⟩ := hholds.exists_others_of_publication hfound
    rw [List.nil_append] at hbalanced
    let numbered : NumberedFrame :=
      ⟨frame, publication.sequence + 1, timestamp, (relay.pool.rent payload).1⟩
    have hrented : (relay.pool.rent payload).2.Balanced
        (publication.cache.buffers ++ numbered.buffer :: others) :=
      (hbalanced.rent payload).perm List.perm_middle.symm
    exact hafter _ _ _ _ (fun _ => rfl)
      ((MediaCache.balanced_enter List.mem_cons_self hrented).perm List.perm_middle)

theorem Holds.deliver {numbered : NumberedFrame} (hholds : Holds observers relay inHand)
    (hmem : numbered.buffer ∈ inHand) (subscriber : Nat) :
    Holds observers (relay.deliver numbered subscriber).2 inHand := by
  unfold Relay.deliver
  split
  · exact hholds
  · rename_i subscription _
    split
    · exact hholds
    · split
      · exact { hholds with }
      · have hbuffer : (subscription.messageFor numbered).payload.buffer? =
            some numbered.buffer := by
          unfold Subscription.messageFor OutboundMessage.media
          split <;> rfl
        refine Holds.send ?_
        rw [hbuffer]
        exact hholds.claim hmem

theorem Holds.broadcast {numbered : NumberedFrame} (hholds : Holds observers relay inHand)
    (hmem : numbered.buffer ∈ inHand) :
    Holds observers (relay.broadcast place numbered).2 inHand := by
  unfold Relay.broadcast deliverAll
  exact holds_foldl Prod.snd
    (fun _ subscriber _ hdelivered => hdelivered.deliver hmem subscriber) hholds

theorem Holds.finish {numbered : NumberedFrame} (path : StreamPath) (tally : DeliveryTally)
    (hholds : Holds observers relay (numbered.buffer :: inHand)) :
    Holds observers (relay.finish place path numbered tally) inHand := by
  refine Holds.release (Holds.observe (Holds.updatePublication hholds place ?_) path _)
  exact fun _ => rfl

theorem Holds.distribute (hholds : Holds observers relay []) (kind : MediaKind)
    (timestamp : UInt32) (payload : Bytes) :
    Holds observers (relay.distribute place kind timestamp payload).2 [] := by
  unfold Relay.distribute
  simp only
  split
  · exact hholds
  · rename_i change numbered entered henter
    have hmem : numbered.buffer ∈ [numbered.buffer] := List.mem_singleton_self _
    exact (((hholds.enter henter).broadcast hmem).showChange hmem _ change).finish _ _

theorem Holds.distributeMetadata (hholds : Holds observers relay inHand)
    (metadata : Properties) :
    Holds observers (relay.distributeMetadata place metadata).2 inHand := by
  unfold Relay.distributeMetadata
  split
  · exact hholds
  · refine Holds.updatePublication (holds_foldl Prod.snd ?_ hholds) place ?_
    rotate_left
    · exact fun _ => rfl
    intro state subscriber _ hsent
    simp only
    split
    · exact hsent
    · exact Holds.send hsent

/-! ### Registration -/

theorem Holds.startPublishing {request : PublishRequest} {started : Relay}
    (hholds : Holds observers relay inHand)
    (hstart : relay.startPublishing request = .ok (place, started)) :
    Holds observers started inHand := by
  unfold Relay.startPublishing at hstart
  split at hstart
  · cases hstart
  · simp only [Except.ok.injEq, Prod.mk.injEq] at hstart
    obtain ⟨-, rfl⟩ := hstart
    refine { hholds with balanced := ?_ }
    simpa [holders, cachedBuffers, queuedBuffers, MediaCache.buffers, GroupCache.buffers]
      using hholds.balanced

theorem Holds.clearCache (hholds : Holds observers relay inHand) (place : Nat) :
    Holds observers (relay.clearCache place) inHand := by
  unfold Relay.clearCache
  split
  · rename_i publication hfound
    obtain ⟨others, hbalanced, hafter⟩ := hholds.exists_others_of_publication hfound
    refine hafter _ _ _ _ (fun _ => rfl) (?_ : BufferPool.Balanced _ (_ ++ ([] ++ _)))
    exact MediaCache.balanced_clear (hbalanced.perm (List.perm_append_comm_assoc _ _ _))
  · exact hholds

theorem buffers_endMessages (subscription : Subscription) :
    subscription.endMessages.filterMap (·.payload.buffer?) = [] := rfl

theorem Holds.endSubscription (hholds : Holds observers relay inHand) (place : Nat) :
    Holds observers (relay.endSubscription place) inHand := by
  unfold Relay.endSubscription
  split
  · rename_i subscription _
    split
    · exact hholds
    · refine Holds.sendAll ?_
      rw [buffers_endMessages]
      exact { hholds with }
  · exact hholds

theorem Holds.stopPublishing (hholds : Holds observers relay inHand) (place : Nat) :
    Holds observers (relay.stopPublishing place).2 inHand := by
  unfold Relay.stopPublishing
  split
  · rename_i publication _
    split
    · let erased := { relay with directory := relay.directory.erase publication.path }
      have herased : Holds observers erased inHand := { hholds with }
      have hcleared : Holds observers ((erased.clearCache place).clearMetadata place) inHand :=
        (herased.clearCache place).updatePublication place fun _ => rfl
      refine holds_foldl id (fun _ subscriber _ hended => hended.endSubscription subscriber) ?_
      refine hcleared.updatePublication place ?_
      exact fun _ => rfl
    · exact hholds
  · exact hholds

theorem Holds.discard (hholds : Holds observers relay inHand) (place : Nat) :
    Holds observers (relay.discard place) inHand := by
  unfold Relay.discard
  split
  · split
    · exact hholds
    · exact hholds.clearCache place
  · exact hholds

theorem filterMap_buffer?_media (kind : MediaKind) (streamId timestamp : UInt32)
    (buffer : RentedBuffer) :
    (OutboundMessage.media kind streamId timestamp buffer).payload.buffer? = some buffer := by
  cases kind <;> rfl

/-- A new viewer is sent what the cache holds, and nothing else with a buffer. -/
theorem primingMessages_perm (cache : MediaCache) (subscription : Subscription) :
    ((cache.primingMessages subscription).filterMap (·.payload.buffer?)).Perm
      cache.buffers := by
  have hmetadata : (cache.metadata.toList.map subscription.metadataMessage).filterMap
      (·.payload.buffer?) = [] := by
    cases cache.metadata <;> rfl
  have hheader (kind : MediaKind) (header : Option RentedBuffer) :
      (header.toList.map (OutboundMessage.media kind subscription.streamId 0)).filterMap
        (·.payload.buffer?) = header.toList := by
    cases header <;> simp [filterMap_buffer?_media]
  have hgroup : (cache.group.entries.map fun entry =>
      OutboundMessage.media entry.kind subscription.streamId entry.timestamp
        entry.buffer).filterMap (·.payload.buffer?) = cache.group.buffers := by
    simp [List.filterMap_map, filterMap_buffer?_media, GroupCache.buffers]
  simp only [MediaCache.primingMessages, List.filterMap_append, hheader, hmetadata, hgroup,
    List.append_nil, MediaCache.buffers]
  exact List.perm_append_comm.append_right _

theorem publications_sendAll (relay : Relay) (queue : Nat) (messages : List OutboundMessage) :
    (relay.sendAll queue messages).publications = relay.publications := by
  refine foldl_keeps publications (fun relay message => ?_) messages relay
  rfl

theorem Holds.claimAll {buffers : List RentedBuffer} (hholds : Holds observers relay inHand)
    (hsubset : buffers ⊆ relay.holders) :
    Holds observers { relay with pool := relay.pool.claimAll buffers } (buffers ++ inHand) := by
  refine { hholds with balanced := ?_ }
  rw [List.append_assoc]
  exact hholds.balanced.claimAll (List.subset_append_of_subset_right _ hsubset)

theorem Holds.join {publication : Publication} (hholds : Holds observers relay inHand)
    (hfound : relay.publications[place]? = some publication) (request : SubscribeRequest) :
    Holds observers (relay.join place publication.cache request).2 inHand := by
  let subscription := request.subscription publication.cache
  let started := relay.sendAll request.queue subscription.startMessages
  have hstarted : Holds observers started inHand := Holds.sendAll hholds
  have hcached : publication.cache.buffers ⊆ started.holders := by
    have hmem : publication ∈ started.publications := by
      rw [publications_sendAll]
      exact List.mem_of_getElem? hfound
    intro buffer hbuffer
    exact List.mem_append_left _ (List.mem_append_left _ (List.mem_flatMap.mpr ⟨_, hmem, hbuffer⟩))
  have hprimed : Holds observers (relay.prime publication.cache request) inHand :=
    Holds.sendAll ((hstarted.claimAll hcached).perm
      ((primingMessages_perm publication.cache subscription).symm.append_right inHand))
  refine Holds.updatePublication ?_ place ?_
  · exact { hprimed with }
  · exact fun _ => rfl

theorem Holds.stopSubscribing (hholds : Holds observers relay inHand)
    (published subscription : Nat) :
    Holds observers (relay.stopSubscribing published subscription).2 inHand := by
  unfold Relay.stopSubscribing
  split
  · split
    · refine hholds.updatePublication published ?_
      exact fun _ => rfl
    · exact hholds
  · exact hholds

theorem Holds.releaseKept (hholds : Holds observers relay inHand) :
    Holds observers relay.releaseKept inHand := by
  refine { hholds with balanced := ?_, kept := fun _ => rfl }
  have hperm : (inHand ++ relay.holders).Perm
      (relay.kept ++ (inHand ++ (relay.cachedBuffers ++ relay.queuedBuffers))) := by
    rw [holders, ← List.append_assoc inHand]
    exact List.perm_append_comm
  have hreleased := (hholds.balanced.perm hperm).releaseAll
  rwa [← List.append_nil (relay.cachedBuffers ++ relay.queuedBuffers)] at hreleased

/-! ### Runs -/

theorem Holds.afterCall (hholds : Holds observers relay []) (call : RegistryCall) :
    Holds observers (relay.call call).2 [] := by
  cases call with
  | publish request =>
      rcases relay.call_publish request with ⟨_, _, hstart, hcalled⟩ | ⟨_, _, hcalled⟩
      · rw [hcalled]
        exact hholds.startPublishing hstart
      · rw [hcalled]
        exact hholds
  | unpublish publication => exact hholds.stopPublishing publication
  | subscribe request =>
      rcases relay.call_subscribe request with ⟨_, _, _, hstart, hcalled⟩ | ⟨_, _, hcalled⟩
      · obtain ⟨publication, -, hfound, -, -, rfl⟩ := startSubscribing_spec hstart
        rw [getElem?_streams_publications] at hfound
        obtain ⟨counted, hcounted, rfl⟩ := Option.map_eq_some_iff.mp hfound
        rw [hcalled]
        exact hholds.join hcounted request
      · rw [hcalled]
        exact hholds
  | unsubscribe publication subscription => exact hholds.stopSubscribing publication subscription
  | find path => exact hholds
  | count => exact hholds

theorem Holds.afterMove (hholds : Holds observers relay []) {traffic : RelayTraffic}
    (hown : ∀ queue message, traffic = .sent queue message → message.payload.buffer? = none) :
    Holds observers (relay.move traffic) [] := by
  cases traffic with
  | frame publication kind timestamp payload =>
      exact hholds.distribute kind timestamp payload
  | described publication metadata => exact hholds.distributeMetadata metadata
  | undescribed publication =>
      refine hholds.updatePublication publication ?_
      exact fun _ => rfl
  | paused subscription isPaused => exact { hholds with }
  | chosen subscription kind isWanted => exact { hholds with }
  | opened => exact hholds.openQueue
  | sent queue message =>
      refine Holds.send ?_
      rw [hown queue message rfl]
      exact hholds
  | received queue count => exact hholds.receiveSome count
  | closed queue => exact hholds.closeQueue
  | hungUp queue => exact hholds.hangUpQueue
  | noted notice => exact { hholds with }
  | logTaken => exact { hholds with }
  | keptReleased => exact hholds.releaseKept
  | discarded held => exact holds_foldl id (fun _ place _ hleft => hleft.discard place) hholds

theorem Holds.afterRun (hholds : Holds observers relay []) {events : List RelayEvent}
    (hown : ∀ queue message, .moved (.sent queue message) ∈ events →
      message.payload.buffer? = none) :
    Holds observers (relay.run events) [] := by
  induction events generalizing relay with
  | nil => exact hholds
  | cons event events ih =>
      have hothers := fun queue message hmem => hown queue message (List.mem_cons_of_mem event hmem)
      cases event with
      | called call => exact ih (hholds.afterCall call) hothers
      | moved traffic =>
          refine ih (hholds.afterMove fun queue message hsent => ?_) hothers
          exact hown queue message (hsent ▸ List.mem_cons_self)

theorem holds_ofConfiguration (configuration : RelayConfiguration) (spread : StreamPath → Nat)
    (maximumPooled maximumCapacity : Nat) (observers : List Observer) :
    Holds observers
      (ofConfiguration configuration spread { maximumPooled, maximumCapacity } observers) [] where
  balanced := BufferPool.balanced_fresh maximumPooled maximumCapacity
  observed := rfl
  kept := fun _ => rfl

/-! ## Stopped publications -/

/-- The publication exists and its cache holds nothing. -/
def IsEmptied (relay : Relay) (place : Nat) : Prop :=
  ∃ stock, relay.stockAt place = some stock ∧ stock.cache.buffers = []

variable {after : Relay}

theorem IsEmptied.of_spares (hemptied : relay.IsEmptied place)
    (hspares : Spares place relay after) : after.IsEmptied place := by
  obtain ⟨stock, hstock, hbuffers⟩ := hemptied
  exact ⟨stock, hspares.stockAt.trans hstock, hbuffers⟩

theorem isEmptied_clearCache {publication : Publication}
    (hfound : relay.publications[place]? = some publication) :
    (relay.clearCache place).IsEmptied place := by
  refine ⟨⟨(publication.cache.clear relay.pool).1.media, publication.sequence⟩, ?_, rfl⟩
  simp [stockAt, clearCache, hfound, updatePublication, Publication.stock]

theorem IsEmptied.clearCache (hemptied : relay.IsEmptied place) (cleared : Nat) :
    (relay.clearCache cleared).IsEmptied place := by
  by_cases hsame : cleared = place
  · obtain ⟨stock, hstock, -⟩ := hemptied
    obtain ⟨publication, hfound, -⟩ := Option.map_eq_some_iff.mp hstock
    exact hsame ▸ isEmptied_clearCache (hsame ▸ hfound)
  · exact hemptied.of_spares (spares_clearCache relay hsame)

/-- Stopping a publication that is listed empties it. -/
theorem isEmptied_stopPublishing (hstopped : (relay.stopPublishing place).1 = true) :
    (relay.stopPublishing place).2.IsEmptied place := by
  unfold stopPublishing at hstopped ⊢
  split
  · rename_i publication hfound
    split
    · let erased := { relay with directory := relay.directory.erase publication.path }
      have hcleared : (erased.clearCache place).IsEmptied place := isEmptied_clearCache hfound
      have hdescribed := hcleared.of_spares (spares_clearMetadata _ place)
      refine IsEmptied.of_spares (hdescribed.of_spares (spares_updatePublication _ place ?_))
        (spares_foldl spares_endSubscription _ _)
      exact fun _ _ => rfl
    · rename_i hgone
      simp [hfound, hgone] at hstopped
  · rename_i hnone
    simp [hnone] at hstopped

theorem stopPublishing_of_false (hstopped : (relay.stopPublishing place).1 = false) :
    (relay.stopPublishing place).2 = relay := by
  unfold stopPublishing at hstopped ⊢
  split
  · rename_i publication hfound
    split
    · rename_i hlisted
      simp [hfound, hlisted] at hstopped
    · rfl
  · rfl

theorem IsEmptied.afterCall (hemptied : relay.IsEmptied place) (call : RegistryCall) :
    (relay.call call).2.IsEmptied place := by
  by_cases hcall : call = .unpublish place
  · subst hcall
    show (relay.stopPublishing place).2.IsEmptied place
    cases hstopped : (relay.stopPublishing place).1 with
    | true => exact isEmptied_stopPublishing hstopped
    | false => rwa [stopPublishing_of_false hstopped]
  · have hplace : place < relay.publications.length := by
      obtain ⟨stock, hstock, -⟩ := hemptied
      obtain ⟨publication, hfound, -⟩ := Option.map_eq_some_iff.mp hstock
      exact (List.getElem?_eq_some_iff.mp hfound).choose
    exact hemptied.of_spares (spares_call relay hplace hcall)

theorem IsEmptied.afterMove (hemptied : relay.IsEmptied place) {traffic : RelayTraffic}
    (htraffic : ∀ kind timestamp payload, traffic ≠ .frame place kind timestamp payload) :
    (relay.move traffic).IsEmptied place := by
  by_cases hheld : ∃ held, traffic = .discarded held
  · obtain ⟨held, rfl⟩ := hheld
    show (relay.discardAllBut held).IsEmptied place
    unfold discardAllBut
    generalize (List.range relay.publications.length).filter (· ∉ held) = places
    induction places generalizing relay with
    | nil => exact hemptied
    | cons discarded places ih =>
        refine ih ?_
        unfold discard
        split
        · split
          · exact hemptied
          · exact hemptied.clearCache discarded
        · exact hemptied
  · exact hemptied.of_spares
      (spares_move_of_ne_discarded relay htraffic fun held hsame => hheld ⟨held, hsame⟩)

/-- Without frames of its own an emptied publication stays empty. -/
theorem IsEmptied.afterRun (hemptied : relay.IsEmptied place) {events : List RelayEvent}
    (hframes : ∀ kind timestamp payload,
      .moved (.frame place kind timestamp payload) ∉ events) :
    (relay.run events).IsEmptied place := by
  induction events generalizing relay with
  | nil => exact hemptied
  | cons event events ih =>
      have hothers := fun kind timestamp payload hmem =>
        hframes kind timestamp payload (List.mem_cons_of_mem event hmem)
      cases event with
      | called call => exact ih (hemptied.afterCall call) hothers
      | moved traffic =>
          refine ih (hemptied.afterMove fun kind timestamp payload hframe => ?_) hothers
          exact hframes kind timestamp payload (hframe ▸ List.mem_cons_self)

/-- The publication was stopped, and none of its frames came later. -/
def StoppedForGood (relay : Relay) (events : List RelayEvent) (place : Nat) : Prop :=
  ∃ before after, events = before ++ .called (.unpublish place) :: after ∧
    ((relay.run before).call (.unpublish place)).1 = .unpublished true ∧
    ∀ kind timestamp payload, .moved (.frame place kind timestamp payload) ∉ after

theorem answer_unpublish (relay : Relay) (place : Nat) :
    (relay.call (.unpublish place)).1 = .unpublished (relay.stopPublishing place).1 := rfl

theorem isEmptied_of_stoppedForGood {events : List RelayEvent}
    (hstopped : relay.StoppedForGood events place) : (relay.run events).IsEmptied place := by
  obtain ⟨before, after, rfl, hanswer, hframes⟩ := hstopped
  have hrun : relay.run (before ++ .called (.unpublish place) :: after) =
      ((relay.run before).stopPublishing place).2.run after := by
    simp only [run, List.foldl_append, List.foldl_cons]
    rfl
  rw [hrun]
  rw [answer_unpublish] at hanswer
  exact (isEmptied_stopPublishing (RegistryAnswer.unpublished.inj hanswer)).afterRun hframes

theorem cachedBuffers_eq_nil
    (hemptied : ∀ place < relay.publications.length, relay.IsEmptied place) :
    relay.cachedBuffers = [] := by
  refine List.flatMap_eq_nil_iff.mpr fun publication hmem => ?_
  obtain ⟨place, hlt, rfl⟩ := List.getElem_of_mem hmem
  obtain ⟨stock, hstock, hbuffers⟩ := hemptied place hlt
  rw [stockAt, List.getElem?_eq_getElem hlt] at hstock
  rw [← Option.some.inj hstock] at hbuffers
  exact hbuffers

theorem queuedBuffers_eq_nil (hdrained : ∀ queue ∈ relay.queues, queue.messages = []) :
    relay.queuedBuffers = [] := by
  refine List.flatMap_eq_nil_iff.mpr fun queue hmem => ?_
  rw [OutboundQueue.buffers, hdrained queue hmem, List.filterMap_nil]

/-- Outstanding are the buffers that a cache or a queue holds, and none when all
streams have stopped and all queues are empty. -/
theorem outstanding_run (configuration : RelayConfiguration) (spread : StreamPath → Nat)
    (maximumPooled maximumCapacity : Nat) {observers : List Observer}
    (hdrops : ∀ observer ∈ observers, observer.keeps = false) {events : List RelayEvent}
    (hown : ∀ queue message, .moved (.sent queue message) ∈ events →
      message.payload.buffer? = none) :
    let start :=
      ofConfiguration configuration spread { maximumPooled, maximumCapacity } observers
    let relay := start.run events
    relay.pool.outstanding =
        RentedBuffer.distinct (relay.cachedBuffers ++ relay.queuedBuffers) ∧
      ((∀ place < relay.publications.length, start.StoppedForGood events place) →
        (∀ queue ∈ relay.queues, queue.messages = []) →
          relay.pool.outstanding = 0 ∧ relay.pool.rented = relay.pool.returned) := by
  intro start relay
  have hholds : Holds observers relay [] :=
    (holds_ofConfiguration configuration spread maximumPooled maximumCapacity
      observers).afterRun hown
  have hbalanced : relay.pool.Balanced (relay.cachedBuffers ++ relay.queuedBuffers) := by
    have hholders := hholds.balanced
    rwa [holders, hholds.kept hdrops, List.append_nil, List.nil_append] at hholders
  refine ⟨hbalanced.outstanding_eq, fun hstopped hdrained => ?_⟩
  have hcached : relay.cachedBuffers = [] :=
    cachedBuffers_eq_nil fun place hlt => isEmptied_of_stoppedForGood (hstopped place hlt)
  rw [hcached, queuedBuffers_eq_nil hdrained] at hbalanced
  have hnone : relay.pool.outstanding = 0 := hbalanced.outstanding_eq
  refine ⟨hnone, ?_⟩
  rw [hbalanced.rented_eq_returned_add, hnone, Nat.add_zero]

def metered : Relay :=
  ofConfiguration {} (fun _ => 0) {} [⟨"meter", false⟩]

/-- A key frame and a frame after it are played by one viewer. -/
def oneViewer : List RelayEvent :=
  [.called (.publish ⟨1, ⟨"/live/demo"⟩, [], "live"⟩), .moved .opened,
    .called (.subscribe ⟨2, 1, ⟨"/live/demo"⟩, [], 0⟩),
    .moved (.frame 0 .video 0 [0x17, 0x01]), .moved (.frame 0 .video 40 [0x27, 0x01])]

/-- The stream is stopped, and the viewer gets all that waits for him. -/
def nobodyLeft : List RelayEvent :=
  oneViewer ++ [.called (.unpublish 0), .moved (.received 0 10)]

/-- Two buffers are held by the cache and by the queue, and both come back. -/
theorem outstanding_run_oneViewer :
    (metered.run oneViewer).pool.outstanding =
        RentedBuffer.distinct ((metered.run oneViewer).cachedBuffers ++
          (metered.run oneViewer).queuedBuffers) ∧
      (metered.run oneViewer).pool.outstanding = 2 ∧
      (metered.run nobodyLeft).pool.outstanding = 0 ∧
      (metered.run nobodyLeft).pool.rented = (metered.run nobodyLeft).pool.returned := by
  have hdrops : ∀ observer ∈ [⟨"meter", false⟩], Observer.keeps observer = false := by simp
  have hplayed : ∀ queue message, .moved (.sent queue message) ∈ oneViewer →
      message.payload.buffer? = none := by simp [oneViewer]
  have hown : ∀ queue message, .moved (.sent queue message) ∈ nobodyLeft →
      message.payload.buffer? = none := by simp [nobodyLeft, oneViewer]
  have hstopped : ∀ place < (metered.run nobodyLeft).publications.length,
      metered.StoppedForGood nobodyLeft place := by
    intro place hplace
    have hlength : (metered.run nobodyLeft).publications.length = 1 := by decide +kernel
    rw [hlength] at hplace
    obtain rfl : place = 0 := Nat.lt_one_iff.mp hplace
    have hanswer : ((metered.run oneViewer).stopPublishing 0).1 = true := by decide +kernel
    refine ⟨oneViewer, [.moved (.received 0 10)], rfl, ?_, by simp⟩
    rw [answer_unpublish, hanswer]
  have hdrained : ∀ queue ∈ (metered.run nobodyLeft).queues, queue.messages = [] := by
    have hqueues : (metered.run nobodyLeft).queues = [{}] := by decide +kernel
    rw [hqueues]
    simp
  have hplaying := (outstanding_run {} (fun _ => 0) 256 1048576 hdrops hplayed).1
  have hgone := (outstanding_run {} (fun _ => 0) 256 1048576 hdrops hown).2
  exact ⟨hplaying, by decide +kernel, hgone hstopped hdrained⟩

end Relay

end LiveRelay
