import LiveRelay.Proofs.Airing
import LiveRelay.Proofs.PlayMessages

/-!
# Viewers

A viewer is one subscription as its session sees it.  It knows its terms and
how many messages wait in its queue, and so which descriptions and frames it
is to be sent.
-/

namespace LiveRelay

/-! ## Viewers -/

/-- One play of a stream, and its terms. -/
structure Viewer where
  /-- The subscription. -/
  place : Nat
  session : Nat
  queue : Nat
  streamId : UInt32
  skipThreshold : Nat
  /-- The last frame of the replay, zero without one. -/
  primedThrough : Nat
  isListed : Bool := true
  isPaused : Bool := false
  receivesAudio : Bool := true
  receivesVideo : Bool := true
  /-- Messages in the queue that were not received yet. -/
  waiting : Nat

namespace Viewer

def receives (viewer : Viewer) : MediaKind → Bool
  | .audio => viewer.receivesAudio
  | .video => viewer.receivesVideo

def choose (viewer : Viewer) (kind : MediaKind) (isWanted : Bool) : Viewer :=
  match kind with
  | .audio => { viewer with receivesAudio := isWanted }
  | .video => { viewer with receivesVideo := isWanted }

/-- Codec configurations always; other frames unless their kind is turned off,
the play is paused, or the viewer does not keep up. -/
def accepts (viewer : Viewer) (frame : MediaFrame) : Bool :=
  frame.isHeader ||
    (viewer.receives frame.kind && !viewer.isPaused &&
      !(frame.isSkippable && viewer.skipThreshold < viewer.waiting))

def gets (viewer : Viewer) : StreamEvent → List WireMessage
  | .frame kind timestamp payload =>
      if viewer.isListed && viewer.accepts (MediaFrame.classify kind payload) then
        [.media viewer.streamId kind timestamp payload]
      else []
  | .described metadata =>
      if viewer.isListed then [.description viewer.streamId metadata] else []
  | _ => []

def after (viewer : Viewer) (event : StreamEvent) : Viewer :=
  match event with
  | .left place =>
      { viewer with isListed := viewer.isListed && place ≠ viewer.place }
  | .paused place isPaused =>
      if place = viewer.place then { viewer with isPaused := isPaused } else viewer
  | .chosen place kind isWanted =>
      if place = viewer.place then viewer.choose kind isWanted else viewer
  | .drained queue count =>
      if queue = viewer.queue then
        { viewer with waiting := viewer.waiting - count }
      else viewer
  | event =>
      { viewer with waiting := viewer.waiting + (viewer.gets event).length }

/-- All that the viewer is sent of some events. -/
def feed (viewer : Viewer) : List StreamEvent → List WireMessage
  | [] => []
  | event :: events => viewer.gets event ++ (viewer.after event).feed events

/-- A viewer at two times. -/
structure SamePlay (viewer later : Viewer) : Prop where
  place : later.place = viewer.place
  session : later.session = viewer.session
  queue : later.queue = viewer.queue
  streamId : later.streamId = viewer.streamId
  skipThreshold : later.skipThreshold = viewer.skipThreshold
  primedThrough : later.primedThrough = viewer.primedThrough

/-- The subscription has the viewer's terms. -/
structure Matches (viewer : Viewer) (subscription : Subscription) : Prop where
  session : subscription.session = viewer.session
  queue : subscription.queue = viewer.queue
  streamId : subscription.streamId = viewer.streamId
  primedThrough : subscription.primedThrough = viewer.primedThrough
  isInitialized : subscription.isInitialized = true
  isPaused : subscription.isPaused = viewer.isPaused
  receivesAudio : subscription.receivesAudio = viewer.receivesAudio
  receivesVideo : subscription.receivesVideo = viewer.receivesVideo

variable {viewer : Viewer} {subscription : Subscription}

theorem Matches.receives (hmatches : viewer.Matches subscription)
    (kind : MediaKind) : subscription.receives kind = viewer.receives kind := by
  cases kind with
  | audio => exact hmatches.receivesAudio
  | video => exact hmatches.receivesVideo

theorem Matches.wants (hmatches : viewer.Matches subscription)
    (numbered : NumberedFrame) :
    (subscription.wants numbered &&
        !(numbered.frame.isSkippable &&
          viewer.skipThreshold < viewer.waiting)) =
      (decide (viewer.primedThrough < numbered.sequence) &&
        viewer.accepts numbered.frame) := by
  unfold Subscription.wants accepts
  rw [hmatches.isInitialized, hmatches.primedThrough, hmatches.receives,
    hmatches.isPaused]
  cases hheader : numbered.frame.isHeader <;>
    simp [MediaFrame.isSkippable, hheader, Bool.and_assoc]

theorem Matches.toWire_messageFor (hmatches : viewer.Matches subscription)
    (numbered : NumberedFrame) :
    (subscription.messageFor numbered).toWire =
      .media viewer.streamId numbered.frame.kind numbered.timestamp
        numbered.buffer.content := by
  rw [Subscription.messageFor, OutboundMessage.toWire_media, hmatches.streamId]

theorem Matches.toWire_metadataMessage (hmatches : viewer.Matches subscription)
    (metadata : Properties) :
    (subscription.metadataMessage metadata).toWire =
      .description viewer.streamId metadata := by
  rw [Subscription.toWire_metadataMessage, hmatches.streamId]

end Viewer

/-! ## The viewer's place in the stream -/

/-- The subscriptions on the list of a publication. -/
def Streams.subscribers (streams : Streams) (published : Nat) : List Nat :=
  (streams.publications[published]?.map Publication.subscribers).getD []

theorem Streams.subscribers_eq {streams : Streams} {published : Nat}
    {publication : Publication}
    (hfound : streams.publications[published]? = some publication) :
    streams.subscribers published = publication.subscribers := by
  simp [subscribers, hfound]

theorem Streams.subscribers_putPublication {streams : Streams} {published : Nat}
    {publication : Publication}
    (hfound : streams.publications[published]? = some publication)
    (changed : Publication) :
    (streams.putPublication published changed).subscribers published =
      changed.subscribers := by
  have hlength := (List.getElem?_eq_some_iff.mp hfound).1
  simp [subscribers, putPublication, hlength]

namespace Viewer

/-- The relay has the viewer's subscription with the viewer's terms, and nobody
else on the list has its queue. -/
structure Follows (viewer : Viewer) (published : Nat) (relay : Relay) : Prop where
  subscribed : ∃ subscription,
    relay.streams.subscriptions[viewer.place]? = some subscription ∧
      viewer.Matches subscription
  listed : viewer.place ∈ relay.streams.subscribers published ↔
    viewer.isListed = true
  sole : relay.streams.IsSole viewer.queue viewer.place
    (relay.streams.subscribers published)
  isOpen : (relay.queueAt viewer.queue).isOpen = true
  waiting : (relay.queueAt viewer.queue).messages.length = viewer.waiting

variable {viewer : Viewer} {threshold published : Nat} {programme : Programme}
  {publication : Publication} {relay before after : Relay}

theorem Follows.afterSends (hfollows : viewer.Follows published before)
    {messages : List OutboundMessage}
    (hsubscription : after.streams.subscriptions[viewer.place]? =
      before.streams.subscriptions[viewer.place]?)
    (hlisted : viewer.place ∈ after.streams.subscribers published ↔
      viewer.place ∈ before.streams.subscribers published)
    (hsole : after.streams.IsSole viewer.queue viewer.place
      (after.streams.subscribers published))
    (hqueue : after.queueAt viewer.queue =
      (before.queueAt viewer.queue).pushAll messages) :
    ({ viewer with waiting := viewer.waiting + messages.length } :
      Viewer).Follows published after := by
  rw [OutboundQueue.pushAll_of_isOpen hfollows.isOpen] at hqueue
  refine ⟨?_, hlisted.trans hfollows.listed, hsole, ?_, ?_⟩
  · obtain ⟨subscription, hbefore, hmatches⟩ := hfollows.subscribed
    exact ⟨subscription, hsubscription.trans hbefore, { hmatches with }⟩
  · rw [hqueue]
    exact hfollows.isOpen
  · rw [hqueue, List.length_append, hfollows.waiting]

theorem Follows.map_messagesTo (hfollows : viewer.Follows published relay)
    (hairs : Airing.Airs viewer.skipThreshold published programme publication relay)
    (numbered : NumberedFrame) :
    (if viewer.place ∈ relay.streams.subscribers published then
        relay.messagesTo viewer.queue numbered viewer.place
      else []).map OutboundMessage.toWire =
      if viewer.isListed && (decide (viewer.primedThrough < numbered.sequence) &&
          viewer.accepts numbered.frame) then
        [.media viewer.streamId numbered.frame.kind numbered.timestamp
          numbered.buffer.content]
      else [] := by
  obtain ⟨subscription, hsubscription, hmatches⟩ := hfollows.subscribed
  have hpending : (relay.queueAt viewer.queue).pending = viewer.waiting := by
    rw [hairs.isCounted viewer.queue hfollows.isOpen, hfollows.waiting]
  cases hlisted : viewer.isListed with
  | false =>
      have habsent : viewer.place ∉ relay.streams.subscribers published := by
        rw [hfollows.listed, hlisted]
        exact Bool.false_ne_true
      rw [if_neg habsent]
      rfl
  | true =>
      rw [if_pos (hfollows.listed.mpr hlisted), Bool.true_and, ← hmatches.wants]
      unfold Relay.messagesTo
      simp only [hsubscription, hmatches.queue, true_and, hpending,
        hairs.skipThreshold]
      cases subscription.wants numbered with
      | false => simp
      | true =>
          by_cases hskip : numbered.frame.isSkippable = true ∧
              viewer.skipThreshold < viewer.waiting
          · simp [hskip]
          · rw [if_pos ⟨rfl, hskip⟩]
            have hkept : (true && !(numbered.frame.isSkippable &&
                decide (viewer.skipThreshold < viewer.waiting))) = true := by
              simpa [← Bool.not_eq_true, Decidable.imp_iff_not_or] using hskip
            rw [if_pos hkept, List.map_singleton, hmatches.toWire_messageFor]

theorem Follows.map_metadataTo (hfollows : viewer.Follows published relay)
    (metadata : Properties) :
    (if viewer.place ∈ relay.streams.subscribers published then
        relay.metadataTo viewer.queue metadata viewer.place
      else []).map OutboundMessage.toWire =
      viewer.gets (.described metadata) := by
  obtain ⟨subscription, hsubscription, hmatches⟩ := hfollows.subscribed
  cases hlisted : viewer.isListed with
  | false =>
      have habsent : viewer.place ∉ relay.streams.subscribers published := by
        rw [hfollows.listed, hlisted]
        exact Bool.false_ne_true
      rw [if_neg habsent]
      simp [gets, hlisted]
  | true =>
      rw [if_pos (hfollows.listed.mpr hlisted)]
      unfold Relay.metadataTo
      simp only [hsubscription]
      rw [if_pos hmatches.queue, List.map_singleton,
        hmatches.toWire_metadataMessage]
      simp [gets, hlisted]

end Viewer

end LiveRelay
