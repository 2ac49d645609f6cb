import LiveRelay.Proofs.StreamOperations

/-!
# Outlines

The outline of a relay is what lasts while frames and messages are moved around:
the limits, which publication is found where and who is on its list, and which
plays there were and whether their streams have ended.  All that is read off the
outline is left alone by whatever leaves the outline alone.
-/

namespace LiveRelay

/-- A publication without its media. -/
def Publication.outline (publication : Publication) : Publication :=
  { publication with
    cache := { group := { maximumBytes := 0 } }, sequence := 0, counters := {} }

/-- A subscription without what its session chooses while it plays. -/
def Subscription.outline (subscription : Subscription) : Subscription :=
  { subscription with
    isPaused := false, receivesAudio := true, receivesVideo := true, dropped := 0 }

namespace Relay

def outline (relay : Relay) : Streams :=
  { relay.streams with
    publications := relay.publications.map Publication.outline
    subscriptions := relay.subscriptions.map Subscription.outline
    told := [] }

variable {before after : Relay} (relay : Relay)

theorem outline_of_streams (hstreams : after.streams = before.streams) :
    after.outline = before.outline := by
  have houtline (relay : Relay) : relay.outline =
      { relay.streams with
        publications := relay.streams.publications.map Publication.outline
        subscriptions := relay.streams.subscriptions.map Subscription.outline
        told := [] } := by
    simp only [outline, streams, List.map_map]
    rfl
  rw [houtline, houtline, hstreams]

theorem Sends.outline {queue : Nat} {messages : List OutboundMessage}
    (hsends : Sends queue messages before after) : after.outline = before.outline :=
  outline_of_streams hsends.streams

theorem outline_updatePublication (place : Nat) {change : Publication → Publication}
    (hchange : ∀ publication, (change publication).outline = publication.outline) :
    (relay.updatePublication place change).outline = relay.outline := by
  simp only [outline, updatePublication]
  rw [map_modify_of_unseen hchange]
  rfl

theorem outline_updateSubscription (place : Nat) {change : Subscription → Subscription}
    (hchange : ∀ subscription, (change subscription).outline = subscription.outline) :
    (relay.updateSubscription place change).outline = relay.outline := by
  simp only [outline, updateSubscription]
  rw [map_modify_of_unseen hchange]
  rfl

theorem outline_clearMetadata (place : Nat) :
    (relay.clearMetadata place).outline = relay.outline :=
  relay.outline_updatePublication place fun _ => rfl

theorem outline_clearCache (place : Nat) :
    (relay.clearCache place).outline = relay.outline := by
  unfold clearCache
  split
  · exact relay.outline_updatePublication place fun _ => rfl
  · rfl

theorem outline_discard (place : Nat) :
    (relay.discard place).outline = relay.outline := by
  unfold discard
  split
  · split
    · rfl
    · exact relay.outline_clearCache place
  · rfl

theorem outline_enter {place : Nat} {frame : MediaFrame} {timestamp : UInt32}
    {payload : Bytes} {change : CacheChange} {numbered : NumberedFrame} {entered : Relay}
    (henter :
      relay.enter place frame timestamp payload = some (change, numbered, entered)) :
    entered.outline = relay.outline := by
  obtain ⟨cache, counters, pool, rfl⟩ := exists_eq_of_enter henter
  exact relay.outline_updatePublication place fun _ => rfl

theorem outline_distribute (place : Nat) (kind : MediaKind) (timestamp : UInt32)
    (payload : Bytes) :
    (relay.distribute place kind timestamp payload).2.outline = relay.outline := by
  rcases relay.distribute_cases place kind timestamp payload with
    hnothing | ⟨change, numbered, entered, henter, hsends⟩
  · rw [hnothing]
  · obtain ⟨messages, hsends⟩ := hsends 0
    exact hsends.outline.trans (relay.outline_enter henter)

theorem outline_distributeMetadata (place : Nat) (metadata : Properties) :
    (relay.distributeMetadata place metadata).2.outline = relay.outline := by
  rcases relay.distributeMetadata_cases place metadata with
    hnothing | ⟨described, hsends, hcached⟩
  · rw [hnothing]
  · obtain ⟨messages, hsends⟩ := hsends 0
    rw [hcached]
    refine (outline_updatePublication _ place ?_).trans hsends.outline
    exact fun _ => rfl

/-! ## What is told -/

theorem told_of_streams (hstreams : after.streams = before.streams) :
    after.told = before.told :=
  congrArg Streams.told hstreams

theorem told_distribute (place : Nat) (kind : MediaKind) (timestamp : UInt32)
    (payload : Bytes) :
    (relay.distribute place kind timestamp payload).2.told = relay.told := by
  rcases relay.distribute_cases place kind timestamp payload with
    hnothing | ⟨change, numbered, entered, henter, hsends⟩
  · rw [hnothing]
  · obtain ⟨messages, hsends⟩ := hsends 0
    have htold := told_of_streams hsends.streams
    obtain ⟨cache, counters, pool, rfl⟩ := exists_eq_of_enter henter
    exact htold

theorem told_distributeMetadata (place : Nat) (metadata : Properties) :
    (relay.distributeMetadata place metadata).2.told = relay.told := by
  rcases relay.distributeMetadata_cases place metadata with
    hnothing | ⟨described, hsends, hcached⟩
  · rw [hnothing]
  · obtain ⟨messages, hsends⟩ := hsends 0
    have htold := told_of_streams hsends.streams
    rw [hcached]
    exact htold

end Relay

end LiveRelay
