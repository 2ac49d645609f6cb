import LiveRelay.Proofs.Airing
import LiveRelay.Proofs.Ownership

/-!
# Runs of a relay

A relay is called by the sessions that share it, to publish and to play, and
between the calls frames and messages are moved.  The calls change who
publishes and plays what.  The traffic never does.
-/

namespace LiveRelay

/-! ## Calls and traffic -/

/-- What a registry is asked.  Publications and subscriptions are known by their
places, which stay valid when they are over. -/
inductive RegistryCall where
  | publish (request : PublishRequest)
  | unpublish (publication : Nat)
  | subscribe (request : SubscribeRequest)
  | unsubscribe (publication subscription : Nat)
  | find (path : StreamPath)
  | count

inductive RegistryAnswer where
  | published (outcome : Except RegistryError Nat)
  | unpublished (done : Bool)
  | subscribed (outcome : Except RegistryError (Nat × Nat))
  | unsubscribed (done : Bool)
  | found (publication : Option Nat)
  | counted (streams : Nat)

inductive RelayTraffic where
  | frame (publication : Nat) (kind : MediaKind) (timestamp : UInt32) (payload : Bytes)
  | described (publication : Nat) (metadata : Properties)
  | undescribed (publication : Nat)
  | paused (subscription : Nat) (isPaused : Bool)
  | chosen (subscription : Nat) (kind : MediaKind) (isWanted : Bool)
  | opened
  | sent (queue : Nat) (message : OutboundMessage)
  | received (queue count : Nat)
  | closed (queue : Nat)
  | hungUp (queue : Nat)
  | noted (notice : Notice)
  | logTaken
  | keptReleased
  /-- Publications that are stopped and not held any more are given up. -/
  | discarded (held : List Nat)

inductive RelayEvent where
  | called (call : RegistryCall)
  | moved (traffic : RelayTraffic)

namespace Relay

def call (relay : Relay) : RegistryCall → RegistryAnswer × Relay
  | .publish request =>
      match relay.startPublishing request with
      | .ok (place, started) => (.published (.ok place), started)
      | .error error => (.published (.error error), relay)
  | .unpublish publication =>
      let (done, stopped) := relay.stopPublishing publication
      (.unpublished done, stopped)
  | .subscribe request =>
      match relay.startSubscribing request with
      | .ok (places, started) => (.subscribed (.ok places), started)
      | .error error => (.subscribed (.error error), relay)
  | .unsubscribe publication subscription =>
      let (done, stopped) := relay.stopSubscribing publication subscription
      (.unsubscribed done, stopped)
  | .find path => (.found (relay.directory.get? path), relay)
  | .count => (.counted relay.directory.count, relay)

def move (relay : Relay) : RelayTraffic → Relay
  | .frame publication kind timestamp payload =>
      (relay.distribute publication kind timestamp payload).2
  | .described publication metadata =>
      (relay.distributeMetadata publication metadata).2
  | .undescribed publication => relay.clearMetadata publication
  | .paused subscription isPaused =>
      relay.updateSubscription subscription ({ · with isPaused := isPaused })
  | .chosen subscription kind isWanted =>
      relay.updateSubscription subscription (·.choose kind isWanted)
  | .opened => relay.openQueue.2
  | .sent queue message => (relay.send queue message).2
  | .received queue count => (relay.receiveSome queue count).2
  | .closed queue => relay.closeQueue queue
  | .hungUp queue => relay.hangUpQueue queue
  | .noted notice => relay.note notice
  | .logTaken => relay.takeLog.2
  | .keptReleased => relay.releaseKept
  | .discarded held => relay.discardAllBut held

def handle (relay : Relay) : RelayEvent → Relay
  | .called call => (relay.call call).2
  | .moved traffic => relay.move traffic

def run (relay : Relay) (events : List RelayEvent) : Relay :=
  events.foldl handle relay

/-- A call to publish is answered, and refused ones change nothing. -/
theorem call_publish (relay : Relay) (request : PublishRequest) :
    (∃ place started, relay.startPublishing request = .ok (place, started) ∧
      relay.call (.publish request) = (.published (.ok place), started)) ∨
    ∃ error, relay.startPublishing request = .error error ∧
      relay.call (.publish request) = (.published (.error error), relay) := by
  cases hstart : relay.startPublishing request with
  | ok result => exact .inl ⟨result.1, result.2, rfl, by simp only [Relay.call, hstart]⟩
  | error error => exact .inr ⟨error, rfl, by simp only [Relay.call, hstart]⟩

theorem call_subscribe (relay : Relay) (request : SubscribeRequest) :
    (∃ publication subscription started,
      relay.startSubscribing request = .ok ((publication, subscription), started) ∧
      relay.call (.subscribe request) =
        (.subscribed (.ok (publication, subscription)), started)) ∨
    ∃ error, relay.startSubscribing request = .error error ∧
      relay.call (.subscribe request) = (.subscribed (.error error), relay) := by
  cases hstart : relay.startSubscribing request with
  | ok result =>
      exact .inl
        ⟨result.1.1, result.1.2, result.2, rfl, by simp only [Relay.call, hstart]⟩
  | error error => exact .inr ⟨error, rfl, by simp only [Relay.call, hstart]⟩

/-- Traffic leaves the outline as it is. -/
theorem outline_move (relay : Relay) (traffic : RelayTraffic) :
    (relay.move traffic).outline = relay.outline := by
  cases traffic with
  | frame publication kind timestamp payload =>
      exact relay.outline_distribute publication kind timestamp payload
  | described publication metadata =>
      exact relay.outline_distributeMetadata publication metadata
  | undescribed publication => exact relay.outline_clearMetadata publication
  | paused subscription isPaused =>
      exact relay.outline_updateSubscription subscription fun _ => rfl
  | chosen subscription kind isWanted =>
      refine relay.outline_updateSubscription subscription fun subscription => ?_
      cases kind <;> rfl
  | sent queue message =>
      have hsends : Sends queue _ relay (relay.send queue message).2 :=
        sends_send relay queue message
      exact hsends.outline
  | received queue count =>
      exact outline_of_streams (relay.receiveSome_spec queue count queue).2.1
  | hungUp queue => exact outline_of_streams (relay.streams_hangUpQueue queue)
  | discarded held => exact foldl_keeps outline outline_discard _ relay
  | opened | closed | noted | logTaken | keptReleased => rfl

theorem register_move (relay : Relay) (traffic : RelayTraffic) :
    (relay.move traffic).register = relay.register :=
  register_of_outline (relay.outline_move traffic)

end Relay

/-! ## Listed publications -/

theorem Register.unpublish_of_not_isCurrent {register : Register} {place : Nat}
    (hstale : ¬ register.IsCurrent place) : register.unpublish place = register := by
  unfold unpublish
  split
  · rename_i record hrecord
    exact if_neg fun hcurrent => hstale ⟨record, hrecord, hcurrent⟩
  · rfl

namespace Relay

variable {relay : Relay} {place : Nat}

/-- A publication stays listed until it is stopped. -/
theorem isCurrent_call (hcurrent : relay.register.IsCurrent place) {call : RegistryCall}
    (hcall : call ≠ .unpublish place) :
    (relay.call call).2.register.IsCurrent place := by
  cases call with
  | publish request =>
      rcases relay.call_publish request with ⟨_, _, hstart, hcalled⟩ | ⟨_, _, hcalled⟩
      · obtain ⟨hfree, -, hregister⟩ := relay.register_startPublishing hstart
        rw [hcalled, hregister, Register.isCurrent_publish _ hfree]
        exact .inl hcurrent
      · rw [hcalled]
        exact hcurrent
  | unpublish publication =>
      show (relay.stopPublishing publication).2.register.IsCurrent place
      rw [register_stopPublishing]
      by_cases hstopped : relay.register.IsCurrent publication
      · rw [Register.isCurrent_unpublish hstopped]
        exact ⟨hcurrent, fun hsame => hcall (hsame ▸ rfl)⟩
      · rwa [Register.unpublish_of_not_isCurrent hstopped]
  | subscribe request =>
      rcases relay.call_subscribe request with ⟨_, _, _, hstart, hcalled⟩ | ⟨_, _, hcalled⟩
      · obtain ⟨-, -, hregister⟩ := relay.register_startSubscribing hstart
        rw [hcalled, hregister, Register.subscribe, Register.isCurrent_modifySubscribers]
        exact hcurrent
      · rw [hcalled]
        exact hcurrent
  | unsubscribe publication subscription =>
      show (relay.stopSubscribing publication subscription).2.register.IsCurrent place
      rw [register_stopSubscribing, Register.unsubscribe,
        Register.isCurrent_modifySubscribers]
      exact hcurrent
  | find path => exact hcurrent
  | count => exact hcurrent

end Relay

end LiveRelay
