import LiveRelay.Proofs.Outlines
import LiveRelay.SessionState

/-!
# The register

The register is what a relay says about who publishes and who plays what.
Caches, queues, counters and buffers are not part of it.  Four operations
change the register: starting and stopping to publish, starting and stopping to
play.  All others leave it as it is, however much they move around.
-/

namespace LiveRelay

structure PublicationRecord where
  path : StreamPath
  session : Nat
  /-- The places of the subscriptions. -/
  subscribers : List Nat
  deriving DecidableEq

structure Register where
  directory : StreamDirectory
  publications : List PublicationRecord
  /-- The session of each subscription. -/
  subscriptions : List Nat

def Publication.record (publication : Publication) : PublicationRecord :=
  ⟨publication.path, publication.session, publication.subscribers⟩

def Relay.register (relay : Relay) : Register :=
  ⟨relay.directory, relay.publications.map Publication.record,
    relay.subscriptions.map Subscription.session⟩

/-! ## Changes of the register -/

namespace Register

def modifySubscribers (register : Register) (place : Nat)
    (change : List Nat → List Nat) : Register :=
  { register with
    publications :=
      register.publications.modify place fun record =>
        { record with subscribers := change record.subscribers } }

def publish (register : Register) (path : StreamPath) (session : Nat) :
    Register :=
  { register with
    directory := register.directory.put path register.publications.length
    publications := register.publications ++ [⟨path, session, []⟩] }

def subscribe (register : Register) (place session : Nat) : Register :=
  { register with
    subscriptions := register.subscriptions ++ [session]
  }.modifySubscribers place (· ++ [register.subscriptions.length])

def unpublish (register : Register) (place : Nat) : Register :=
  match register.publications[place]? with
  | some record =>
      if register.directory.get? record.path = some place then
        { register with
          directory := register.directory.erase record.path
        }.modifySubscribers place fun _ => []
      else register
  | none => register

def unsubscribe (register : Register) (place subscription : Nat) : Register :=
  register.modifySubscribers place (List.filter (· ≠ subscription))

/-- What a stream of a session did is given up. -/
def stop (register : Register) : StreamMode → Register
  | .idle => register
  | .publishing place => register.unpublish place
  | .playing place subscription => register.unsubscribe place subscription

end Register

theorem modify_eq_self_of_fixed {α : Type} {change : α → α} {items : List α}
    {place : Nat} {item : α} (hitem : items[place]? = some item)
    (hfixed : change item = item) :
    items.modify place change = items := by
  apply List.ext_getElem?
  intro index
  rw [List.getElem?_modify]
  by_cases hplace : place = index
  · subst hplace
    simp [hitem, hfixed]
  · simp [hplace]

theorem Register.unsubscribe_of_unlisted {register : Register} {place subscription : Nat}
    (hgone : ∀ record, register.publications[place]? = some record →
      subscription ∉ record.subscribers) :
    register.unsubscribe place subscription = register := by
  unfold unsubscribe modifySubscribers
  cases hrecord : register.publications[place]? with
  | none => rw [List.modify_eq_self (List.getElem?_eq_none_iff.mp hrecord)]
  | some record =>
      have hfixed : record.subscribers.filter (· ≠ subscription) = record.subscribers := by
        refine List.filter_eq_self.mpr fun other hother => decide_eq_true fun hsame => ?_
        exact hgone record hrecord (hsame ▸ hother)
      rw [modify_eq_self_of_fixed hrecord (by rw [hfixed])]

/-! ## Operations that leave the register as it is -/

namespace Relay

variable (relay : Relay)

theorem register_modify (place : Nat) {change : Publication → Publication}
    (after : List Nat → List Nat)
    (hchange : ∀ publication,
      (change publication).record =
        { publication.record with subscribers := after publication.subscribers }) :
    (relay.updatePublication place change).register =
      relay.register.modifySubscribers place after := by
  simp only [register, updatePublication, Register.modifySubscribers]
  rw [map_modify (fun record : PublicationRecord =>
    { record with subscribers := after record.subscribers }) hchange]

theorem register_updateSubscription (place : Nat)
    {change : Subscription → Subscription}
    (hchange : ∀ subscription,
      (change subscription).session = subscription.session) :
    (relay.updateSubscription place change).register = relay.register := by
  simp only [register, updateSubscription]
  rw [map_modify_of_unseen hchange]

/-- The register is part of the outline. -/
theorem register_of_outline {before after : Relay}
    (houtline : after.outline = before.outline) :
    after.register = before.register := by
  have hregister (relay : Relay) : relay.register =
      ⟨relay.outline.directory, relay.outline.publications.map Publication.record,
        relay.outline.subscriptions.map Subscription.session⟩ := by
    simp only [register, outline, List.map_map]
    rfl
  rw [hregister, hregister, houtline]

theorem Sends.register {queue : Nat} {messages : List OutboundMessage}
    {before after : Relay} (hsends : Sends queue messages before after) :
    after.register = before.register :=
  register_of_outline hsends.outline

theorem register_endSubscription (place : Nat) :
    (relay.endSubscription place).register = relay.register := by
  rcases relay.endSubscription_cases place with hnothing | hsends
  · rw [hnothing]
  · obtain ⟨messages, hsends⟩ := hsends 0
    exact hsends.register.trans (register_updateSubscription relay place (fun _ => rfl))

/-! ## Operations that change the register -/

theorem register_startPublishing {request : PublishRequest} {place : Nat}
    {started : Relay}
    (hstart : relay.startPublishing request = .ok (place, started)) :
    relay.register.directory.get? request.path = none ∧
      place = relay.register.publications.length ∧
      started.register =
        relay.register.publish request.path request.session := by
  unfold startPublishing at hstart
  split at hstart
  · simp at hstart
  · rename_i hfree
    simp only [Except.ok.injEq, Prod.mk.injEq] at hstart
    obtain ⟨hplace, hstarted⟩ := hstart
    refine ⟨hfree, ?_, ?_⟩
    · rw [← hplace]
      simp [register]
    · rw [← hstarted]
      simp [register, Register.publish, Publication.record]

theorem register_append (place : Nat) (subscription : Subscription) :
    ({ relay with subscriptions := relay.subscriptions ++ [subscription] }
        |>.updatePublication place fun joined =>
          { joined with
            subscribers := joined.subscribers ++ [relay.subscriptions.length] }
        ).register =
      relay.register.subscribe place subscription.session := by
  rw [register_modify _ place (· ++ [relay.subscriptions.length])
    (fun _ => rfl)]
  simp [register, Register.subscribe, Register.modifySubscribers]

theorem register_join (place : Nat) (cache : MediaCache)
    (request : SubscribeRequest) :
    (relay.join place cache request).2.register =
      relay.register.subscribe place request.session := by
  let primed := relay.prime cache request
  have hprime : Sends 0 _ relay primed := sends_prime relay cache request
  have hlength : primed.subscriptions.length = relay.subscriptions.length := by
    have hcount := congrArg (·.subscriptions.length) hprime.streams
    simpa [streams] using hcount
  have hjoined := register_append primed place (request.subscription cache)
  rw [hprime.register, hlength] at hjoined
  exact hjoined

theorem register_startSubscribing {request : SubscribeRequest}
    {place subscription : Nat} {started : Relay}
    (hstart :
      relay.startSubscribing request = .ok ((place, subscription), started)) :
    relay.register.directory.get? request.path = some place ∧
      subscription = relay.register.subscriptions.length ∧
      started.register = relay.register.subscribe place request.session := by
  obtain ⟨publication, hpath, -, -, hsubscription, hjoined⟩ :=
    startSubscribing_spec hstart
  refine ⟨hpath, ?_, ?_⟩
  · rw [hsubscription]
    simp [register, streams]
  · rw [hjoined]
    exact register_join relay place publication.cache request

theorem getElem?_register (place : Nat) :
    relay.register.publications[place]? =
      relay.publications[place]?.map Publication.record := by
  simp [register]

theorem register_stopPublishing (place : Nat) :
    (relay.stopPublishing place).2.register = relay.register.unpublish place := by
  unfold stopPublishing Register.unpublish
  rw [getElem?_register]
  cases hplace : relay.publications[place]? with
  | none => rfl
  | some publication =>
      simp only [Option.map_some]
      by_cases hcurrent : relay.directory.get? publication.path = some place
      · have hrecord :
            relay.register.directory.get? publication.record.path = some place :=
          hcurrent
        rw [if_pos hcurrent, if_pos hrecord]
        simp only
        rw [foldl_keeps register register_endSubscription,
          register_modify _ place (fun _ => []) (fun _ => rfl),
          register_of_outline (outline_clearMetadata _ place),
          register_of_outline (outline_clearCache _ place)]
        rfl
      · have hrecord :
            ¬ relay.register.directory.get? publication.record.path = some place :=
          hcurrent
        rw [if_neg hcurrent, if_neg hrecord]

theorem register_stopSubscribing (place subscription : Nat) :
    (relay.stopSubscribing place subscription).2.register =
      relay.register.unsubscribe place subscription := by
  have hrecord := getElem?_register relay place
  unfold stopSubscribing
  cases hplace : relay.publications[place]? with
  | none =>
      rw [hplace, Option.map_none] at hrecord
      exact (Register.unsubscribe_of_unlisted (by simp [hrecord])).symm
  | some left =>
      rw [hplace, Option.map_some] at hrecord
      simp only
      split
      · exact register_modify relay place (List.filter (· ≠ subscription)) (fun _ => rfl)
      · rename_i hgone
        refine (Register.unsubscribe_of_unlisted fun record hother => ?_).symm
        rw [hrecord] at hother
        exact Option.some.inj hother ▸ hgone

end Relay

end LiveRelay
