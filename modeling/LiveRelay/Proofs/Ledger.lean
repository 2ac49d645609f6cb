import LiveRelay.Proofs.Register

/-!
# The ledger

The register says who publishes and who plays what at the moment.  The ledger
keeps more: every play there ever was, with its session, its path and whether
its stream has ended, and every event that has told of a stream, in order.

Moving frames and messages around leaves the ledger as it is.  Starting and
stopping change it, and telling an event adds one entry.
-/

namespace LiveRelay

structure Play where
  session : Nat
  path : StreamPath
  hasEnded : Bool
  deriving DecidableEq, Repr

def Play.close (play : Play) : Play :=
  { play with hasEnded := true }

def Subscription.asPlay (subscription : Subscription) : Play :=
  ⟨subscription.session, subscription.path, subscription.hasEnded⟩

structure Ledger where
  register : Register
  plays : List Play
  /-- Each change with the session that it was told for. -/
  told : List (Nat × StreamChange × StreamPath)

namespace Ledger

def tell (ledger : Ledger) (session : Nat) (event : SessionEvent) : Ledger :=
  { ledger with told := ledger.told ++ (event.change?.map (session, ·)).toList }

/-- The streams of some plays have ended. -/
def closePlays (places : List Nat) (plays : List Play) : List Play :=
  places.foldl (fun plays place => plays.modify place Play.close) plays

theorem getElem?_closePlays (places : List Nat) (plays : List Play) (place : Nat) :
    (closePlays places plays)[place]? =
      plays[place]?.map fun play => if place ∈ places then play.close else play := by
  induction places generalizing plays with
  | nil => simp [closePlays]
  | cons first places ih =>
      have hrest := ih (plays.modify first Play.close)
      simp only [closePlays, List.foldl_cons] at hrest ⊢
      rw [hrest, List.getElem?_modify]
      cases plays[place]? with
      | none => rfl
      | some play =>
          by_cases hfirst : first = place
          · by_cases hothers : place ∈ places <;> simp [hfirst, hothers, Play.close]
          · simp [hfirst, Ne.symm hfirst]

theorem length_closePlays (places : List Nat) (plays : List Play) :
    (closePlays places plays).length = plays.length := by
  refine foldl_keeps List.length (fun plays place => ?_) places plays
  exact List.length_modify ..

theorem map_closePlays {α : Type} {view : Play → α}
    (hview : ∀ play, view play.close = view play) (places : List Nat) (plays : List Play) :
    (closePlays places plays).map view = plays.map view :=
  foldl_keeps (List.map view) (map_modify_of_unseen hview) places plays

/-- What a stream of a session did is given up.  The session is told of it if
the register still has it. -/
def stop (ledger : Ledger) (session : Nat) : StreamMode → Ledger
  | .idle => ledger
  | .publishing place =>
      match ledger.register.publications[place]? with
      | some record =>
          if ledger.register.directory.get? record.path = some place then
            { register := ledger.register.unpublish place
              plays := closePlays record.subscribers ledger.plays
              told := ledger.told ++ [(session, .unpublished, record.path)] }
          else ledger
      | none => ledger
  | .playing place subscription =>
      match ledger.register.publications[place]? with
      | some record =>
          if subscription ∈ record.subscribers then
            { ledger with
              register := ledger.register.unsubscribe place subscription
              told := ledger.told ++ [(session, .unsubscribed, record.path)] }
          else ledger
      | none => ledger

variable {ledger : Ledger} {place : Nat} {record : PublicationRecord} (session : Nat)

theorem stop_publishing_of_listed
    (hrecord : ledger.register.publications[place]? = some record)
    (hlisted : ledger.register.directory.get? record.path = some place) :
    ledger.stop session (.publishing place) =
      { register := ledger.register.unpublish place
        plays := closePlays record.subscribers ledger.plays
        told := ledger.told ++ [(session, .unpublished, record.path)] } := by
  simp only [stop, hrecord, if_pos hlisted]

theorem stop_publishing_of_unlisted
    (hgone : ∀ record, ledger.register.publications[place]? = some record →
      ledger.register.directory.get? record.path ≠ some place) :
    ledger.stop session (.publishing place) = ledger := by
  cases hrecord : ledger.register.publications[place]? with
  | none => simp only [stop, hrecord]
  | some record => simp only [stop, hrecord, if_neg (hgone record hrecord)]

theorem stop_playing_of_listed {subscription : Nat}
    (hrecord : ledger.register.publications[place]? = some record)
    (hlisted : subscription ∈ record.subscribers) :
    ledger.stop session (.playing place subscription) =
      { ledger with
        register := ledger.register.unsubscribe place subscription
        told := ledger.told ++ [(session, .unsubscribed, record.path)] } := by
  simp only [stop, hrecord, if_pos hlisted]

theorem stop_playing_of_unlisted {subscription : Nat}
    (hgone : ∀ record, ledger.register.publications[place]? = some record →
      subscription ∉ record.subscribers) :
    ledger.stop session (.playing place subscription) = ledger := by
  cases hrecord : ledger.register.publications[place]? with
  | none => simp only [stop, hrecord]
  | some record => simp only [stop, hrecord, if_neg (hgone record hrecord)]

/-- The register does not depend on who is told. -/
theorem register_stop (ledger : Ledger) (mode : StreamMode) :
    (ledger.stop session mode).register = ledger.register.stop mode := by
  cases mode with
  | idle => rfl
  | publishing place =>
      cases hrecord : ledger.register.publications[place]? with
      | none => simp only [stop, Register.stop, Register.unpublish, hrecord]
      | some record =>
          simp only [stop, Register.stop, Register.unpublish, hrecord]
          split <;> rfl
  | playing place subscription =>
      cases hrecord : ledger.register.publications[place]? with
      | none =>
          simp only [stop, hrecord]
          exact (Register.unsubscribe_of_unlisted (by simp [hrecord])).symm
      | some record =>
          simp only [stop, hrecord]
          split
          · rfl
          · rename_i hgone
            refine (Register.unsubscribe_of_unlisted fun other hother => ?_).symm
            rw [hrecord] at hother
            exact Option.some.inj hother ▸ hgone

end Ledger

namespace Relay

def plays (relay : Relay) : List Play :=
  relay.subscriptions.map Subscription.asPlay

def ledger (relay : Relay) : Ledger :=
  ⟨relay.register, relay.plays, relay.told⟩

variable (relay : Relay)

theorem plays_of_outline {before after : Relay} (houtline : after.outline = before.outline) :
    after.plays = before.plays := by
  have hplays (relay : Relay) :
      relay.plays = relay.outline.subscriptions.map Subscription.asPlay := by
    simp only [plays, outline, List.map_map]
    rfl
  rw [hplays, hplays, houtline]

theorem ledger_of_outline {before after : Relay} (houtline : after.outline = before.outline)
    (htold : after.told = before.told) : after.ledger = before.ledger := by
  rw [ledger, register_of_outline houtline, plays_of_outline houtline, htold, ledger]

theorem ledger_of_streams {before after : Relay} (hstreams : after.streams = before.streams) :
    after.ledger = before.ledger :=
  ledger_of_outline (outline_of_streams hstreams) (told_of_streams hstreams)

/-! ## Moving frames and messages -/

theorem ledger_updateSubscription (place : Nat) {change : Subscription → Subscription}
    (hchange : ∀ subscription, (change subscription).asPlay = subscription.asPlay) :
    (relay.updateSubscription place change).ledger = relay.ledger := by
  have hregister : (relay.updateSubscription place change).register = relay.register :=
    register_updateSubscription relay place fun subscription =>
      congrArg Play.session (hchange subscription)
  have hplays : (relay.updateSubscription place change).plays = relay.plays := by
    simp only [plays, updateSubscription]
    rw [map_modify_of_unseen hchange]
  rw [ledger, hregister, hplays]
  rfl

theorem ledger_note {notice : Notice} (hchange : notice.change? = none) :
    (relay.note notice).ledger = relay.ledger := by
  have hsends : Sends 0 [] relay (relay.note notice) := sends_note relay hchange
  exact ledger_of_streams hsends.streams

theorem ledger_distribute (place : Nat) (kind : MediaKind) (timestamp : UInt32)
    (payload : Bytes) :
    (relay.distribute place kind timestamp payload).2.ledger = relay.ledger :=
  ledger_of_outline (relay.outline_distribute place kind timestamp payload)
    (relay.told_distribute place kind timestamp payload)

theorem ledger_distributeMetadata (place : Nat) (metadata : Properties) :
    (relay.distributeMetadata place metadata).2.ledger = relay.ledger :=
  ledger_of_outline (relay.outline_distributeMetadata place metadata)
    (relay.told_distributeMetadata place metadata)

theorem ledger_clearMetadata (place : Nat) :
    (relay.clearMetadata place).ledger = relay.ledger :=
  ledger_of_outline (relay.outline_clearMetadata place) rfl

theorem ledger_observe (path : StreamPath) (observation : Observation) :
    (relay.observe path observation).ledger = relay.ledger := by
  have hsends : Sends 0 [] relay (relay.observe path observation) :=
    sends_observe relay path observation
  exact ledger_of_streams hsends.streams

/-! ## Starting and stopping -/

theorem ledger_startPublishing {request : PublishRequest} {place : Nat} {started : Relay}
    (hstart : relay.startPublishing request = .ok (place, started)) :
    started.ledger =
      { relay.ledger with
        register := relay.register.publish request.path request.session } := by
  obtain ⟨-, -, hregister⟩ := register_startPublishing relay hstart
  rw [ledger, hregister]
  unfold startPublishing at hstart
  split at hstart
  · cases hstart
  · simp only [Except.ok.injEq, Prod.mk.injEq] at hstart
    obtain ⟨-, rfl⟩ := hstart
    rfl

theorem ledger_startSubscribing {request : SubscribeRequest} {place subscription : Nat}
    {started : Relay}
    (hstart : relay.startSubscribing request = .ok ((place, subscription), started)) :
    started.ledger =
      { relay.ledger with
        register := relay.register.subscribe place request.session
        plays := relay.plays ++ [⟨request.session, request.path, false⟩] } := by
  obtain ⟨-, -, hregister⟩ := register_startSubscribing relay hstart
  obtain ⟨publication, -, -, -, -, rfl⟩ := startSubscribing_spec hstart
  have hprime : Sends 0 _ relay (relay.prime publication.cache request) :=
    sends_prime relay publication.cache request
  have hplays := plays_of_outline hprime.outline
  have htold := told_of_streams hprime.streams
  have hjoined : (relay.join place publication.cache request).2.plays =
      (relay.prime publication.cache request).plays ++
        [⟨request.session, request.path, false⟩] := List.map_append
  have hsame : (relay.join place publication.cache request).2.told =
      (relay.prime publication.cache request).told := rfl
  rw [ledger, hregister, hjoined, hsame, hplays, htold]
  rfl

theorem plays_endSubscription (place : Nat) :
    (relay.endSubscription place).plays = relay.plays.modify place Play.close := by
  unfold endSubscription
  cases hfound : relay.subscriptions[place]? with
  | none =>
      have hlength : relay.plays.length ≤ place := by
        rw [plays, List.length_map]
        exact List.getElem?_eq_none_iff.mp hfound
      exact (List.modify_eq_self hlength).symm
  | some subscription =>
      have hplay : relay.plays[place]? = some subscription.asPlay := by
        rw [plays, List.getElem?_map, hfound, Option.map_some]
      simp only
      split
      · rename_i hended
        refine (modify_eq_self_of_fixed hplay ?_).symm
        rw [Play.close, Subscription.asPlay, hended]
      · have hsent : Sends 0 _
            (relay.updateSubscription place ({ · with hasEnded := true })) _ :=
          sends_sendAll _ subscription.queue subscription.endMessages
        refine (plays_of_outline hsent.outline).trans ?_
        have hclose : ∀ subscription : Subscription,
            { subscription with hasEnded := true }.asPlay = subscription.asPlay.close :=
          fun _ => rfl
        exact map_modify Play.close hclose _ _

theorem told_endSubscription (place : Nat) :
    (relay.endSubscription place).told = relay.told := by
  rcases relay.endSubscription_cases place with hnothing | hsends
  · rw [hnothing]
  · obtain ⟨messages, hsends⟩ := hsends 0
    have htold := told_of_streams hsends.streams
    exact htold

theorem plays_endSubscriptions (places : List Nat) :
    (places.foldl endSubscription relay).plays = Ledger.closePlays places relay.plays := by
  induction places generalizing relay with
  | nil => rfl
  | cons place places ih =>
      rw [List.foldl_cons, ih, plays_endSubscription]
      rfl

theorem told_clearCache (place : Nat) : (relay.clearCache place).told = relay.told := by
  unfold clearCache
  split <;> rfl

theorem record_of_found {place : Nat} {publication : Publication}
    (hfound : relay.publications[place]? = some publication) :
    relay.ledger.register.publications[place]? = some publication.record := by
  rw [ledger, getElem?_register, hfound, Option.map_some]

/-- Stopping a publication that is listed ends all plays of it. -/
theorem ledger_stopPublishing_of_true {place : Nat} {stopped : Relay}
    (hstop : relay.stopPublishing place = (true, stopped)) (session : Nat) :
    stopped.ledger.tell session (.unpublished (relay.pathOf place)) =
      relay.ledger.stop session (.publishing place) := by
  have hregister : stopped.register = relay.register.unpublish place := by
    rw [← register_stopPublishing, hstop]
  unfold stopPublishing at hstop
  split at hstop
  · rename_i publication hfound
    split at hstop
    · rename_i hlisted
      simp only [Prod.mk.injEq, true_and] at hstop
      have hpath : relay.pathOf place = publication.path := by
        rw [pathOf, hfound]
        rfl
      let erased := { relay with directory := relay.directory.erase publication.path }
      have hplays : (erased.clearCache place).plays = erased.plays :=
        plays_of_outline (erased.outline_clearCache place)
      have hclosed : stopped.plays = Ledger.closePlays publication.subscribers relay.plays := by
        rw [← hstop, plays_endSubscriptions]
        exact congrArg (Ledger.closePlays publication.subscribers) hplays
      have htold : stopped.told = relay.told := by
        rw [← hstop, foldl_keeps told told_endSubscription]
        exact told_clearCache erased place
      rw [Ledger.stop_publishing_of_listed session (relay.record_of_found hfound) hlisted, ledger,
        hregister, hclosed, htold, hpath]
      rfl
    · simp at hstop
  · simp at hstop

theorem ledger_stopPublishing_of_false {place : Nat} {stopped : Relay}
    (hstop : relay.stopPublishing place = (false, stopped)) (session : Nat) :
    stopped.ledger = relay.ledger.stop session (.publishing place) := by
  have hrecord := getElem?_register relay place
  unfold stopPublishing at hstop
  rw [Ledger.stop_publishing_of_unlisted]
  · split at hstop
    · split at hstop
      · simp at hstop
      · rw [(Prod.mk.inj hstop).2]
    · rw [(Prod.mk.inj hstop).2]
  · intro record hfound hlisted
    obtain ⟨publication, hpublication, rfl⟩ := Option.map_eq_some_iff.mp (hrecord.symm.trans hfound)
    have hpath : relay.directory.get? publication.path = some place := hlisted
    simp [hpublication, hpath] at hstop

theorem ledger_stopSubscribing_of_true {place subscription : Nat} {stopped : Relay}
    (hstop : relay.stopSubscribing place subscription = (true, stopped)) (session : Nat) :
    stopped.ledger.tell session (.unsubscribed (relay.pathOf place)) =
      relay.ledger.stop session (.playing place subscription) := by
  have hregister : stopped.register = relay.register.unsubscribe place subscription := by
    rw [← register_stopSubscribing, hstop]
  unfold stopSubscribing at hstop
  split at hstop
  · rename_i left hfound
    split at hstop
    · rename_i hlisted
      simp only [Prod.mk.injEq, true_and] at hstop
      have hpath : relay.pathOf place = left.path := by
        rw [pathOf, hfound]
        rfl
      rw [Ledger.stop_playing_of_listed session (relay.record_of_found hfound) hlisted, ledger,
        hregister, hpath, ← hstop]
      rfl
    · simp at hstop
  · simp at hstop

theorem ledger_stopSubscribing_of_false {place subscription : Nat} {stopped : Relay}
    (hstop : relay.stopSubscribing place subscription = (false, stopped)) (session : Nat) :
    stopped.ledger = relay.ledger.stop session (.playing place subscription) := by
  have hrecord := getElem?_register relay place
  unfold stopSubscribing at hstop
  rw [Ledger.stop_playing_of_unlisted]
  · split at hstop
    · split at hstop
      · simp at hstop
      · rw [(Prod.mk.inj hstop).2]
    · rw [(Prod.mk.inj hstop).2]
  · intro record hfound hlisted
    obtain ⟨publication, hpublication, rfl⟩ := Option.map_eq_some_iff.mp (hrecord.symm.trans hfound)
    have hmember : subscription ∈ publication.subscribers := hlisted
    simp [hpublication, hmember] at hstop

end Relay

end LiveRelay
