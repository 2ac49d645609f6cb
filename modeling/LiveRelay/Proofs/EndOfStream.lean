import LiveRelay.Proofs.Letters
import LiveRelay.Proofs.LifecycleEvents
import LiveRelay.Proofs.PlayMessages
import LiveRelay.Proofs.StreamMap

/-!
# The end of a stream

Who is on the list of a stream when it is stopped is sent a farewell, and marked
as ended.  Nobody else is: those who have left before are on no list.  A
subscription that is on no list stays so, whatever happens to its old stream or
to a new one under the same path, and then nothing is sent on its behalf.  So the
farewell comes once, and it comes last.
-/

namespace LiveRelay

/-! ## Telling farewells apart -/

/-- One of the two messages that tell of the end of a stream. -/
def OutboundMessage.IsFarewell (message : OutboundMessage) : Prop :=
  ∃ streamId description, message = .userControl (.streamEnd streamId) ∨
    message = .status streamId "status" "NetStream.Play.UnpublishNotify" description

/-- The second byte of a control message names the event.  In a status message
the length of the code comes after as many bytes as the names take. -/
theorem OutboundMessage.IsFarewell.marks {message : OutboundMessage}
    (hfarewell : message.IsFarewell) :
    message.typeId = 4 ∧ message.payload.bytes[1]? = some 1 ∨
      message.typeId = 20 ∧ message.payload.bytes[46]? = some 30 := by
  obtain ⟨streamId, description, rfl | rfl⟩ := hfarewell
  · exact .inl ⟨rfl, rfl⟩
  · exact .inr ⟨rfl, rfl⟩

theorem OutboundMessage.not_isFarewell_of_typeId {message : OutboundMessage} (typeId : UInt8)
    (htype : message.typeId = typeId) (hcontrol : typeId ≠ 4) (hreply : typeId ≠ 20) :
    ¬ message.IsFarewell := by
  intro hfarewell
  rcases hfarewell.marks with ⟨hsame, -⟩ | ⟨hsame, -⟩
  · exact hcontrol (htype.symm.trans hsame)
  · exact hreply (htype.symm.trans hsame)

theorem OutboundMessage.not_isFarewell_media (kind : MediaKind) (streamId timestamp : UInt32)
    (buffer : RentedBuffer) :
    ¬ (OutboundMessage.media kind streamId timestamp buffer).IsFarewell := by
  cases kind with
  | audio => exact not_isFarewell_of_typeId 8 rfl (by decide) (by decide)
  | video => exact not_isFarewell_of_typeId 9 rfl (by decide) (by decide)

namespace Subscription

variable (subscription : Subscription)

theorem not_isFarewell_metadataMessage (metadata : Properties) :
    ¬ (subscription.metadataMessage metadata).IsFarewell :=
  OutboundMessage.not_isFarewell_of_typeId 18 rfl (by decide) (by decide)

theorem not_isFarewell_of_mem_startMessages {message : OutboundMessage}
    (hmember : message ∈ subscription.startMessages) : ¬ message.IsFarewell := by
  intro hfarewell
  simp only [startMessages, List.mem_cons, List.not_mem_nil, or_false] at hmember
  rcases hmember with rfl | rfl | rfl | rfl
  · rcases hfarewell.marks with ⟨-, hevent⟩ | ⟨htype, -⟩
    · exact absurd (hevent.symm.trans (show _ = some 0 from rfl)) (by decide)
    · exact absurd htype (by decide : (4 : UInt8) ≠ 20)
  · rcases hfarewell.marks with ⟨htype, -⟩ | ⟨-, hlength⟩
    · exact absurd htype (by decide : (20 : UInt8) ≠ 4)
    · exact absurd (hlength.symm.trans (show _ = some 20 from rfl)) (by decide)
  · rcases hfarewell.marks with ⟨htype, -⟩ | ⟨-, hlength⟩
    · exact absurd htype (by decide : (20 : UInt8) ≠ 4)
    · exact absurd (hlength.symm.trans (show _ = some 20 from rfl)) (by decide)
  · exact OutboundMessage.not_isFarewell_of_typeId 18 rfl (by decide) (by decide) hfarewell

theorem not_isFarewell_of_mem_primingMessages {cache : MediaCache} {message : OutboundMessage}
    (hmember : message ∈ cache.primingMessages subscription) : ¬ message.IsFarewell := by
  simp only [MediaCache.primingMessages, List.mem_append, List.mem_map] at hmember
  rcases hmember with ((⟨_, -, rfl⟩ | ⟨_, -, rfl⟩) | ⟨_, -, rfl⟩) | ⟨_, -, rfl⟩
  · exact OutboundMessage.not_isFarewell_media _ _ _ _
  · exact OutboundMessage.not_isFarewell_media _ _ _ _
  · exact not_isFarewell_metadataMessage _ _
  · exact OutboundMessage.not_isFarewell_media _ _ _ _

end Subscription

/-! ## What events do to lists and plays -/

/-- Everything that an event can do to the register and to the plays. -/
inductive Ledger.Entry (before after : Ledger) : RelayEvent → Prop
  | unchanged (event : RelayEvent) (hregister : after.register = before.register)
      (hplays : after.plays = before.plays) : Entry before after event
  | published (request : PublishRequest)
      (hfree : before.register.directory.get? request.path = none)
      (hregister : after.register = before.register.publish request.path request.session)
      (hplays : after.plays = before.plays) :
      Entry before after (.called (.publish request))
  | unpublished (place : Nat) (record : PublicationRecord)
      (hrecord : before.register.publications[place]? = some record)
      (hlisted : before.register.directory.get? record.path = some place)
      (hregister : after.register = before.register.unpublish place)
      (hplays : after.plays = closePlays record.subscribers before.plays) :
      Entry before after (.called (.unpublish place))
  | subscribed (request : SubscribeRequest) (place : Nat)
      (hplace : before.register.directory.get? request.path = some place)
      (hregister : after.register = before.register.subscribe place request.session)
      (hplays : after.plays = before.plays ++ [⟨request.session, request.path, false⟩]) :
      Entry before after (.called (.subscribe request))
  | unsubscribed (place subscription : Nat)
      (hregister : after.register = before.register.unsubscribe place subscription)
      (hplays : after.plays = before.plays) :
      Entry before after (.called (.unsubscribe place subscription))

namespace Relay

variable (relay : Relay)

theorem plays_stopPublishing {place : Nat} {record : PublicationRecord}
    (hrecord : relay.register.publications[place]? = some record)
    (hlisted : relay.register.directory.get? record.path = some place) :
    (relay.stopPublishing place).2.plays =
      Ledger.closePlays record.subscribers relay.plays := by
  have hstop := relay.stopPublishing_of_current ⟨record, hrecord, hlisted⟩
  have hledger := relay.ledger_stopPublishing_of_true (Prod.ext hstop rfl) 0
  rw [Ledger.stop_publishing_of_listed 0 hrecord hlisted] at hledger
  exact congrArg Ledger.plays hledger

theorem entry_unpublish (place : Nat) :
    Ledger.Entry relay.ledger (relay.stopPublishing place).2.ledger
      (.called (.unpublish place)) := by
  by_cases hcurrent : relay.register.IsCurrent place
  · obtain ⟨record, hrecord, hlisted⟩ := hcurrent
    exact .unpublished place record hrecord hlisted (relay.register_stopPublishing place)
      (relay.plays_stopPublishing hrecord hlisted)
  · rw [stopPublishing_of_stale hcurrent]
    exact .unchanged _ rfl rfl

theorem plays_stopSubscribing (place subscription : Nat) :
    (relay.stopSubscribing place subscription).2.plays = relay.plays := by
  unfold stopSubscribing
  split
  · split <;> rfl
  · rfl

theorem entry_handle (event : RelayEvent) :
    Ledger.Entry relay.ledger (relay.handle event).ledger event := by
  cases event with
  | moved traffic =>
      have hplays := plays_of_outline (relay.outline_move traffic)
      exact .unchanged _ (relay.register_move traffic) hplays
  | called call =>
      cases call with
      | publish request =>
          show Ledger.Entry relay.ledger (relay.call (.publish request)).2.ledger _
          rcases relay.call_publish request with
            ⟨_, _, hstart, hcalled⟩ | ⟨_, _, hcalled⟩
          · obtain ⟨hfree, -, -⟩ := relay.register_startPublishing hstart
            rw [hcalled, relay.ledger_startPublishing hstart]
            exact .published request hfree rfl rfl
          · rw [hcalled]
            exact .unchanged _ rfl rfl
      | unpublish place => exact relay.entry_unpublish place
      | subscribe request =>
          show Ledger.Entry relay.ledger (relay.call (.subscribe request)).2.ledger _
          rcases relay.call_subscribe request with
            ⟨place, _, _, hstart, hcalled⟩ | ⟨_, _, hcalled⟩
          · obtain ⟨hplace, -, -⟩ := relay.register_startSubscribing hstart
            rw [hcalled, relay.ledger_startSubscribing hstart]
            exact .subscribed request place hplace rfl rfl
          · rw [hcalled]
            exact .unchanged _ rfl rfl
      | unsubscribe place subscription =>
          exact .unsubscribed place subscription
            (relay.register_stopSubscribing place subscription)
            (relay.plays_stopSubscribing place subscription)
      | find path => exact .unchanged _ rfl rfl
      | count => exact .unchanged _ rfl rfl

end Relay

namespace Ledger

variable {before after : Ledger} {event : RelayEvent} {place : Nat}

theorem Entry.isSound (hentry : Entry before after event)
    (hsound : before.register.IsSound) : after.register.IsSound := by
  cases hentry with
  | unchanged _ hregister _ =>
      rw [hregister]
      exact hsound
  | published request hfree hregister _ =>
      rw [hregister]
      exact hsound.afterPublishing request.session hfree
  | unpublished place _ _ _ hregister _ =>
      rw [hregister]
      exact hsound.afterUnpublishing place
  | subscribed request place hplace hregister _ =>
      obtain ⟨record, hrecord, hpath⟩ := hsound.found request.path place hplace
      rw [hregister]
      exact hsound.afterSubscribing ⟨record, hrecord, hpath ▸ hplace⟩ request.session
  | unsubscribed place subscription hregister _ =>
      rw [hregister]
      exact hsound.afterUnsubscribing place subscription

theorem Entry.seated (hentry : Entry before after event) (hsound : before.register.IsSound)
    (hseated : before.Seated) : after.Seated := by
  cases hentry with
  | unchanged _ hregister hplays =>
      constructor
      · rw [hregister, hplays]
        exact hseated.sessions
      · rw [hregister, hplays]
        exact hseated.playing
      · rw [hregister]
        exact hseated.unique
  | published request _ hregister hplays => exact hseated.publish hregister hplays
  | unpublished place record hrecord hlisted hregister hplays =>
      exact hseated.unpublish hrecord hlisted hregister hplays
  | subscribed request place hplace hregister hplays =>
      exact hseated.subscribe hregister hplays (hsound.found request.path place hplace)
  | unsubscribed place subscription hregister hplays =>
      exact hseated.unsubscribe hregister hplays

/-- The stream of a play that has ended has ended for good. -/
theorem Entry.hasEnded (hentry : Entry before after event)
    (hended : before.plays[place]?.map Play.hasEnded = some true) :
    after.plays[place]?.map Play.hasEnded = some true := by
  obtain ⟨play, hplay, hmark⟩ := Option.map_eq_some_iff.mp hended
  have hlt := (List.getElem?_eq_some_iff.mp hplay).1
  cases hentry with
  | unchanged _ _ hplays | published _ _ _ hplays | unsubscribed _ _ _ hplays =>
      rw [hplays]
      exact hended
  | unpublished _ record _ _ _ hplays =>
      rw [hplays, getElem?_closePlays, hplay, Option.map_some, Option.map_some]
      split
      · rfl
      · rw [hmark]
  | subscribed _ _ _ _ hplays =>
      rw [hplays, List.getElem?_append_left hlt]
      exact hended

/-- A play that is on no list, with its mark. -/
structure IsOver (ledger : Ledger) (place : Nat) (hasEnded : Bool) : Prop where
  marked : ledger.plays[place]?.map Play.hasEnded = some hasEnded
  unseated : ∀ publication path, ¬ ledger.register.Seats publication place path

theorem IsOver.lt_length {hasEnded : Bool} (hover : before.IsOver place hasEnded) :
    place < before.plays.length := by
  obtain ⟨play, hplay, -⟩ := Option.map_eq_some_iff.mp hover.marked
  exact (List.getElem?_eq_some_iff.mp hplay).1

theorem IsOver.handled {hasEnded : Bool} (hover : before.IsOver place hasEnded)
    (hentry : Entry before after event) (hsound : before.register.IsSound)
    (hseated : before.Seated) : after.IsOver place hasEnded := by
  have hlt := hover.lt_length
  cases hentry with
  | unchanged _ hregister hplays =>
      refine ⟨?_, ?_⟩
      · rw [hplays]
        exact hover.marked
      · rw [hregister]
        exact hover.unseated
  | published request _ hregister hplays =>
      refine ⟨?_, fun publication path hseat => ?_⟩
      · rw [hplays]
        exact hover.marked
      · rw [hregister, Register.seats_publish] at hseat
        exact hover.unseated publication path hseat
  | unpublished stopped record hrecord hlisted hregister hplays =>
      have hstays : place ∉ record.subscribers := fun hmember =>
        hover.unseated stopped record.path ⟨record, hrecord, hmember, rfl⟩
      refine ⟨?_, fun publication path hseat => ?_⟩
      · rw [hplays, getElem?_closePlays]
        simpa [hstays] using hover.marked
      · rw [hregister, Register.seats_unpublish hrecord hlisted] at hseat
        exact hover.unseated publication path hseat.1
  | subscribed request joined hplace hregister hplays =>
      refine ⟨?_, fun publication path hseat => ?_⟩
      · rw [hplays, List.getElem?_append_left hlt]
        exact hover.marked
      · have hfound := hsound.found request.path joined hplace
        rw [hseated.seats_subscribe hregister hfound] at hseat
        rcases hseat with hold | ⟨-, hnew, -⟩
        · exact hover.unseated publication path hold
        · exact Nat.ne_of_lt hlt hnew
  | unsubscribed left subscription hregister hplays =>
      refine ⟨?_, fun publication path hseat => ?_⟩
      · rw [hplays]
        exact hover.marked
      · rw [hregister, Register.seats_unsubscribe] at hseat
        exact hover.unseated publication path hseat.1

end Ledger

/-! ## Whose letters an event has -/

namespace Relay

variable {relay : Relay} {letter : Letter} {place : Nat}

theorem of_mem_frameLetters {numbered : NumberedFrame}
    (hletter : letter ∈ frameLetters numbered relay place) :
    letter.subscription = place ∧ ¬ letter.message.IsFarewell := by
  unfold frameLetters at hletter
  split at hletter
  · split at hletter
    · rw [List.mem_singleton.mp hletter]
      exact ⟨rfl, OutboundMessage.not_isFarewell_media _ _ _ _⟩
    · cases hletter
  · cases hletter

theorem of_mem_descriptionLetters {metadata : Properties}
    (hletter : letter ∈ descriptionLetters metadata relay place) :
    letter.subscription = place ∧ ¬ letter.message.IsFarewell := by
  unfold descriptionLetters at hletter
  split at hletter
  · rw [List.mem_singleton.mp hletter]
    exact ⟨rfl, Subscription.not_isFarewell_metadataMessage _ _⟩
  · cases hletter

theorem of_mem_endLetters (hletter : letter ∈ relay.endLetters place) :
    letter.subscription = place := by
  unfold endLetters at hletter
  split at hletter
  · split at hletter
    · cases hletter
    · obtain ⟨message, -, rfl⟩ := List.mem_map.mp hletter
      rfl
  · cases hletter

theorem of_mem_welcomeLetters {cache : MediaCache} {request : SubscribeRequest}
    (hletter : letter ∈ relay.welcomeLetters cache request) :
    letter.subscription = relay.subscriptions.length ∧ ¬ letter.message.IsFarewell := by
  obtain ⟨message, hmember, rfl⟩ := List.mem_map.mp hletter
  refine ⟨rfl, ?_⟩
  rcases List.mem_append.mp hmember with hstart | hpriming
  · exact Subscription.not_isFarewell_of_mem_startMessages _ hstart
  · exact Subscription.not_isFarewell_of_mem_primingMessages _ hpriming

theorem seats_of_mem_subscribers {published : Nat} {publication : Publication}
    (hfound : relay.publications[published]? = some publication)
    (hmember : place ∈ publication.subscribers) :
    relay.register.Seats published place publication.path :=
  ⟨publication.record, relay.record_of_found hfound, hmember, rfl⟩

/-- Letters are for who is on a list, or joins; and a farewell is for who is on
the list of the stream that is stopped. -/
theorem of_mem_letters {event : RelayEvent} (hletter : letter ∈ relay.letters event) :
    ((∃ published path, relay.register.Seats published letter.subscription path) ∨
        letter.subscription = relay.plays.length) ∧
      (letter.message.IsFarewell → ∃ published record, event = .called (.unpublish published) ∧
        relay.register.publications[published]? = some record ∧
        relay.register.directory.get? record.path = some published ∧
        letter.subscription ∈ record.subscribers) := by
  unfold letters at hletter
  split at hletter
  · rename_i published
    split at hletter
    · rename_i publication hfound
      split at hletter
      · rename_i hlisted
        obtain ⟨_, subscriber, -, hmember, hwritten⟩ :=
          exists_of_mem_collect (fun _ => True) (fun _ _ => id) trivial hletter
        obtain rfl := of_mem_endLetters hwritten
        exact ⟨.inl ⟨published, _, seats_of_mem_subscribers hfound hmember⟩, fun _ =>
          ⟨published, publication.record, rfl, relay.record_of_found hfound, hlisted, hmember⟩⟩
      · cases hletter
    · cases hletter
  · split at hletter
    · obtain ⟨hnew, hother⟩ := of_mem_welcomeLetters hletter
      refine ⟨.inr (hnew.trans ?_), fun hfarewell => absurd hfarewell hother⟩
      exact (List.length_map ..).symm
    · cases hletter
  · split at hletter
    · rename_i published _ _ _ _ _ _ entered henter
      obtain ⟨_, subscriber, -, hmember, hwritten⟩ :=
          exists_of_mem_collect (fun _ => True) (fun _ _ => id) trivial hletter
      obtain ⟨rfl, hother⟩ := of_mem_frameLetters hwritten
      refine ⟨.inl ?_, fun hfarewell => absurd hfarewell hother⟩
      cases hfound : entered.publications[published]? with
      | none => simp [hfound] at hmember
      | some publication =>
          rw [hfound, Option.map_some, Option.getD_some] at hmember
          rw [← register_of_outline (relay.outline_enter henter)]
          exact ⟨published, _, seats_of_mem_subscribers hfound hmember⟩
    · cases hletter
  · split at hletter
    · rename_i publication hfound
      obtain ⟨_, subscriber, -, hmember, hwritten⟩ :=
          exists_of_mem_collect (fun _ => True) (fun _ _ => id) trivial hletter
      obtain ⟨rfl, hother⟩ := of_mem_descriptionLetters hwritten
      exact ⟨.inl ⟨_, _, seats_of_mem_subscribers hfound hmember⟩,
        fun hfarewell => absurd hfarewell hother⟩
    · cases hletter
  · cases hletter

theorem meantFor_letters_of_isOver {hasEnded : Bool}
    (hover : relay.ledger.IsOver place hasEnded) (event : RelayEvent) :
    Letter.meantFor place (relay.letters event) = [] := by
  refine (Letter.meantFor_eq_nil_iff place).mpr fun letter hletter hplace => ?_
  obtain ⟨hwhose, -⟩ := of_mem_letters hletter
  rw [hplace] at hwhose
  rcases hwhose with ⟨published, path, hseat⟩ | hnew
  · exact hover.unseated published path hseat
  · exact Nat.ne_of_lt hover.lt_length hnew

/-! ## The farewell -/

theorem subscriptions_sendAll (relay : Relay) (queue : Nat) (messages : List OutboundMessage) :
    (relay.sendAll queue messages).subscriptions = relay.subscriptions := by
  refine foldl_keeps subscriptions (fun relay message => ?_) messages relay
  rfl

/-- Who has been told is not told again. -/
theorem endLetters_endSubscription (relay : Relay) (other place : Nat) :
    (relay.endSubscription other).endLetters place =
      if other = place then [] else relay.endLetters place := by
  unfold endSubscription
  cases hother : relay.subscriptions[other]? with
  | none =>
      simp only
      split
      · rename_i hsame
        simp [endLetters, ← hsame, hother]
      · rfl
  | some subscription =>
      simp only
      cases hended : subscription.hasEnded with
      | true =>
          simp only [if_true]
          split
          · rename_i hsame
            simp [endLetters, ← hsame, hother, hended]
          · rfl
      | false =>
          simp only [Bool.false_eq_true, if_false, endLetters, subscriptions_sendAll,
            updateSubscription, List.getElem?_modify]
          by_cases hsame : other = place
          · simp [← hsame, hother]
          · simp [hsame]

theorem meantFor_endLetters (relay : Relay) (other place : Nat) :
    Letter.meantFor place (relay.endLetters other) =
      if other = place then relay.endLetters place else [] := by
  split
  · rename_i hsame
    subst hsame
    exact List.filter_eq_self.mpr fun letter hletter => by simp [of_mem_endLetters hletter]
  · rename_i hsame
    refine (Letter.meantFor_eq_nil_iff place).mpr fun letter hletter hplace => ?_
    exact hsame ((of_mem_endLetters hletter).symm.trans hplace)

/-- Each is told once, however often the list has it. -/
theorem meantFor_collect_endSubscription (relay : Relay) (place : Nat)
    (places : List Nat) :
    Letter.meantFor place (relay.collect endSubscription endLetters places) =
      if place ∈ places then relay.endLetters place else [] := by
  induction places generalizing relay with
  | nil => rfl
  | cons other places ih =>
      rw [collect, Letter.meantFor_append, ih, meantFor_endLetters,
        endLetters_endSubscription]
      by_cases hother : other = place
      · simp [hother]
      · simp [hother, Ne.symm hother]

theorem endLetters_takeDown (relay : Relay) (published : Nat) (publication : Publication)
    (place : Nat) :
    (relay.takeDown published publication).endLetters place = relay.endLetters place := by
  have hsame : (relay.takeDown published publication).subscriptions = relay.subscriptions := by
    unfold takeDown clearCache
    simp only
    split <;> rfl
  simp only [endLetters, hsame]

theorem meantFor_letters_unpublish {published : Nat} {publication : Publication}
    (hfound : relay.publications[published]? = some publication)
    (hlisted : relay.directory.get? publication.path = some published)
    (hmember : place ∈ publication.subscribers) :
    Letter.meantFor place (relay.letters (.called (.unpublish published))) =
      relay.endLetters place := by
  simp only [letters, hfound, if_pos hlisted]
  rw [meantFor_collect_endSubscription, if_pos hmember, endLetters_takeDown]

/-! ## Runs -/

/-- Lists, paths and plays agree. -/
structure IsOrderly (relay : Relay) : Prop where
  isSound : relay.register.IsSound
  seated : relay.ledger.Seated

theorem isOrderly_ofConfiguration (configuration : RelayConfiguration)
    (spread : StreamPath → Nat) (pool : BufferPool) (observers : List Observer) :
    (ofConfiguration configuration spread pool observers).IsOrderly where
  isSound := Register.isSound_empty spread configuration.shardCount
  seated :=
    { sessions := rfl
      playing := fun place subscription path hseat => by
        obtain ⟨record, hrecord, -⟩ := hseat
        cases hrecord
      unique := fun place other subscription path found hseat => by
        obtain ⟨record, hrecord, -⟩ := hseat
        cases hrecord }

theorem IsOrderly.handle (horderly : relay.IsOrderly) (event : RelayEvent) :
    (relay.handle event).IsOrderly where
  isSound := (relay.entry_handle event).isSound horderly.isSound
  seated := (relay.entry_handle event).seated horderly.isSound horderly.seated

theorem IsOrderly.run (horderly : relay.IsOrderly) (events : List RelayEvent) :
    (relay.run events).IsOrderly := by
  induction events generalizing relay with
  | nil => exact horderly
  | cons event events ih => exact ih (horderly.handle event)

theorem hasEnded_run (hended : relay.plays[place]?.map Play.hasEnded = some true)
    (events : List RelayEvent) :
    (relay.run events).plays[place]?.map Play.hasEnded = some true := by
  induction events generalizing relay with
  | nil => exact hended
  | cons event events ih => exact ih ((relay.entry_handle event).hasEnded hended)

theorem isOver_of_unpublish (horderly : relay.IsOrderly) {published : Nat}
    {record : PublicationRecord}
    (hrecord : relay.register.publications[published]? = some record)
    (hlisted : relay.register.directory.get? record.path = some published)
    (hmember : place ∈ record.subscribers) :
    (relay.stopPublishing published).2.ledger.IsOver place true := by
  have hseat : relay.register.Seats published place record.path :=
    ⟨record, hrecord, hmember, rfl⟩
  obtain ⟨play, hplay, -⟩ := horderly.seated.playing published place record.path hseat
  refine ⟨?_, fun other path hstill => ?_⟩
  · have hbefore : relay.plays[place]? = some play := hplay
    show (relay.stopPublishing published).2.plays[place]?.map _ = _
    rw [relay.plays_stopPublishing hrecord hlisted, Ledger.getElem?_closePlays, hbefore]
    simp [hmember, Play.close]
  · have hregister := relay.register_stopPublishing published
    simp only [ledger] at hstill
    rw [hregister, Register.seats_unpublish hrecord hlisted] at hstill
    exact hstill.2 (horderly.seated.unique other published place path record.path hstill.1 hseat)

theorem isOver_of_unsubscribe (horderly : relay.IsOrderly) {published : Nat}
    {record : PublicationRecord}
    (hrecord : relay.register.publications[published]? = some record)
    (hmember : place ∈ record.subscribers) :
    (relay.stopSubscribing published place).2.ledger.IsOver place false := by
  have hseat : relay.register.Seats published place record.path :=
    ⟨record, hrecord, hmember, rfl⟩
  obtain ⟨play, hplay, -, hrunning⟩ :=
    horderly.seated.playing published place record.path hseat
  refine ⟨?_, fun other path hstill => ?_⟩
  · have hbefore : relay.plays[place]? = some play := hplay
    show (relay.stopSubscribing published place).2.plays[place]?.map _ = _
    rw [relay.plays_stopSubscribing, hbefore, Option.map_some, hrunning]
  · have hregister := relay.register_stopSubscribing published place
    simp only [ledger] at hstill
    rw [hregister, Register.seats_unsubscribe] at hstill
    exact hstill.2
      ⟨horderly.seated.unique other published place path record.path hstill.1 hseat, rfl⟩

/-- Who is sent a farewell is marked. -/
theorem hasEnded_of_isFarewell (horderly : relay.IsOrderly) {event : RelayEvent}
    (hletter : letter ∈ relay.letters event) (hfarewell : letter.message.IsFarewell) :
    (relay.handle event).plays[letter.subscription]?.map Play.hasEnded = some true := by
  obtain ⟨published, record, rfl, hrecord, hlisted, hmember⟩ :=
    (of_mem_letters hletter).2 hfarewell
  exact (isOver_of_unpublish horderly hrecord hlisted hmember).marked

/-- Without the mark nobody was sent a farewell. -/
theorem not_isFarewell_of_run (horderly : relay.IsOrderly) (events : List RelayEvent)
    (hrunning : (relay.run events).plays[place]?.map Play.hasEnded ≠ some true) :
    ∀ letter ∈ Letter.meantFor place (relay.lettersOfRun events),
      ¬ letter.message.IsFarewell := by
  induction events generalizing relay with
  | nil => simp [lettersOfRun, Letter.meantFor]
  | cons event events ih =>
      intro letter hletter hfarewell
      rw [lettersOfRun, Letter.meantFor_append] at hletter
      rcases List.mem_append.mp hletter with hfirst | hothers
      · obtain ⟨hwritten, hplace⟩ := List.mem_filter.mp hfirst
        have hmarked := hasEnded_of_isFarewell horderly hwritten hfarewell
        rw [of_decide_eq_true hplace] at hmarked
        exact hrunning (hasEnded_run hmarked events)
      · exact ih (horderly.handle event) hrunning letter hothers hfarewell

/-- Nothing is sent on behalf of the subscription any more, and its mark stays. -/
def IsSilent (relay : Relay) (place : Nat) (hasEnded : Bool) : Prop :=
  ∀ later, Letter.meantFor place (relay.lettersOfRun later) = [] ∧
    (relay.run later).subscriptions[place]?.map Subscription.hasEnded = some hasEnded

theorem isSilent_of_isOver {hasEnded : Bool} (horderly : relay.IsOrderly)
    (hover : relay.ledger.IsOver place hasEnded) : relay.IsSilent place hasEnded := by
  intro later
  induction later generalizing relay with
  | nil =>
      refine ⟨rfl, ?_⟩
      have hmarked := hover.marked
      simp only [ledger, plays, List.getElem?_map, Option.map_map] at hmarked
      exact hmarked
  | cons event later ih =>
      have hentry := relay.entry_handle event
      obtain ⟨hsilent, hmarked⟩ := ih (horderly.handle event)
        (hover.handled hentry horderly.isSound horderly.seated)
      refine ⟨?_, hmarked⟩
      rw [lettersOfRun, Letter.meantFor_append, meantFor_letters_of_isOver hover, hsilent]
      rfl

/-! ## Once and last -/

/-- Who is on a list has not been sent a farewell. -/
theorem not_isFarewell_of_seats (horderly : relay.IsOrderly) {events : List RelayEvent}
    {published : Nat} {path : StreamPath}
    (hseat : (relay.run events).register.Seats published place path) :
    ∀ letter ∈ Letter.meantFor place (relay.lettersOfRun events),
      ¬ letter.message.IsFarewell := by
  obtain ⟨play, hplay, -, hrunning⟩ :=
    (horderly.run events).seated.playing published place path hseat
  have hfound : (relay.run events).plays[place]? = some play := hplay
  refine not_isFarewell_of_run horderly events ?_
  rw [hfound, Option.map_some, hrunning]
  simp

theorem endLetters_of_seats (horderly : relay.IsOrderly) {published : Nat} {path : StreamPath}
    (hseat : relay.register.Seats published place path) :
    ∃ subscription, relay.subscriptions[place]? = some subscription ∧
      relay.endLetters place =
        subscription.endMessages.map (Letter.mk place subscription.queue) := by
  obtain ⟨play, hplay, -, hrunning⟩ := horderly.seated.playing published place path hseat
  simp only [ledger, plays, List.getElem?_map] at hplay
  obtain ⟨subscription, hfound, rfl⟩ := Option.map_eq_some_iff.mp hplay
  have hmark : subscription.hasEnded = false := hrunning
  exact ⟨subscription, hfound, by simp [endLetters, hfound, hmark]⟩

theorem listed_of_stopPublishing {published : Nat} {publication : Publication}
    (hfound : relay.publications[published]? = some publication)
    (hstop : (relay.stopPublishing published).1 = true) :
    relay.directory.get? publication.path = some published := by
  refine Decidable.byContradiction fun hunlisted => ?_
  simp [stopPublishing, hfound, hunlisted] at hstop

theorem exists_of_stopSubscribing {published : Nat}
    (hstop : (relay.stopSubscribing published place).1 = true) :
    ∃ publication, relay.publications[published]? = some publication ∧
      place ∈ publication.subscribers := by
  unfold stopSubscribing at hstop
  split at hstop
  · rename_i publication hfound
    split at hstop
    · rename_i hmember
      exact ⟨publication, hfound, hmember⟩
    · cases hstop
  · cases hstop

/-- When a stream is stopped, each subscription on its list is sent the two
messages of its farewell, which it was not sent before.  Who leaves by himself is
sent none.  Either way nothing is sent on behalf of the subscription afterwards.
Letters reach the queues that they go to while these are open. -/
theorem farewell_once_and_last (configuration : RelayConfiguration)
    (spread : StreamPath → Nat) (pool : BufferPool) (observers : List Observer)
    (events : List RelayEvent) (place published : Nat) :
    let start := ofConfiguration configuration spread pool observers
    let relay := start.run events
    let stop := RelayEvent.called (.unpublish published)
    let leave := RelayEvent.called (.unsubscribe published place)
    (∀ publication, relay.publications[published]? = some publication →
      place ∈ publication.subscribers → (relay.stopPublishing published).1 = true →
        (∃ subscription, relay.subscriptions[place]? = some subscription ∧
          let streamId := subscription.streamId
          let description := s!"{subscription.path.text} is now unpublished."
          let messages : List OutboundMessage :=
            [.userControl (.streamEnd streamId),
              .status streamId "status" "NetStream.Play.UnpublishNotify" description]
          messages.map OutboundMessage.toWire =
              [.streamEnd streamId,
                .status streamId "NetStream.Play.UnpublishNotify" description] ∧
            Letter.meantFor place (relay.letters stop) =
              messages.map (Letter.mk place subscription.queue)) ∧
        (∀ letter ∈ Letter.meantFor place (start.lettersOfRun events),
          ¬ letter.message.IsFarewell) ∧
        (relay.handle stop).IsSilent place true) ∧
      ((relay.stopSubscribing published place).1 = true →
        (∀ letter ∈ Letter.meantFor place (start.lettersOfRun (events ++ [leave])),
          ¬ letter.message.IsFarewell) ∧
        (relay.handle leave).IsSilent place false) ∧
      ∀ event queue, (relay.handle event).queueAt queue =
        (relay.queueAside queue event).pushAll (Letter.into queue (relay.letters event)) := by
  intro start relay stop leave
  have hstart := isOrderly_ofConfiguration configuration spread pool observers
  have horderly : relay.IsOrderly := hstart.run events
  refine ⟨fun publication hfound hmember hstop => ?_, fun hleave => ?_,
    fun event queue => relay.queueAt_handle queue event⟩
  · have hlisted := listed_of_stopPublishing hfound hstop
    have hseat := seats_of_mem_subscribers hfound hmember
    refine ⟨?_, not_isFarewell_of_seats hstart hseat, ?_⟩
    · obtain ⟨subscription, hsubscription, hletters⟩ := endLetters_of_seats horderly hseat
      refine ⟨subscription, hsubscription, rfl, ?_⟩
      rw [meantFor_letters_unpublish hfound hlisted hmember]
      exact hletters
    · exact isSilent_of_isOver (horderly.handle stop)
        (isOver_of_unpublish horderly (relay.record_of_found hfound) hlisted hmember)
  · obtain ⟨publication, hfound, hmember⟩ := exists_of_stopSubscribing hleave
    have hseat := seats_of_mem_subscribers hfound hmember
    have hsilent : start.lettersOfRun (events ++ [leave]) = start.lettersOfRun events := by
      rw [lettersOfRun_append]
      exact List.append_nil _
    refine ⟨?_, ?_⟩
    · rw [hsilent]
      exact not_isFarewell_of_seats hstart hseat
    · exact isSilent_of_isOver (horderly.handle leave)
        (isOver_of_unsubscribe horderly (relay.record_of_found hfound) hmember)

/-- A stream with one viewer. -/
def withOneViewer : List RelayEvent :=
  let demo : StreamPath := ⟨"/live/demo"⟩
  [.moved .opened, .called (.publish ⟨1, demo, [], "live"⟩),
    .called (.subscribe ⟨2, 1, demo, [], 0⟩)]

/-- The viewer is sent the farewell when the stream is stopped, and not when it
leaves. -/
theorem farewell_of_withOneViewer :
    let start := ofConfiguration {} (fun _ => 0) {} []
    let relay := start.run withOneViewer
    let stopped := relay.handle (.called (.unpublish 0))
    let left := relay.handle (.called (.unsubscribe 0 0))
    Letter.meantFor 0 (relay.letters (.called (.unpublish 0))) =
        [⟨0, 0, .userControl (.streamEnd 1)⟩,
          ⟨0, 0, .status 1 "status" "NetStream.Play.UnpublishNotify"
            "/live/demo is now unpublished."⟩] ∧
      (stopped.queueAt 0).messages.map OutboundMessage.toWire =
        (relay.queueAt 0).messages.map OutboundMessage.toWire ++
          [⟨2, 0, 4, 0, [0, 1, 0, 0, 0, 1]⟩,
            .status 1 "NetStream.Play.UnpublishNotify" "/live/demo is now unpublished."] ∧
      stopped.IsSilent 0 true ∧ left.queueAt 0 = relay.queueAt 0 ∧ left.IsSilent 0 false := by
  intro start relay stopped left
  obtain ⟨hstopped, hleft, hqueues⟩ :=
    farewell_once_and_last {} (fun _ => 0) {} [] withOneViewer 0 0
  obtain ⟨⟨subscription, hfound, -, hletters⟩, -, hsilent⟩ :=
    hstopped _ rfl (List.mem_singleton.mpr rfl) rfl
  cases hfound
  refine ⟨hletters, ?_, hsilent, hqueues (.called (.unsubscribe 0 0)) 0, (hleft rfl).2⟩
  have hqueue := hqueues (.called (.unpublish 0)) 0
  exact congrArg (·.messages.map OutboundMessage.toWire) hqueue

end Relay

end LiveRelay
