import LiveRelay.Proofs.RelayRun

/-!
# Letters

What a relay sends on behalf of subscriptions are letters.  A letter is a
message with the subscription that it is meant for and the queue that it goes
to.  Each event has its letters, in the order in which they are sent: the
welcome of a new subscription, the frames and descriptions of a stream, and the
farewell to those that are on the list when the stream is stopped.

A queue takes the letters that go to it, and nothing else on behalf of a
subscription.
-/

namespace LiveRelay

structure Letter where
  /-- The place of the subscription. -/
  subscription : Nat
  queue : Nat
  message : OutboundMessage
  deriving DecidableEq, Repr

/-- What letters bring to one queue. -/
def Letter.into (queue : Nat) (letters : List Letter) : List OutboundMessage :=
  (letters.filter (·.queue = queue)).map Letter.message

/-- The letters that are meant for one subscription. -/
def Letter.meantFor (place : Nat) (letters : List Letter) : List Letter :=
  letters.filter (·.subscription = place)

namespace Relay

/-! ## The letters of an event -/

/-- All that a step yields which is taken for one subscription after the other. -/
def collect {α : Type} (step : Relay → Nat → Relay) (yields : Relay → Nat → List α)
    (relay : Relay) : List Nat → List α
  | [] => []
  | place :: places => yields relay place ++ collect step yields (step relay place) places

/-- A frame is left out for a queue with too many pending messages. -/
def frameLetters (numbered : NumberedFrame) (relay : Relay) (place : Nat) : List Letter :=
  match relay.subscriptions[place]? with
  | some subscription =>
      if subscription.wants numbered ∧
          ¬ (numbered.frame.isSkippable ∧
            relay.skipThreshold < relay.pending subscription.queue)
      then [⟨place, subscription.queue, subscription.messageFor numbered⟩] else []
  | none => []

def descriptionLetters (metadata : Properties) (relay : Relay) (place : Nat) : List Letter :=
  match relay.subscriptions[place]? with
  | some subscription => [⟨place, subscription.queue, subscription.metadataMessage metadata⟩]
  | none => []

def endLetters (relay : Relay) (place : Nat) : List Letter :=
  match relay.subscriptions[place]? with
  | some subscription =>
      if subscription.hasEnded then []
      else subscription.endMessages.map (Letter.mk place subscription.queue)
  | none => []

/-- The start messages, and what the cache holds. -/
def welcomeLetters (relay : Relay) (cache : MediaCache) (request : SubscribeRequest) :
    List Letter :=
  let subscription := request.subscription cache
  (subscription.startMessages ++ cache.primingMessages subscription).map
    (Letter.mk relay.subscriptions.length request.queue)

/-- A publication has lost its path, its cache and its list. -/
def takeDown (relay : Relay) (place : Nat) (publication : Publication) : Relay :=
  let relay := { relay with directory := relay.directory.erase publication.path }
  ((relay.clearCache place).clearMetadata place).updatePublication place
    ({ · with subscribers := [] })

def letters (relay : Relay) : RelayEvent → List Letter
  | .called (.unpublish place) =>
      match relay.publications[place]? with
      | some publication =>
          if relay.directory.get? publication.path = some place then
            (relay.takeDown place publication).collect endSubscription endLetters
              publication.subscribers
          else []
      | none => []
  | .called (.subscribe request) =>
      match relay.startSubscribing request,
        (relay.directory.get? request.path).bind (relay.publications[·]?) with
      | .ok _, some publication => relay.welcomeLetters publication.cache request
      | _, _ => []
  | .moved (.frame place kind timestamp payload) =>
      match relay.enter place (MediaFrame.classify kind payload) timestamp payload with
      | some (_, numbered, entered) =>
          entered.collect (fun relay subscriber => (relay.deliver numbered subscriber).2)
            (frameLetters numbered)
            ((entered.publications[place]?.map Publication.subscribers).getD [])
      | none => []
  | .moved (.described place metadata) =>
      match relay.publications[place]? with
      | some publication =>
          relay.collect
            (fun relay subscriber => (describeTo metadata (0, relay) subscriber).2)
            (descriptionLetters metadata) publication.subscribers
      | none => []
  | _ => []

/-- The letters of a whole run. -/
def lettersOfRun (relay : Relay) : List RelayEvent → List Letter
  | [] => []
  | event :: events => relay.letters event ++ (relay.handle event).lettersOfRun events

/-- What else an event does to a queue. -/
def queueAside (relay : Relay) (queue : Nat) : RelayEvent → OutboundQueue
  | .moved .opened =>
      if queue = relay.queues.length then {} else relay.queueAt queue
  | .moved (.sent place message) =>
      if place = queue then (relay.queueAt queue).push message else relay.queueAt queue
  | .moved (.received place count) =>
      if place = queue then (relay.queueAt queue).drop count else relay.queueAt queue
  | .moved (.closed place) =>
      if place = queue then (relay.queueAt queue).close else relay.queueAt queue
  | .moved (.hungUp place) =>
      if place = queue then { relay.queueAt queue with isOpen := false, messages := [] }
      else relay.queueAt queue
  | _ => relay.queueAt queue

end Relay

/-! ## Lists of letters -/

namespace Letter

variable (queue place : Nat)

theorem into_append (first second : List Letter) :
    into queue (first ++ second) = into queue first ++ into queue second := by
  simp [into]

theorem meantFor_append (first second : List Letter) :
    meantFor place (first ++ second) = meantFor place first ++ meantFor place second :=
  List.filter_append ..

theorem into_map_mk (destination : Nat) (messages : List OutboundMessage) :
    into queue (messages.map (Letter.mk place destination)) =
      if destination = queue then messages else [] := by
  by_cases hqueue : destination = queue
  · simp [into, List.filter_map, Function.comp_def, hqueue]
  · simp [into, List.filter_map, Function.comp_def, hqueue]

theorem meantFor_eq_nil_iff {letters : List Letter} :
    meantFor place letters = [] ↔ ∀ letter ∈ letters, letter.subscription ≠ place := by
  simp [meantFor, List.filter_eq_nil_iff]

end Letter

namespace Relay

theorem lettersOfRun_append (relay : Relay) (first second : List RelayEvent) :
    relay.lettersOfRun (first ++ second) =
      relay.lettersOfRun first ++ (relay.run first).lettersOfRun second := by
  induction first generalizing relay with
  | nil => rfl
  | cons event first ih => simp [lettersOfRun, run, ih]

section

variable {α : Type} {step : Relay → Nat → Relay} {yields : Relay → Nat → List α}

/-- What is yielded on the way is yielded for one of the subscriptions, while
everything holds that the step preserves. -/
theorem exists_of_mem_collect (holds : Relay → Prop)
    (hstep : ∀ relay place, holds relay → holds (step relay place)) {relay : Relay}
    (hstart : holds relay) {places : List Nat} {item : α}
    (hitem : item ∈ relay.collect step yields places) :
    ∃ before place, holds before ∧ place ∈ places ∧ item ∈ yields before place := by
  induction places generalizing relay with
  | nil => cases hitem
  | cons place places ih =>
      rcases List.mem_append.mp hitem with hfirst | hothers
      · exact ⟨relay, place, hstart, List.mem_cons_self, hfirst⟩
      · obtain ⟨before, other, hbefore, hother, hyielded⟩ := ih (hstep relay place hstart) hothers
        exact ⟨before, other, hbefore, List.mem_cons_of_mem _ hother, hyielded⟩

theorem queueAt_collect {queue : Nat} {lettersOf : Relay → Nat → List Letter}
    (hstep : ∀ relay place, (step relay place).queueAt queue =
      (relay.queueAt queue).pushAll (Letter.into queue (lettersOf relay place)))
    (relay : Relay) (places : List Nat) :
    (places.foldl step relay).queueAt queue =
      (relay.queueAt queue).pushAll
        (Letter.into queue (relay.collect step lettersOf places)) := by
  induction places generalizing relay with
  | nil => rfl
  | cons place places ih =>
      rw [List.foldl_cons, ih, hstep, collect, Letter.into_append,
        OutboundQueue.pushAll_append]

end

/-! ## Queues after one event -/

variable (relay : Relay) (queue : Nat)

theorem queueAt_deliver (numbered : NumberedFrame) (place : Nat) :
    (relay.deliver numbered place).2.queueAt queue =
      (relay.queueAt queue).pushAll
        (Letter.into queue (frameLetters numbered relay place)) := by
  have hsends : Sends queue _ relay (relay.deliver numbered place).2 :=
    sends_deliver relay numbered place
  have hletters : Letter.into queue (frameLetters numbered relay place) =
      relay.messagesTo queue numbered place := by
    unfold frameLetters messagesTo
    rw [getElem?_streams_subscriptions]
    cases relay.subscriptions[place]? with
    | none => rfl
    | some subscription =>
        have hwants : subscription.uncounted.wants numbered =
            subscription.wants numbered := rfl
        have hqueue : subscription.uncounted.queue = subscription.queue := rfl
        simp only [Option.map_some, hwants, hqueue, pending_eq]
        by_cases hsame : subscription.queue = queue
        · subst hsame
          split <;> simp_all [Letter.into, Subscription.messageFor, Subscription.uncounted]
        · simp only [hsame, false_and, if_false]
          split <;> simp [Letter.into, hsame]
  rw [hsends.queueAt, hletters]

theorem queueAt_describeTo (metadata : Properties) (sent place : Nat) :
    (describeTo metadata (sent, relay) place).2.queueAt queue =
      (relay.queueAt queue).pushAll
        (Letter.into queue (descriptionLetters metadata relay place)) := by
  unfold describeTo descriptionLetters
  simp only
  cases relay.subscriptions[place]? with
  | none => rfl
  | some subscription =>
      have hsends : Sends queue _ relay
          (relay.send subscription.queue (subscription.metadataMessage metadata)).2 :=
        sends_send relay subscription.queue _
      have hletters := Letter.into_map_mk queue place subscription.queue
        [subscription.metadataMessage metadata]
      exact hsends.queueAt.trans (congrArg _ hletters.symm)

theorem queueAt_endSubscription (place : Nat) :
    (relay.endSubscription place).queueAt queue =
      (relay.queueAt queue).pushAll (Letter.into queue (relay.endLetters place)) := by
  unfold endSubscription endLetters
  cases relay.subscriptions[place]? with
  | none => rfl
  | some subscription =>
      simp only
      split
      · rfl
      · have hsends : Sends queue _
            (relay.updateSubscription place ({ · with hasEnded := true })) _ :=
          sends_sendAll (relay.updateSubscription place ({ · with hasEnded := true }))
            subscription.queue subscription.endMessages
        rw [hsends.queueAt, Letter.into_map_mk]
        rfl

/-- Delivering to all is delivering to one after the other. -/
theorem deliverAll_eq_foldl (numbered : NumberedFrame) (places : List Nat) :
    (relay.deliverAll numbered places).2 =
      places.foldl (fun relay place => (relay.deliver numbered place).2) relay := by
  unfold deliverAll
  exact (List.foldl_hom Prod.snd fun _ _ => rfl).symm

theorem describeAll_eq_foldl (metadata : Properties) (places : List Nat) :
    (relay.describeAll metadata places).2 =
      places.foldl (fun relay place => (describeTo metadata (0, relay) place).2) relay := by
  refine (List.foldl_hom Prod.snd fun state place => ?_).symm
  unfold describeTo
  simp only
  split <;> rfl

theorem stopPublishing_eq {place : Nat} {publication : Publication}
    (hfound : relay.publications[place]? = some publication)
    (hlisted : relay.directory.get? publication.path = some place) :
    (relay.stopPublishing place).2 =
      publication.subscribers.foldl endSubscription (relay.takeDown place publication) := by
  simp only [stopPublishing, hfound, if_pos hlisted]
  rfl

theorem queueAt_takeDown (place : Nat) (publication : Publication) :
    (relay.takeDown place publication).queueAt queue = relay.queueAt queue := by
  unfold takeDown clearCache
  simp only
  split <;> rfl

theorem queueAt_unpublish (place : Nat) :
    (relay.stopPublishing place).2.queueAt queue =
      (relay.queueAt queue).pushAll
        (Letter.into queue (relay.letters (.called (.unpublish place)))) := by
  simp only [letters]
  cases hfound : relay.publications[place]? with
  | none =>
      simp only [stopPublishing, hfound]
      rfl
  | some publication =>
      simp only
      split
      · rename_i hlisted
        rw [relay.stopPublishing_eq hfound hlisted,
          queueAt_collect (queueAt_endSubscription · queue), queueAt_takeDown]
      · rename_i hlisted
        simp only [stopPublishing, hfound, if_neg hlisted]
        rfl

theorem letters_subscribe {request : SubscribeRequest} {place subscription : Nat}
    {started : Relay}
    (hstart : relay.startSubscribing request = .ok ((place, subscription), started)) :
    ∃ publication, relay.streams.publications[place]? = some publication ∧
      started = (relay.join place publication.cache request).2 ∧
      relay.letters (.called (.subscribe request)) =
        relay.welcomeLetters publication.cache request := by
  obtain ⟨publication, hpath, hfound, -, -, hjoined⟩ := startSubscribing_spec hstart
  refine ⟨publication, hfound, hjoined, ?_⟩
  rw [getElem?_streams_publications] at hfound
  obtain ⟨counted, hcounted, hsame⟩ := Option.map_eq_some_iff.mp hfound
  have hcache : counted.cache = publication.cache := by
    rw [← hsame]
    rfl
  have hdirectory : relay.directory.get? request.path = some place := hpath
  simp only [letters, hstart, hdirectory, Option.bind_some, hcounted, hcache]

theorem letters_subscribe_of_error {request : SubscribeRequest} {error : RegistryError}
    (hstart : relay.startSubscribing request = .error error) :
    relay.letters (.called (.subscribe request)) = [] := by
  simp only [letters, hstart]

theorem queueAt_subscribe (request : SubscribeRequest) :
    (relay.call (.subscribe request)).2.queueAt queue =
      (relay.queueAt queue).pushAll
        (Letter.into queue (relay.letters (.called (.subscribe request)))) := by
  rcases relay.call_subscribe request with
    ⟨place, subscription, started, hstart, hcalled⟩ | ⟨error, hstart, hcalled⟩
  · obtain ⟨publication, hfound, rfl, hletters⟩ := relay.letters_subscribe hstart
    obtain ⟨-, hqueue, -⟩ := join_spec hfound publication.cache request queue
    rw [hcalled, hqueue, hletters, welcomeLetters, Letter.into_map_mk]
  · rw [hcalled, relay.letters_subscribe_of_error hstart]
    rfl

theorem queueAt_enter {place : Nat} {frame : MediaFrame} {timestamp : UInt32} {payload : Bytes}
    {change : CacheChange} {numbered : NumberedFrame} {entered : Relay}
    (henter : relay.enter place frame timestamp payload = some (change, numbered, entered)) :
    entered.queueAt queue = relay.queueAt queue := by
  obtain ⟨cache, counters, pool, rfl⟩ := exists_eq_of_enter henter
  rfl

theorem queueAt_frame (place : Nat) (kind : MediaKind) (timestamp : UInt32)
    (payload : Bytes) :
    (relay.distribute place kind timestamp payload).2.queueAt queue =
      (relay.queueAt queue).pushAll
        (Letter.into queue (relay.letters (.moved (.frame place kind timestamp payload)))) := by
  simp only [distribute, letters]
  cases henter : relay.enter place (MediaFrame.classify kind payload) timestamp payload with
  | none => rfl
  | some result =>
      obtain ⟨change, numbered, entered⟩ := result
      have hsilent : Sends queue [] (entered.broadcast place numbered).2 _ :=
        (sends_showChange _ (entered.pathOf place) numbered change).silent_trans
          (sends_finish _ place (entered.pathOf place) numbered
            (entered.broadcast place numbered).1)
      refine hsilent.queueAt.trans ?_
      show (entered.broadcast place numbered).2.queueAt queue = _
      rw [broadcast, deliverAll_eq_foldl,
        queueAt_collect (queueAt_deliver · queue numbered),
        relay.queueAt_enter queue henter]

theorem queueAt_described (place : Nat) (metadata : Properties) :
    (relay.distributeMetadata place metadata).2.queueAt queue =
      (relay.queueAt queue).pushAll
        (Letter.into queue (relay.letters (.moved (.described place metadata)))) := by
  simp only [distributeMetadata, letters]
  cases relay.publications[place]? with
  | none => rfl
  | some publication =>
      show (relay.describeAll metadata publication.subscribers).2.queueAt queue = _
      rw [describeAll_eq_foldl,
        queueAt_collect (queueAt_describeTo · queue metadata 0)]

theorem queueAt_discardAllBut (held : List Nat) :
    (relay.discardAllBut held).queueAt queue = relay.queueAt queue := by
  refine foldl_keeps (·.queueAt queue) (fun relay place => ?_) _ relay
  unfold discard clearCache
  split
  · split
    · rfl
    · split <;> rfl
  · rfl

/-- A queue has taken the letters that go to it, and besides only what the event
does to the queue itself. -/
theorem queueAt_handle (event : RelayEvent) :
    (relay.handle event).queueAt queue =
      (relay.queueAside queue event).pushAll (Letter.into queue (relay.letters event)) := by
  cases event with
  | called call =>
      cases call with
      | publish request =>
          show (relay.call (.publish request)).2.queueAt queue = relay.queueAt queue
          rcases relay.call_publish request with ⟨_, _, hstart, hcalled⟩ | ⟨_, _, hcalled⟩
          · rw [hcalled]
            unfold startPublishing at hstart
            split at hstart
            · cases hstart
            · simp only [Except.ok.injEq, Prod.mk.injEq] at hstart
              obtain ⟨-, rfl⟩ := hstart
              rfl
          · rw [hcalled]
      | unpublish place => exact relay.queueAt_unpublish queue place
      | subscribe request => exact relay.queueAt_subscribe queue request
      | unsubscribe place subscription =>
          show (relay.stopSubscribing place subscription).2.queueAt queue = relay.queueAt queue
          unfold stopSubscribing
          split
          · split <;> rfl
          · rfl
      | find path => rfl
      | count => rfl
  | moved traffic =>
      cases traffic with
      | frame place kind timestamp payload =>
          exact relay.queueAt_frame queue place kind timestamp payload
      | described place metadata => exact relay.queueAt_described queue place metadata
      | undescribed place => rfl
      | paused subscription isPaused => rfl
      | chosen subscription kind isWanted => rfl
      | opened => exact relay.queueAt_openQueue queue
      | sent place message =>
          have hsends : Sends queue _ relay (relay.send place message).2 :=
            sends_send relay place message
          refine hsends.queueAt.trans ?_
          simp only [queueAside]
          split <;> rfl
      | received place count => exact (relay.receiveSome_spec place count queue).2.2.1
      | closed place => exact relay.queueAt_closeQueue place queue
      | hungUp place => exact relay.queueAt_hangUpQueue place queue
      | noted notice => rfl
      | logTaken => rfl
      | keptReleased => rfl
      | discarded held => exact relay.queueAt_discardAllBut queue held

end Relay

end LiveRelay
