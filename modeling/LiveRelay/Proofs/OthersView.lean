import LiveRelay.Proofs.StreamOperations

/-!
# What a session leaves to the others

All sessions share one relay.  What one of them may do there is told by what it
leaves to the others: their publications with all that they have cached and
counted, the paths these are found under, and the terms of their subscriptions.
Of a subscriber list only the places of other sessions count.

Queues are not part of this.  The queue of another session may be sent
something, but only if it is in the audience: a subscription that sends to it
is on the list of a publication of the session.
-/

namespace LiveRelay

/-- A subscription without what the publishing session may change of it. -/
def Subscription.terms (subscription : Subscription) : Subscription :=
  { subscription with hasEnded := false, dropped := 0 }

structure OthersView where
  publication? : Nat → Option Publication
  subscription? : Nat → Option Subscription
  registration? : StreamPath → Option Nat

theorem OthersView.ext {first second : OthersView}
    (hpublication : ∀ place, first.publication? place = second.publication? place)
    (hsubscription : ∀ place, first.subscription? place = second.subscription? place)
    (hregistration : ∀ path, first.registration? path = second.registration? path) :
    first = second := by
  cases first
  cases second
  simp only [OthersView.mk.injEq]
  exact ⟨funext hpublication, funext hsubscription, funext hregistration⟩

namespace Relay

/-- The session of a publication. -/
def publisher? (relay : Relay) (place : Nat) : Option Nat :=
  relay.publications[place]?.map Publication.session

/-- A publication of another session. -/
def isOthersStream (relay : Relay) (session place : Nat) : Bool :=
  (relay.publisher? place).any (· ≠ session)

/-- The session of a subscription, and the queue that it sends to. -/
def seat? (relay : Relay) (place : Nat) : Option (Nat × Nat) :=
  relay.subscriptions[place]?.map fun subscription =>
    (subscription.session, subscription.queue)

/-- A subscription of another session. -/
def isOthers (relay : Relay) (session place : Nat) : Bool :=
  relay.subscriptions[place]?.any fun subscription => subscription.session ≠ session

def othersSubscribers (relay : Relay) (session : Nat) (publication : Publication) :
    List Nat :=
  publication.subscribers.filter (relay.isOthers session)

/-- A publication of another session, without the subscriptions of the session. -/
def leftOf? (relay : Relay) (session : Nat) (publication : Publication) :
    Option Publication :=
  if publication.session = session then none
  else
    some { publication with subscribers := relay.othersSubscribers session publication }

def othersView (relay : Relay) (session : Nat) : OthersView where
  publication? place := relay.publications[place]?.bind (relay.leftOf? session)
  subscription? place :=
    relay.subscriptions[place]?.bind fun subscription =>
      if subscription.session = session then none else some subscription.terms
  registration? path := (relay.directory.get? path).filter (relay.isOthersStream session)

/-- A subscription on the list of a publication of the session sends to the
queue. -/
def IsAudience (relay : Relay) (session queue : Nat) : Prop :=
  ∃ (place : Nat) (publication : Publication),
    relay.publications[place]? = some publication ∧ publication.session = session ∧
    ∃ subscriber ∈ publication.subscribers,
      ∃ owner, relay.seat? subscriber = some (owner, queue)

/-! ## Keeping to one's own -/

/-- A session with a queue has done something that has left the others what they
have, and has sent something at most to its own queue and to some others. -/
structure KeepsTo (session queue : Nat) (reaches : Nat → Prop) (before after : Relay) :
    Prop where
  othersView_eq : after.othersView session = before.othersView session
  publisher_eq : ∀ place, after.publisher? place = before.publisher? place ∨
    before.publisher? place = none ∧ after.publisher? place = some session
  seat_eq : ∀ place, after.seat? place = before.seat? place ∨
    before.seat? place = none ∧ after.seat? place = some (session, queue)
  isAudience : ∀ other, other ≠ queue → after.IsAudience session other →
    before.IsAudience session other
  length_queues : after.queues.length = before.queues.length
  queue_eq : ∀ other, other ≠ queue → ¬ reaches other →
    after.queues[other]? = before.queues[other]?

variable {session queue place : Nat} {reaches : Nat → Prop}
  {relay before middle after : Relay}

namespace KeepsTo

theorem refl (session queue : Nat) (reaches : Nat → Prop) (relay : Relay) :
    KeepsTo session queue reaches relay relay where
  othersView_eq := rfl
  publisher_eq _ := .inl rfl
  seat_eq _ := .inl rfl
  isAudience _ _ := id
  length_queues := rfl
  queue_eq _ _ _ := rfl

theorem trans (hfirst : KeepsTo session queue reaches before middle)
    (hsecond : KeepsTo session queue reaches middle after) :
    KeepsTo session queue reaches before after where
  othersView_eq := hsecond.othersView_eq.trans hfirst.othersView_eq
  publisher_eq place := by
    rcases hfirst.publisher_eq place with hsame | ⟨hnone, hnew⟩
    · rw [← hsame]
      exact hsecond.publisher_eq place
    · refine .inr ⟨hnone, ?_⟩
      rcases hsecond.publisher_eq place with hkept | ⟨habsent, -⟩
      · rw [hkept, hnew]
      · rw [hnew] at habsent
        cases habsent
  seat_eq place := by
    rcases hfirst.seat_eq place with hsame | ⟨hnone, hnew⟩
    · rw [← hsame]
      exact hsecond.seat_eq place
    · refine .inr ⟨hnone, ?_⟩
      rcases hsecond.seat_eq place with hkept | ⟨habsent, -⟩
      · rw [hkept, hnew]
      · rw [hnew] at habsent
        cases habsent
  isAudience other hother hafter :=
    hfirst.isAudience other hother (hsecond.isAudience other hother hafter)
  length_queues := hsecond.length_queues.trans hfirst.length_queues
  queue_eq other hother hfar :=
    (hsecond.queue_eq other hother hfar).trans (hfirst.queue_eq other hother hfar)

theorem mono {wider : Nat → Prop} (hkeeps : KeepsTo session queue reaches before after)
    (hwider : ∀ other, other ≠ queue → reaches other → wider other) :
    KeepsTo session queue wider before after :=
  { hkeeps with
    queue_eq := fun other hother hfar =>
      hkeeps.queue_eq other hother fun hreached => hfar (hwider other hother hreached) }

/-- A publication stays that of its session. -/
theorem publisher (hkeeps : KeepsTo session queue reaches before after) {owner : Nat}
    (hpublisher : before.publisher? place = some owner) :
    after.publisher? place = some owner := by
  rcases hkeeps.publisher_eq place with hsame | ⟨hnone, -⟩
  · rw [hsame, hpublisher]
  · rw [hpublisher] at hnone
    cases hnone

/-- A subscription stays that of its session. -/
theorem seat (hkeeps : KeepsTo session queue reaches before after) {seat : Nat × Nat}
    (hseat : before.seat? place = some seat) : after.seat? place = some seat := by
  rcases hkeeps.seat_eq place with hsame | ⟨hnone, -⟩
  · rw [hsame, hseat]
  · rw [hseat] at hnone
    cases hnone

end KeepsTo

/-! ## Queues, notices and buffers -/

/-- Nothing but queues has changed, and of these only some. -/
theorem keepsTo_of_queues (hdirectory : after.directory = before.directory)
    (hpublications : after.publications = before.publications)
    (hsubscriptions : after.subscriptions = before.subscriptions)
    (hlength : after.queues.length = before.queues.length)
    (hqueue : ∀ other, other ≠ queue → ¬ reaches other →
      after.queues[other]? = before.queues[other]?) :
    KeepsTo session queue reaches before after where
  othersView_eq := by
    unfold othersView leftOf? othersSubscribers isOthers isOthersStream publisher?
    rw [hdirectory, hpublications, hsubscriptions]
  publisher_eq place := by
    unfold publisher?
    rw [hpublications]
    exact .inl rfl
  seat_eq place := by
    unfold seat?
    rw [hsubscriptions]
    exact .inl rfl
  isAudience other _ := by
    unfold IsAudience seat?
    rw [hpublications, hsubscriptions]
    exact id
  length_queues := hlength
  queue_eq := hqueue

/-- Neither streams nor queues have changed. -/
theorem keepsTo_of_eq (hdirectory : after.directory = before.directory)
    (hpublications : after.publications = before.publications)
    (hsubscriptions : after.subscriptions = before.subscriptions)
    (hqueues : after.queues = before.queues) :
    KeepsTo session queue reaches before after :=
  keepsTo_of_queues hdirectory hpublications hsubscriptions (by rw [hqueues])
    fun _ _ _ => by rw [hqueues]

theorem KeepsTo.withPool (hkeeps : KeepsTo session queue reaches before after)
    (pool : BufferPool) :
    KeepsTo session queue reaches before { after with pool := pool } :=
  hkeeps.trans (keepsTo_of_eq rfl rfl rfl rfl)

theorem keepsTo_foldl {α : Type} {step : Relay → α → Relay}
    (hstep : ∀ relay item, KeepsTo session queue reaches relay (step relay item))
    (relay : Relay) (items : List α) :
    KeepsTo session queue reaches relay (items.foldl step relay) := by
  induction items generalizing relay with
  | nil => exact .refl session queue reaches relay
  | cons item items ih => exact (hstep relay item).trans (ih _)

theorem keepsTo_note (relay : Relay) (notice : Notice) :
    KeepsTo session queue reaches relay (relay.note notice) :=
  keepsTo_of_eq rfl rfl rfl rfl

theorem keepsTo_observe (relay : Relay) (path : StreamPath) (observation : Observation) :
    KeepsTo session queue reaches relay (relay.observe path observation) :=
  keepsTo_foldl (fun relay _ => keepsTo_note relay _) relay _

theorem keepsTo_showKeyFrame (relay : Relay) (path : StreamPath)
    (numbered : NumberedFrame) :
    KeepsTo session queue reaches relay (relay.showKeyFrame path numbered) := by
  apply keepsTo_foldl
  intro relay observer
  unfold showKeyFrameTo
  simp only
  split <;> exact keepsTo_of_eq rfl rfl rfl rfl

theorem keepsTo_showChange (relay : Relay) (path : StreamPath)
    (numbered : NumberedFrame) (change : CacheChange) :
    KeepsTo session queue reaches relay (relay.showChange path numbered change) := by
  cases change with
  | unnoticed => exact .refl session queue reaches relay
  | headerSet => exact keepsTo_observe relay path _
  | groupStarted cleared =>
      cases cleared with
      | false => exact keepsTo_showKeyFrame relay path numbered
      | true => exact (keepsTo_observe relay path _).trans (keepsTo_showKeyFrame _ path _)

/-- A message has gone to the session's own queue or to one that it reaches. -/
theorem keepsTo_send (relay : Relay) (message : OutboundMessage)
    (hplace : place = queue ∨ reaches place) :
    KeepsTo session queue reaches relay (relay.send place message).2 := by
  refine keepsTo_of_queues rfl rfl rfl (List.length_set ..) ?_
  intro other hother hfar
  have hne : place ≠ other := by
    rintro rfl
    exact hplace.elim hother hfar
  exact List.getElem?_set_ne hne

theorem keepsTo_sendAll (relay : Relay) (messages : List OutboundMessage)
    (hplace : place = queue ∨ reaches place) :
    KeepsTo session queue reaches relay (relay.sendAll place messages) :=
  keepsTo_foldl (fun relay message => keepsTo_send relay message hplace) relay messages

theorem keepsTo_closeQueue (relay : Relay) :
    KeepsTo session queue reaches relay (relay.closeQueue queue) :=
  keepsTo_of_queues rfl rfl rfl (List.length_modify ..) fun _ hother _ =>
    List.getElem?_modify_ne _ _ hother.symm

theorem keepsTo_hangUpQueue (relay : Relay) :
    KeepsTo session queue reaches relay (relay.hangUpQueue queue) := by
  unfold hangUpQueue
  split
  · exact keepsTo_of_queues rfl rfl rfl (List.length_set ..) fun _ hother _ =>
      List.getElem?_set_ne hother.symm
  · exact .refl session queue reaches relay

/-! ## Subscriptions -/

theorem isOthers_eq_false (hseat : relay.seat? place = some (session, queue)) :
    relay.isOthers session place = false := by
  obtain ⟨subscription, hsubscription, hsame⟩ := Option.map_eq_some_iff.mp hseat
  have hsession : subscription.session = session := congrArg Prod.fst hsame
  simp [isOthers, hsubscription, hsession]

theorem seat?_updateSubscription (relay : Relay) (changed place : Nat)
    {change : Subscription → Subscription}
    (hsession : ∀ subscription, (change subscription).session = subscription.session)
    (hqueue : ∀ subscription, (change subscription).queue = subscription.queue) :
    (relay.updateSubscription changed change).seat? place = relay.seat? place := by
  simp only [seat?, updateSubscription, List.getElem?_modify, Option.map_eq_map,
    Option.map_map]
  congr 1
  funext subscription
  by_cases hplace : changed = place
  · simp [hplace, hsession, hqueue]
  · simp [hplace]

/-- Of a subscription its own session has changed something, or another one has
changed nothing of its terms. -/
theorem keepsTo_updateSubscription (relay : Relay) (place : Nat)
    {change : Subscription → Subscription}
    (hsession : ∀ subscription, (change subscription).session = subscription.session)
    (hqueue : ∀ subscription, (change subscription).queue = subscription.queue)
    (hterms : ∀ subscription, relay.subscriptions[place]? = some subscription →
      subscription.session = session ∨
        (change subscription).terms = subscription.terms) :
    KeepsTo session queue reaches relay (relay.updateSubscription place change) := by
  have hothers : ∀ other,
      (relay.updateSubscription place change).isOthers session other =
        relay.isOthers session other := by
    intro other
    simp only [isOthers, updateSubscription, List.getElem?_modify, Option.map_eq_map]
    cases relay.subscriptions[other]? with
    | none => rfl
    | some subscription => by_cases hplace : place = other <;> simp [hplace, hsession]
  have hleft : (relay.updateSubscription place change).leftOf? session =
      relay.leftOf? session := by
    funext publication
    unfold leftOf? othersSubscribers
    rw [funext hothers]
  refine ⟨OthersView.ext (fun _ => ?_) (fun other => ?_) (fun _ => rfl), fun _ => .inl rfl,
    fun other => .inl (seat?_updateSubscription relay place other hsession hqueue), ?_, rfl,
    fun _ _ _ => rfl⟩
  · simp only [othersView, hleft]
    rfl
  · simp only [othersView, updateSubscription, List.getElem?_modify, Option.map_eq_map]
    cases hother : relay.subscriptions[other]? with
    | none => rfl
    | some subscription =>
        by_cases hplace : place = other
        · subst hplace
          rcases hterms subscription hother with hown | hkept
          · simp [hsession, hown]
          · simp [hsession, hkept]
        · simp [hplace]
  · intro other _
    unfold IsAudience
    simp only [seat?_updateSubscription relay place _ hsession hqueue]
    exact id

/-- A subscription of the session has come behind the others. -/
theorem keepsTo_append (relay : Relay) {subscription : Subscription}
    (hsession : subscription.session = session) (hqueue : subscription.queue = queue) :
    KeepsTo session queue reaches relay
      { relay with subscriptions := relay.subscriptions ++ [subscription] } := by
  have hseat : ∀ place,
      Relay.seat? { relay with subscriptions := relay.subscriptions ++ [subscription] }
          place = relay.seat? place ∨
        relay.seat? place = none ∧
          Relay.seat? { relay with subscriptions := relay.subscriptions ++ [subscription] }
            place = some (session, queue) := by
    intro place
    simp only [seat?, List.getElem?_append]
    by_cases hold : place < relay.subscriptions.length
    · exact .inl (by rw [if_pos hold])
    · rw [if_neg hold, List.getElem?_eq_none (Nat.le_of_not_lt hold)]
      rcases Nat.eq_zero_or_pos (place - relay.subscriptions.length) with hlast | hbehind
      · exact .inr ⟨rfl, by simp [hlast, hsession, hqueue]⟩
      · exact .inl (by rw [List.getElem?_eq_none hbehind])
  have hothers : ∀ place,
      Relay.isOthers { relay with subscriptions := relay.subscriptions ++ [subscription] }
        session place = relay.isOthers session place := by
    intro place
    simp only [isOthers, List.getElem?_append]
    by_cases hold : place < relay.subscriptions.length
    · rw [if_pos hold]
    · rw [if_neg hold, List.getElem?_eq_none (Nat.le_of_not_lt hold)]
      rcases Nat.eq_zero_or_pos (place - relay.subscriptions.length) with hlast | hbehind
      · simp [hlast, hsession]
      · rw [List.getElem?_eq_none hbehind]
  have hleft : Relay.leftOf?
      { relay with subscriptions := relay.subscriptions ++ [subscription] } session =
        relay.leftOf? session := by
    funext publication
    unfold leftOf? othersSubscribers
    rw [funext hothers]
  refine ⟨OthersView.ext (fun _ => ?_) (fun place => ?_) (fun _ => rfl), fun _ => .inl rfl,
    hseat, ?_, rfl, fun _ _ _ => rfl⟩
  · simp only [othersView, hleft]
  · simp only [othersView, List.getElem?_append]
    by_cases hold : place < relay.subscriptions.length
    · rw [if_pos hold]
    · rw [if_neg hold, List.getElem?_eq_none (Nat.le_of_not_lt hold)]
      rcases Nat.eq_zero_or_pos (place - relay.subscriptions.length) with hlast | hbehind
      · simp [hlast, hsession]
      · rw [List.getElem?_eq_none hbehind]
  · rintro other hother ⟨place, publication, hpublication, hown, subscriber, hlisted, owner,
      hsubscriber⟩
    refine ⟨place, publication, hpublication, hown, subscriber, hlisted, owner, ?_⟩
    rcases hseat subscriber with hsame | ⟨-, hnew⟩
    · rwa [hsame] at hsubscriber
    · rw [hnew] at hsubscriber
      exact absurd (congrArg Prod.snd (Option.some.inj hsubscriber)).symm hother

/-! ## Publications -/

/-- What the session may make of a publication: its own one may change, but nobody
else comes onto the list; of another one the list may gain and lose its own
subscriptions. -/
structure Respects (relay : Relay) (session queue : Nat) (before after : Publication) :
    Prop where
  session_eq : after.session = before.session
  leftOf?_eq : relay.leftOf? session after = relay.leftOf? session before
  subscriber : ∀ subscriber ∈ after.subscribers, subscriber ∈ before.subscribers ∨
    relay.seat? subscriber = some (session, queue)

theorem respects_of_own {before after : Publication} (hown : before.session = session)
    (hsession : after.session = before.session)
    (hsubscribers : after.subscribers ⊆ before.subscribers) :
    Respects relay session queue before after where
  session_eq := hsession
  leftOf?_eq := by
    unfold leftOf?
    rw [if_pos (hsession.trans hown), if_pos hown]
  subscriber _ hlisted := .inl (hsubscribers hlisted)

theorem respects_append {subscriber : Nat}
    (hseat : relay.seat? subscriber = some (session, queue)) (publication : Publication) :
    Respects relay session queue publication
      { publication with subscribers := publication.subscribers ++ [subscriber] } where
  session_eq := rfl
  leftOf?_eq := by
    simp [leftOf?, othersSubscribers, isOthers_eq_false hseat]
  subscriber other hlisted := by
    rcases List.mem_append.mp hlisted with hold | hnew
    · exact .inl hold
    · rw [List.mem_singleton.mp hnew]
      exact .inr hseat

theorem respects_filter {subscriber : Nat}
    (hseat : relay.seat? subscriber = some (session, queue)) (publication : Publication) :
    Respects relay session queue publication
      { publication with
        subscribers := publication.subscribers.filter (· ≠ subscriber) } where
  session_eq := rfl
  leftOf?_eq := by
    have hfilter : (publication.subscribers.filter (· ≠ subscriber)).filter
        (relay.isOthers session) = publication.subscribers.filter (relay.isOthers session) := by
      rw [List.filter_filter]
      apply List.filter_congr
      intro other _
      by_cases hsame : other = subscriber
      · simp [hsame, isOthers_eq_false hseat]
      · simp [hsame]
    simp only [leftOf?, othersSubscribers, hfilter]
  subscriber _ hlisted := .inl (List.mem_filter.mp hlisted).1

theorem publisher?_updatePublication (relay : Relay) (changed place : Nat)
    {change : Publication → Publication}
    (hsession : ∀ publication, relay.publications[changed]? = some publication →
      (change publication).session = publication.session) :
    (relay.updatePublication changed change).publisher? place = relay.publisher? place := by
  simp only [publisher?, updatePublication, List.getElem?_modify, Option.map_eq_map]
  by_cases hplace : changed = place
  · subst hplace
    cases hfound : relay.publications[changed]? with
    | none => rfl
    | some publication => simp [hsession publication hfound]
  · simp [hplace]

theorem keepsTo_updatePublication (relay : Relay) (place : Nat)
    {change : Publication → Publication}
    (hchange : ∀ publication, relay.publications[place]? = some publication →
      Respects relay session queue publication (change publication)) :
    KeepsTo session queue reaches relay (relay.updatePublication place change) := by
  have hpublisher : ∀ other,
      (relay.updatePublication place change).publisher? other = relay.publisher? other :=
    fun other => publisher?_updatePublication relay place other fun publication hfound =>
      (hchange publication hfound).session_eq
  refine ⟨OthersView.ext (fun other => ?_) (fun _ => rfl) (fun path => ?_),
    fun other => .inl (hpublisher other), fun _ => .inl rfl, ?_, rfl, fun _ _ _ => rfl⟩
  · show (relay.updatePublication place change).publications[other]?.bind
      (relay.leftOf? session) = relay.publications[other]?.bind (relay.leftOf? session)
    simp only [updatePublication, List.getElem?_modify, Option.map_eq_map]
    by_cases hplace : place = other
    · subst hplace
      cases hfound : relay.publications[place]? with
      | none => rfl
      | some publication => simp [(hchange publication hfound).leftOf?_eq]
    · simp [hplace]
  · show (relay.directory.get? path).filter _ =
      (relay.directory.get? path).filter (relay.isOthersStream session)
    congr 1
    funext other
    rw [isOthersStream, hpublisher]
    rfl
  · rintro other hother ⟨changed, publication, hpublication, hown, subscriber, hlisted, owner,
      hsubscriber⟩
    simp only [updatePublication, List.getElem?_modify, Option.map_eq_map] at hpublication
    obtain ⟨found, hfound, rfl⟩ := Option.map_eq_some_iff.mp hpublication
    by_cases hplace : place = changed
    · subst hplace
      have hrespects := hchange found hfound
      simp only [if_true] at hown hlisted
      rcases hrespects.subscriber subscriber hlisted with hold | hnew
      · exact ⟨place, found, hfound, hrespects.session_eq.symm.trans hown, subscriber, hold,
          owner, hsubscriber⟩
      · have hseat : relay.seat? subscriber = some (owner, other) := hsubscriber
        rw [hnew] at hseat
        exact absurd (congrArg Prod.snd (Option.some.inj hseat)).symm hother
    · simp only [if_neg hplace] at hown hlisted
      exact ⟨changed, found, hfound, hown, subscriber, hlisted, owner, hsubscriber⟩

theorem session_of_publisher? {publication : Publication} {owner : Nat}
    (hpublisher : relay.publisher? place = some owner)
    (hfound : relay.publications[place]? = some publication) :
    publication.session = owner := by
  simpa [publisher?, hfound] using hpublisher

/-- A publication of the session changes, but its list does not grow. -/
theorem keepsTo_updateOwn (hown : relay.publisher? place = some session)
    {change : Publication → Publication}
    (hsession : ∀ publication, (change publication).session = publication.session)
    (hsubscribers : ∀ publication,
      (change publication).subscribers ⊆ publication.subscribers) :
    KeepsTo session queue reaches relay (relay.updatePublication place change) :=
  keepsTo_updatePublication relay place fun publication hfound =>
    respects_of_own (session_of_publisher? hown hfound) (hsession publication)
      (hsubscribers publication)

/-! ## Frames and descriptions -/

/-- What a subscription is sent goes to the session's own queue or to one that it
reaches. -/
def IsReached (relay : Relay) (queue : Nat) (reaches : Nat → Prop) (subscriber : Nat) :
    Prop :=
  ∀ owner other, relay.seat? subscriber = some (owner, other) →
    other = queue ∨ reaches other

theorem KeepsTo.isReached (hkeeps : KeepsTo session queue reaches before after)
    {subscriber : Nat} (hreached : before.IsReached queue reaches subscriber) :
    after.IsReached queue reaches subscriber := by
  intro owner other hseat
  rcases hkeeps.seat_eq subscriber with hsame | ⟨-, hnew⟩
  · rw [hsame] at hseat
    exact hreached owner other hseat
  · rw [hnew] at hseat
    exact .inl (congrArg Prod.snd (Option.some.inj hseat)).symm

theorem IsReached.sendsTo {subscriber : Nat} {subscription : Subscription}
    (hreached : relay.IsReached queue reaches subscriber)
    (hsubscription : relay.subscriptions[subscriber]? = some subscription) :
    subscription.queue = queue ∨ reaches subscription.queue :=
  hreached subscription.session subscription.queue (by simp [seat?, hsubscription])

/-- The list of a publication of the session is its audience. -/
theorem isReached_of_listed (hown : relay.publisher? place = some session)
    {publication : Publication} (hfound : relay.publications[place]? = some publication)
    {subscriber : Nat} (hlisted : subscriber ∈ publication.subscribers) :
    relay.IsReached queue (relay.IsAudience session) subscriber :=
  fun owner _ hseat => .inr ⟨place, publication, hfound, session_of_publisher? hown hfound,
    subscriber, hlisted, owner, hseat⟩

/-- One subscriber after the other is served. -/
theorem keepsTo_each {σ : Type} {relayOf : σ → Relay} {step : σ → Nat → σ}
    (hstep : ∀ state subscriber, (relayOf state).IsReached queue reaches subscriber →
      KeepsTo session queue reaches (relayOf state) (relayOf (step state subscriber)))
    (state : σ) (subscribers : List Nat)
    (hreached : ∀ subscriber ∈ subscribers,
      (relayOf state).IsReached queue reaches subscriber) :
    KeepsTo session queue reaches (relayOf state)
      (relayOf (subscribers.foldl step state)) := by
  induction subscribers generalizing state with
  | nil => exact .refl session queue reaches (relayOf state)
  | cons first others ih =>
      have hfirst := hstep state first (hreached first List.mem_cons_self)
      exact hfirst.trans (ih (step state first) fun subscriber hlisted =>
        hfirst.isReached (hreached subscriber (List.mem_cons_of_mem _ hlisted)))

theorem keepsTo_deliver (relay : Relay) (numbered : NumberedFrame) {subscriber : Nat}
    (hreached : relay.IsReached queue reaches subscriber) :
    KeepsTo session queue reaches relay (relay.deliver numbered subscriber).2 := by
  unfold deliver
  split
  · exact .refl session queue reaches relay
  · rename_i subscription hsubscription
    split
    · exact .refl session queue reaches relay
    · split
      · exact keepsTo_updateSubscription relay subscriber (fun _ => rfl) (fun _ => rfl)
          fun _ _ => .inr rfl
      · have hclaim : KeepsTo session queue reaches relay (relay.claim numbered.buffer) :=
          keepsTo_of_eq rfl rfl rfl rfl
        exact hclaim.trans (keepsTo_send _ _ (hreached.sendsTo hsubscription))

theorem keepsTo_broadcast (hown : relay.publisher? place = some session)
    (numbered : NumberedFrame) :
    KeepsTo session queue (relay.IsAudience session) relay
      (relay.broadcast place numbered).2 := by
  unfold broadcast deliverAll
  refine @keepsTo_each session queue (relay.IsAudience session) (DeliveryTally × Relay)
    Prod.snd _ (fun state subscriber hreached => keepsTo_deliver state.2 numbered hreached)
    ({}, relay) _ ?_
  intro subscriber hlisted
  cases hfound : relay.publications[place]? with
  | none => simp [hfound] at hlisted
  | some publication =>
      simp only [hfound, Option.map_some, Option.getD_some] at hlisted
      exact isReached_of_listed hown hfound hlisted

theorem keepsTo_enter (hown : relay.publisher? place = some session) {frame : MediaFrame}
    {timestamp : UInt32} {payload : Bytes} {change : CacheChange}
    {numbered : NumberedFrame} {entered : Relay}
    (henter : relay.enter place frame timestamp payload = some (change, numbered, entered)) :
    KeepsTo session queue reaches relay entered := by
  unfold enter at henter
  split at henter
  · simp at henter
  · rename_i publication hfound
    simp only [Option.some.injEq, Prod.mk.injEq] at henter
    rw [← henter.2.2]
    refine KeepsTo.withPool ?_ _
    exact keepsTo_updateOwn hown (fun _ => rfl) fun _ => List.Subset.refl _

theorem keepsTo_finish (hown : relay.publisher? place = some session) (path : StreamPath)
    (numbered : NumberedFrame) (tally : DeliveryTally) :
    KeepsTo session queue reaches relay (relay.finish place path numbered tally) := by
  refine KeepsTo.withPool (KeepsTo.trans ?_ (keepsTo_observe _ path _)) _
  exact keepsTo_updateOwn hown (fun _ => rfl) fun _ => List.Subset.refl _

/-- A frame of a publication of the session reaches its audience. -/
theorem keepsTo_distribute (hown : relay.publisher? place = some session)
    (kind : MediaKind) (timestamp : UInt32) (payload : Bytes) :
    KeepsTo session queue (relay.IsAudience session) relay
      (relay.distribute place kind timestamp payload).2 := by
  unfold distribute
  simp only
  split
  · exact .refl session queue _ relay
  · rename_i change numbered entered henter
    have hentered : KeepsTo session queue (relay.IsAudience session) relay entered :=
      keepsTo_enter hown henter
    have hstill := hentered.publisher hown
    have hbroadcast : KeepsTo session queue (relay.IsAudience session) entered
        (entered.broadcast place numbered).2 :=
      (keepsTo_broadcast hstill numbered).mono hentered.isAudience
    have hshown := hbroadcast.trans
      (keepsTo_showChange _ (entered.pathOf place) numbered change)
    exact (hentered.trans hshown).trans
      (keepsTo_finish ((hentered.trans hshown).publisher hown) _ numbered _)

theorem keepsTo_describeTo (metadata : Properties) (state : Nat × Relay)
    {subscriber : Nat} (hreached : state.2.IsReached queue reaches subscriber) :
    KeepsTo session queue reaches state.2 (describeTo metadata state subscriber).2 := by
  unfold describeTo
  split
  · exact .refl session queue reaches state.2
  · rename_i subscription hsubscription
    exact keepsTo_send state.2 _ (hreached.sendsTo hsubscription)

/-- A description of a publication of the session reaches its audience. -/
theorem keepsTo_distributeMetadata (hown : relay.publisher? place = some session)
    (metadata : Properties) :
    KeepsTo session queue (relay.IsAudience session) relay
      (relay.distributeMetadata place metadata).2 := by
  unfold distributeMetadata
  split
  · exact .refl session queue _ relay
  · rename_i publication hfound
    have hsent := @keepsTo_each session queue (relay.IsAudience session) (Nat × Relay)
      Prod.snd (describeTo metadata)
      (fun state subscriber hreached => keepsTo_describeTo metadata state hreached)
      (0, relay) publication.subscribers
      fun subscriber hlisted => isReached_of_listed hown hfound hlisted
    refine hsent.trans ?_
    exact keepsTo_updateOwn (hsent.publisher hown) (fun _ => rfl) fun _ => List.Subset.refl _

/-! ## Registration -/

/-- A publication of the session has come behind the others, with an empty list. -/
theorem keepsTo_appendPublication (relay : Relay) {publication : Publication}
    (hsession : publication.session = session) (hsubscribers : publication.subscribers = []) :
    KeepsTo session queue reaches relay
      { relay with publications := relay.publications ++ [publication] } := by
  have hfound : ∀ place : Nat, (relay.publications ++ [publication])[place]? =
      relay.publications[place]? ∨ relay.publications[place]? = none ∧
        (relay.publications ++ [publication])[place]? = some publication := by
    intro place
    rw [List.getElem?_append]
    by_cases hold : place < relay.publications.length
    · exact .inl (if_pos hold)
    · rw [if_neg hold, List.getElem?_eq_none (Nat.le_of_not_lt hold)]
      rcases Nat.eq_zero_or_pos (place - relay.publications.length) with hlast | hbehind
      · exact .inr ⟨rfl, by simp [hlast]⟩
      · exact .inl (List.getElem?_eq_none hbehind)
  refine ⟨OthersView.ext (fun place => ?_) (fun _ => rfl) (fun path => ?_), fun place => ?_,
    fun _ => .inl rfl, ?_, rfl, fun _ _ _ => rfl⟩
  · show (relay.publications ++ [publication])[place]?.bind (relay.leftOf? session) =
      relay.publications[place]?.bind (relay.leftOf? session)
    rcases hfound place with hsame | ⟨hnone, hnew⟩
    · rw [hsame]
    · simp [hnone, hnew, leftOf?, hsession]
  · show (relay.directory.get? path).filter _ =
      (relay.directory.get? path).filter (relay.isOthersStream session)
    congr 1
    funext place
    simp only [isOthersStream, publisher?]
    rcases hfound place with hsame | ⟨hnone, hnew⟩
    · rw [hsame]
    · simp [hnone, hnew, hsession]
  · simp only [publisher?]
    rcases hfound place with hsame | ⟨hnone, hnew⟩
    · exact .inl (by rw [hsame])
    · exact .inr ⟨by rw [hnone]; rfl, by rw [hnew, Option.map_some, hsession]⟩
  · rintro other - ⟨place, found, hplace, hown, subscriber, hlisted, hseat⟩
    have hplace : (relay.publications ++ [publication])[place]? = some found := hplace
    rcases hfound place with hsame | ⟨-, hnew⟩
    · rw [hsame] at hplace
      exact ⟨place, found, hplace, hown, subscriber, hlisted, hseat⟩
    · rw [hnew] at hplace
      obtain rfl := Option.some.inj hplace
      rw [hsubscribers] at hlisted
      cases hlisted

/-- Of the paths, only some of the session's own publications have changed. -/
theorem keepsTo_withDirectory (relay : Relay) {directory : StreamDirectory}
    (hpath : ∀ path, directory.get? path = relay.directory.get? path ∨
      ∀ place, directory.get? path = some place ∨ relay.directory.get? path = some place →
        relay.publisher? place = some session) :
    KeepsTo session queue reaches relay { relay with directory := directory } := by
  refine ⟨OthersView.ext (fun _ => rfl) (fun _ => rfl) (fun path => ?_), fun _ => .inl rfl,
    fun _ => .inl rfl, fun _ _ => id, rfl, fun _ _ _ => rfl⟩
  show (directory.get? path).filter (relay.isOthersStream session) =
    (relay.directory.get? path).filter (relay.isOthersStream session)
  rcases hpath path with hsame | hown
  · rw [hsame]
  · have hhidden : ∀ found : Option Nat,
        (∀ place, found = some place → relay.publisher? place = some session) →
        found.filter (relay.isOthersStream session) = none := by
      intro found hfound
      cases found with
      | none => rfl
      | some place => simp [isOthersStream, hfound place rfl]
    rw [hhidden _ fun place hplace => hown place (.inl hplace),
      hhidden _ fun place hplace => hown place (.inr hplace)]

/-- The new publication belongs to the session. -/
theorem keepsTo_startPublishing {request : PublishRequest}
    (hsession : request.session = session) {started : Nat × Relay}
    (hstarted : relay.startPublishing request = .ok started) :
    KeepsTo session queue reaches relay started.2 ∧
      started.2.publisher? started.1 = some session := by
  unfold startPublishing at hstarted
  split at hstarted
  · simp at hstarted
  · rename_i hfree
    simp only [Except.ok.injEq] at hstarted
    subst hstarted
    have hnew : Relay.publisher? { relay with
        publications := relay.publications ++
          [{ path := request.path, arguments := request.arguments,
             session := request.session, publishType := request.publishType,
             cache := { group := { maximumBytes := relay.maximumGroupBytes } } }] }
          relay.publications.length = some session := by
      simp [publisher?, hsession]
    refine ⟨(keepsTo_appendPublication relay hsession rfl).trans
      (keepsTo_withDirectory _ fun path => ?_), hnew⟩
    by_cases hpath : request.path = path
    · subst hpath
      refine .inr fun place hplace => ?_
      rw [StreamDirectory.get?_put, if_pos rfl] at hplace
      rcases hplace with hput | hold
      · rw [← Option.some.inj hput]
        exact hnew
      · rw [hfree] at hold
        cases hold
    · exact .inl (by rw [StreamDirectory.get?_put, if_neg hpath])

theorem keepsTo_clearCache (hown : relay.publisher? place = some session) :
    KeepsTo session queue reaches relay (relay.clearCache place) := by
  unfold clearCache
  split
  · refine KeepsTo.withPool ?_ _
    exact keepsTo_updateOwn hown (fun _ => rfl) fun _ => List.Subset.refl _
  · exact .refl session queue reaches relay

theorem keepsTo_clearMetadata (hown : relay.publisher? place = some session) :
    KeepsTo session queue reaches relay (relay.clearMetadata place) :=
  keepsTo_updateOwn hown (fun _ => rfl) fun _ => List.Subset.refl _

theorem keepsTo_endSubscription (relay : Relay) {subscriber : Nat}
    (hreached : relay.IsReached queue reaches subscriber) :
    KeepsTo session queue reaches relay (relay.endSubscription subscriber) := by
  unfold endSubscription
  split
  · rename_i subscription hsubscription
    split
    · exact .refl session queue reaches relay
    · refine KeepsTo.trans ?_ (keepsTo_sendAll _ _ (hreached.sendsTo hsubscription))
      exact keepsTo_updateSubscription relay subscriber (fun _ => rfl) (fun _ => rfl)
        fun _ _ => .inr rfl
  · exact .refl session queue reaches relay

/-- The end of a publication of the session reaches its audience. -/
theorem keepsTo_stopPublishing (hown : relay.publisher? place = some session) :
    KeepsTo session queue (relay.IsAudience session) relay
      (relay.stopPublishing place).2 := by
  unfold stopPublishing
  split
  · rename_i publication hfound
    split
    · rename_i hcurrent
      have herased : KeepsTo session queue (relay.IsAudience session) relay
          { relay with directory := relay.directory.erase publication.path } := by
        apply keepsTo_withDirectory
        intro path
        rw [StreamDirectory.get?_erase]
        by_cases hpath : publication.path = path
        · subst hpath
          refine .inr fun other hother => ?_
          rw [if_pos rfl, hcurrent] at hother
          rcases hother with hnone | hsame
          · cases hnone
          · rwa [← Option.some.inj hsame]
        · exact .inl (if_neg hpath)
      have hcleared := herased.trans (keepsTo_clearCache (herased.publisher hown))
      have hbare := hcleared.trans (keepsTo_clearMetadata (hcleared.publisher hown))
      have hunlisted : KeepsTo session queue (relay.IsAudience session) relay
          (updatePublication _ place ({ · with subscribers := [] })) :=
        hbare.trans (keepsTo_updateOwn (hbare.publisher hown) (fun _ => rfl)
          fun _ => List.nil_subset _)
      refine hunlisted.trans (@keepsTo_each session queue (relay.IsAudience session) Relay id
        endSubscription (fun relay subscriber hreached =>
          keepsTo_endSubscription relay hreached) _ publication.subscribers ?_)
      intro subscriber hlisted
      exact hunlisted.isReached (isReached_of_listed hown hfound hlisted)
    · exact .refl session queue _ relay
  · exact .refl session queue _ relay

/-! ## Subscribing -/

/-- The list of any publication loses a subscription of the session. -/
theorem keepsTo_stopSubscribing (place : Nat) {subscription : Nat}
    (hown : relay.seat? subscription = some (session, queue)) :
    KeepsTo session queue reaches relay (relay.stopSubscribing place subscription).2 := by
  unfold stopSubscribing
  split
  · split
    · exact keepsTo_updatePublication relay place fun publication _ =>
        respects_filter hown publication
    · exact .refl session queue reaches relay
  · exact .refl session queue reaches relay

/-- The list of any publication gains a subscription of the session, which is sent
what is cached. -/
theorem keepsTo_join (relay : Relay) (cache : MediaCache) {request : SubscribeRequest}
    (hsession : request.session = session) (hqueue : request.queue = queue) :
    let joined := relay.join place cache request
    KeepsTo session queue reaches relay joined.2 ∧
      joined.2.seat? joined.1 = some (session, queue) := by
  intro joined
  let subscription := request.subscription cache
  let primed := relay.prime cache request
  have hstarted : KeepsTo session queue reaches relay
      (relay.sendAll request.queue subscription.startMessages) :=
    keepsTo_sendAll relay _ (.inl hqueue)
  have hprimed : KeepsTo session queue reaches relay primed :=
    (hstarted.withPool (BufferPool.claimAll _ cache.buffers)).trans
      (keepsTo_sendAll _ _ (.inl hqueue))
  have hlength : primed.subscriptions.length = relay.subscriptions.length := by
    have hstreams := (@sends_prime queue relay cache request).streams
    simpa [streams] using congrArg (fun streams => streams.subscriptions.length) hstreams
  have hadded : KeepsTo session queue reaches relay
      { primed with subscriptions := primed.subscriptions ++ [subscription] } :=
    hprimed.trans (keepsTo_append primed hsession hqueue)
  have hseat : Relay.seat?
      { primed with subscriptions := primed.subscriptions ++ [subscription] }
      relay.subscriptions.length = some (session, queue) := by
    rw [← hlength, ← hsession, ← hqueue]
    simp [seat?, subscription, SubscribeRequest.subscription]
  have hlisted : KeepsTo session queue reaches _ joined.2 :=
    keepsTo_updatePublication _ place fun publication _ => respects_append hseat publication
  exact ⟨hadded.trans hlisted, hlisted.seat hseat⟩

/-- The new subscription belongs to the session and sends to its queue. -/
theorem keepsTo_startSubscribing {request : SubscribeRequest}
    (hsession : request.session = session) (hqueue : request.queue = queue)
    {started : (Nat × Nat) × Relay} (hstarted : relay.startSubscribing request = .ok started) :
    KeepsTo session queue reaches relay started.2 ∧
      started.2.seat? started.1.2 = some (session, queue) := by
  simp only [startSubscribing] at hstarted
  split at hstarted
  · simp at hstarted
  · rename_i found publication hfound
    split at hstarted
    · simp at hstarted
    · simp only [Except.ok.injEq] at hstarted
      rw [← hstarted]
      exact keepsTo_join relay publication.cache hsession hqueue

/-! ## What the others see of it -/

theorem KeepsTo.publication (hkeeps : KeepsTo session queue reaches before after)
    {publication : Publication} (hfound : before.publications[place]? = some publication)
    (hother : publication.session ≠ session) :
    ∃ subscribers,
      after.publications[place]? = some { publication with subscribers := subscribers } ∧
        subscribers.filter (after.isOthers session) =
          publication.subscribers.filter (before.isOthers session) := by
  have hview : after.publications[place]?.bind (after.leftOf? session) =
      before.publications[place]?.bind (before.leftOf? session) :=
    congrArg (fun view => view.publication? place) hkeeps.othersView_eq
  rw [hfound, Option.bind_some, leftOf?, if_neg hother] at hview
  obtain ⟨kept, hkept, hleft⟩ := Option.bind_eq_some_iff.mp hview
  unfold leftOf? at hleft
  split at hleft
  · cases hleft
  · have hsame := Option.some.inj hleft
    refine ⟨kept.subscribers, ?_, congrArg Publication.subscribers hsame⟩
    rw [hkept]
    obtain ⟨path, arguments, owner, publishType, cache, subscribers, sequence, counters⟩ :=
      kept
    simp only [Publication.mk.injEq] at hsame
    obtain ⟨rfl, rfl, rfl, rfl, rfl, -, rfl, rfl⟩ := hsame
    rfl

theorem KeepsTo.registration (hkeeps : KeepsTo session queue reaches before after)
    {owner : Nat} (hpublisher : before.publisher? place = some owner)
    (hother : owner ≠ session) (path : StreamPath) :
    after.directory.get? path = some place ↔ before.directory.get? path = some place := by
  have hview : (after.directory.get? path).filter (after.isOthersStream session) =
      (before.directory.get? path).filter (before.isOthersStream session) :=
    congrArg (fun view => view.registration? path) hkeeps.othersView_eq
  have hbefore : before.isOthersStream session place = true := by
    simp [isOthersStream, hpublisher, hother]
  have hafter : after.isOthersStream session place = true := by
    simp [isOthersStream, hkeeps.publisher hpublisher, hother]
  constructor
  · intro hfound
    rw [hfound, Option.filter_some, if_pos hafter] at hview
    exact (Option.filter_eq_some_iff.mp hview.symm).1
  · intro hfound
    rw [hfound, Option.filter_some, if_pos hbefore] at hview
    exact (Option.filter_eq_some_iff.mp hview).1

theorem KeepsTo.subscription (hkeeps : KeepsTo session queue reaches before after)
    {subscription : Subscription}
    (hfound : before.subscriptions[place]? = some subscription)
    (hother : subscription.session ≠ session) :
    ∃ hasEnded dropped, after.subscriptions[place]? =
      some { subscription with hasEnded := hasEnded, dropped := dropped } := by
  have hview : (after.subscriptions[place]?.bind fun subscription =>
        if subscription.session = session then none else some subscription.terms) =
      before.subscriptions[place]?.bind fun subscription =>
        if subscription.session = session then none else some subscription.terms :=
    congrArg (fun view => view.subscription? place) hkeeps.othersView_eq
  rw [hfound, Option.bind_some, if_neg hother] at hview
  obtain ⟨kept, hkept, hterms⟩ := Option.bind_eq_some_iff.mp hview
  split at hterms
  · cases hterms
  · refine ⟨kept.hasEnded, kept.dropped, ?_⟩
    rw [hkept]
    cases kept
    cases subscription
    simp only [Subscription.terms, Option.some.injEq, Subscription.mk.injEq] at hterms ⊢
    exact ⟨hterms.1, hterms.2.1, hterms.2.2.1, hterms.2.2.2.1, hterms.2.2.2.2.1,
      hterms.2.2.2.2.2.1, hterms.2.2.2.2.2.2.1, hterms.2.2.2.2.2.2.2.1,
      hterms.2.2.2.2.2.2.2.2.1, hterms.2.2.2.2.2.2.2.2.2.1, trivial, trivial⟩

end Relay

end LiveRelay
