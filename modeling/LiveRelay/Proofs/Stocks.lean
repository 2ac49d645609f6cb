import LiveRelay.Proofs.RelayRun

/-!
# The stocks of publications

Each publication has a stock: the configurations and the group of frames that
it keeps for new viewers, and the number of its last frame.  Publishing opens
a stock, distributing a frame changes one, and stopping empties one.  All else
leaves the stocks as they are.
-/

namespace LiveRelay

/-- The codec configurations and the group that a publication keeps, and the number
of its last frame. -/
structure Stock where
  cache : MediaCache
  sequence : Nat

/-- The description is left out. -/
def MediaCache.media (cache : MediaCache) : MediaCache :=
  { cache with metadata := none }

def Publication.stock (publication : Publication) : Stock :=
  ⟨publication.cache.media, publication.sequence⟩

namespace Relay

def stockAt (relay : Relay) (place : Nat) : Option Stock :=
  relay.publications[place]?.map Publication.stock

/-! ## What spares a stock -/

structure Spares (place : Nat) (before after : Relay) : Prop where
  stockAt : after.stockAt place = before.stockAt place
  isClean : before.pool.IsClean → after.pool.IsClean

variable {relay before middle after : Relay} {place : Nat}

theorem Spares.refl (place : Nat) (relay : Relay) : Spares place relay relay := ⟨rfl, id⟩

theorem Spares.trans (hfirst : Spares place before middle)
    (hsecond : Spares place middle after) : Spares place before after :=
  ⟨hsecond.stockAt.trans hfirst.stockAt, fun hclean => hsecond.isClean (hfirst.isClean hclean)⟩

theorem stockAt_eq (relay : Relay) (place : Nat) :
    relay.stockAt place = relay.streams.publications[place]?.map Publication.stock := by
  rw [getElem?_streams_publications, Option.map_map]
  rfl

theorem stockAt_of_streams (hstreams : after.streams = before.streams) :
    after.stockAt place = before.stockAt place := by
  rw [stockAt_eq, stockAt_eq, hstreams]

theorem Sends.spares {queue : Nat} {messages : List OutboundMessage}
    (hsends : Sends queue messages before after) : Spares place before after :=
  ⟨stockAt_of_streams hsends.streams, hsends.isClean⟩

theorem spares_foldl {α : Type} {step : Relay → α → Relay}
    (hstep : ∀ relay item, Spares place relay (step relay item)) (relay : Relay)
    (items : List α) : Spares place relay (items.foldl step relay) := by
  induction items generalizing relay with
  | nil => exact Spares.refl place relay
  | cons item items ih => exact (hstep relay item).trans (ih _)

theorem spares_updatePublication (relay : Relay) (changed : Nat)
    {change : Publication → Publication}
    (hchange : changed = place → ∀ publication, (change publication).stock = publication.stock) :
    Spares place relay (relay.updatePublication changed change) := by
  refine ⟨?_, id⟩
  simp only [Relay.stockAt, updatePublication, List.getElem?_modify]
  by_cases hplace : changed = place
  · cases relay.publications[place]? with
    | none => simp
    | some publication => simp [hplace, hchange hplace publication]
  · simp [hplace]

/-! ### Registration -/

theorem spares_startPublishing {request : PublishRequest} {published : Nat}
    (hstart : before.startPublishing request = .ok (published, after))
    (hplace : place < before.publications.length) : Spares place before after := by
  unfold startPublishing at hstart
  split at hstart
  · simp at hstart
  · simp only [Except.ok.injEq, Prod.mk.injEq] at hstart
    obtain ⟨-, rfl⟩ := hstart
    refine ⟨?_, id⟩
    simp [Relay.stockAt, List.getElem?_append_left hplace]

theorem spares_endSubscription (relay : Relay) (subscription : Nat) :
    Spares place relay (relay.endSubscription subscription) := by
  rcases relay.endSubscription_cases subscription with hnothing | hsends
  · rw [hnothing]
    exact Spares.refl place relay
  · obtain ⟨messages, hsends⟩ := hsends 0
    have hended : Spares place relay (relay.updateSubscription subscription
        ({ · with hasEnded := true })) := ⟨rfl, id⟩
    exact hended.trans hsends.spares

theorem spares_clearMetadata (relay : Relay) (cleared : Nat) :
    Spares place relay (relay.clearMetadata cleared) :=
  spares_updatePublication relay cleared fun _ _ => rfl

theorem spares_clearCache (relay : Relay) {cleared : Nat} (hother : cleared ≠ place) :
    Spares place relay (relay.clearCache cleared) := by
  unfold clearCache
  split
  · rename_i publication _
    have hchanged : Spares place relay (relay.updatePublication cleared
        ({ · with cache := (publication.cache.clear relay.pool).1 })) :=
      spares_updatePublication relay cleared fun hsame => absurd hsame hother
    exact ⟨hchanged.stockAt, fun hclean => (hclean.releaseAll _).releaseAll _⟩
  · exact Spares.refl place relay

theorem spares_stopPublishing (relay : Relay) {stopped : Nat} (hother : stopped ≠ place) :
    Spares place relay (relay.stopPublishing stopped).2 := by
  unfold stopPublishing
  split
  · rename_i publication _
    split
    · let erased := { relay with directory := relay.directory.erase publication.path }
      let cleared := (erased.clearCache stopped).clearMetadata stopped
      let emptied := cleared.updatePublication stopped ({ · with subscribers := [] })
      have herased : Spares place relay erased := ⟨rfl, id⟩
      have hcleared : Spares place erased cleared :=
        (spares_clearCache erased hother).trans (spares_clearMetadata _ stopped)
      have hemptied : Spares place cleared emptied :=
        spares_updatePublication cleared stopped fun _ _ => rfl
      exact herased.trans (hcleared.trans (hemptied.trans
        (spares_foldl spares_endSubscription emptied publication.subscribers)))
    · exact Spares.refl place relay
  · exact Spares.refl place relay

theorem spares_discard (relay : Relay) (hcurrent : relay.register.IsCurrent place)
    (discarded : Nat) : Spares place relay (relay.discard discarded) := by
  unfold discard
  split
  · rename_i publication hfound
    split
    · exact Spares.refl place relay
    · rename_i hgone
      refine spares_clearCache relay fun hsame => hgone ?_
      obtain ⟨record, hrecord, hpath⟩ := hcurrent
      rw [← hsame, getElem?_register, hfound] at hrecord
      obtain rfl := Option.some.inj hrecord
      exact hsame ▸ hpath
  · exact Spares.refl place relay

theorem spares_discardAllBut (relay : Relay) (hcurrent : relay.register.IsCurrent place)
    (held : List Nat) : Spares place relay (relay.discardAllBut held) := by
  unfold discardAllBut
  generalize (List.range relay.publications.length).filter (· ∉ held) = places
  induction places generalizing relay with
  | nil => exact Spares.refl place relay
  | cons discarded places ih =>
      refine (spares_discard relay hcurrent discarded).trans (ih _ ?_)
      rwa [register_of_outline (relay.outline_discard discarded)]

theorem spares_startSubscribing {request : SubscribeRequest} {published subscription : Nat}
    (hstart : before.startSubscribing request = .ok ((published, subscription), after)) :
    Spares place before after := by
  obtain ⟨publication, -, -, -, -, rfl⟩ := startSubscribing_spec hstart
  have hprime : Sends 0 _ before (before.prime publication.cache request) :=
    sends_prime before publication.cache request
  let primed := before.prime publication.cache request
  let added := { primed with
    subscriptions := primed.subscriptions ++ [request.subscription publication.cache] }
  have hadded : Spares place primed added := ⟨rfl, id⟩
  have hlisted : Spares place added (before.join published publication.cache request).2 :=
    spares_updatePublication added published fun _ _ => rfl
  exact hprime.spares.trans (hadded.trans hlisted)

theorem spares_stopSubscribing (relay : Relay) (published subscription : Nat) :
    Spares place relay (relay.stopSubscribing published subscription).2 := by
  unfold stopSubscribing
  split
  · split
    · exact spares_updatePublication relay published fun _ _ => rfl
    · exact Spares.refl place relay
  · exact Spares.refl place relay

/-- Only stopping it touches the stock of a publication. -/
theorem spares_call (relay : Relay) (hplace : place < relay.publications.length)
    {call : RegistryCall} (hcall : call ≠ .unpublish place) :
    Spares place relay (relay.call call).2 := by
  cases call with
  | publish request =>
      rcases relay.call_publish request with ⟨_, _, hstart, hcalled⟩ | ⟨_, _, hcalled⟩
      · rw [hcalled]
        exact spares_startPublishing hstart hplace
      · rw [hcalled]
        exact Spares.refl place relay
  | unpublish publication =>
      exact spares_stopPublishing relay fun hsame => hcall (hsame ▸ rfl)
  | subscribe request =>
      rcases relay.call_subscribe request with ⟨_, _, _, hstart, hcalled⟩ | ⟨_, _, hcalled⟩
      · rw [hcalled]
        exact spares_startSubscribing hstart
      · rw [hcalled]
        exact Spares.refl place relay
  | unsubscribe publication subscription =>
      exact spares_stopSubscribing relay publication subscription
  | find path => exact Spares.refl place relay
  | count => exact Spares.refl place relay

/-! ### Traffic -/

theorem spares_distributeMetadata (relay : Relay) (published : Nat) (metadata : Properties) :
    Spares place relay (relay.distributeMetadata published metadata).2 := by
  rcases relay.distributeMetadata_cases published metadata with
    hnothing | ⟨described, hsends, hcached⟩
  · rw [hnothing]
    exact Spares.refl place relay
  · obtain ⟨messages, hsends⟩ := hsends 0
    rw [hcached]
    exact hsends.spares.trans (spares_updatePublication _ published fun _ _ => rfl)

theorem isClean_enter {published : Nat} {frame : MediaFrame} {timestamp : UInt32}
    {payload : Bytes} {change : CacheChange} {numbered : NumberedFrame} {entered : Relay}
    (henter : relay.enter published frame timestamp payload = some (change, numbered, entered))
    (hclean : relay.pool.IsClean) : entered.pool.IsClean := by
  unfold enter at henter
  split at henter
  · simp at henter
  · simp only [Option.some.injEq, Prod.mk.injEq] at henter
    obtain ⟨-, -, rfl⟩ := henter
    exact MediaCache.isClean_enter _ (hclean.rent payload) _

theorem spares_distribute_other (relay : Relay) {published : Nat} (hother : published ≠ place)
    (kind : MediaKind) (timestamp : UInt32) (payload : Bytes) :
    Spares place relay (relay.distribute published kind timestamp payload).2 := by
  rcases relay.distribute_cases published kind timestamp payload with
    hnothing | ⟨change, numbered, entered, henter, hsends⟩
  · rw [hnothing]
    exact Spares.refl place relay
  · obtain ⟨messages, hsends⟩ := hsends 0
    refine Spares.trans ⟨?_, isClean_enter henter⟩ hsends.spares
    obtain ⟨cache, counters, pool, rfl⟩ := exists_eq_of_enter henter
    exact (spares_updatePublication relay published
      fun hsame => absurd hsame hother).stockAt

/-- Only frames of its own and giving it up touch the stock of a publication. -/
theorem spares_move_of_ne_discarded (relay : Relay) {traffic : RelayTraffic}
    (htraffic : ∀ kind timestamp payload, traffic ≠ .frame place kind timestamp payload)
    (hheld : ∀ held, traffic ≠ .discarded held) :
    Spares place relay (relay.move traffic) := by
  cases traffic with
  | frame publication kind timestamp payload =>
      exact spares_distribute_other relay
        (fun hsame => htraffic kind timestamp payload (by rw [hsame])) kind timestamp payload
  | described publication metadata =>
      exact spares_distributeMetadata relay publication metadata
  | undescribed publication => exact spares_clearMetadata relay publication
  | paused subscription isPaused => exact ⟨rfl, id⟩
  | chosen subscription kind isWanted => exact ⟨rfl, id⟩
  | opened => exact ⟨rfl, id⟩
  | sent queue message =>
      have hsends : Sends queue _ relay (relay.send queue message).2 :=
        sends_send relay queue message
      exact hsends.spares
  | received queue count =>
      obtain ⟨-, hstreams, -, hclean⟩ := relay.receiveSome_spec queue count queue
      exact ⟨stockAt_of_streams hstreams, hclean⟩
  | closed queue => exact ⟨rfl, id⟩
  | hungUp queue =>
      exact ⟨stockAt_of_streams (relay.streams_hangUpQueue queue),
        fun hclean => isClean_hangUpQueue hclean queue⟩
  | noted notice => exact ⟨rfl, id⟩
  | logTaken => exact ⟨rfl, id⟩
  | keptReleased => exact ⟨rfl, fun hclean => hclean.releaseAll _⟩
  | discarded held => exact absurd rfl (hheld held)

/-- Only a frame of its own touches the stock of a listed publication. -/
theorem spares_move (relay : Relay) (hcurrent : relay.register.IsCurrent place)
    {traffic : RelayTraffic}
    (htraffic : ∀ kind timestamp payload, traffic ≠ .frame place kind timestamp payload) :
    Spares place relay (relay.move traffic) := by
  by_cases hheld : ∃ held, traffic = .discarded held
  · obtain ⟨held, rfl⟩ := hheld
    exact spares_discardAllBut relay hcurrent held
  · exact spares_move_of_ne_discarded relay htraffic fun held hsame => hheld ⟨held, hsame⟩

end Relay

theorem MediaCache.media_afterEntering (cache : MediaCache) (numbered : NumberedFrame) :
    (cache.afterEntering numbered).media = cache.media.afterEntering numbered := by
  unfold afterEntering enter
  simp only
  split
  · cases numbered.frame.kind <;> rfl
  · split
    · cases henabled : cache.group.isEnabled <;> simp [media, henabled]
    · rfl

namespace Relay

variable {relay before middle after : Relay} {place : Nat}

/-- A frame enters the stock of its publication, with the next number. -/
theorem stockAt_distribute (hclean : relay.pool.IsClean) {stock : Stock}
    (hstock : relay.stockAt place = some stock) (kind : MediaKind) (timestamp : UInt32)
    (payload : Bytes) :
    ∃ numbered : NumberedFrame,
      numbered.frame = MediaFrame.classify kind payload ∧
      numbered.entry.published = ⟨stock.sequence + 1, kind, timestamp, payload⟩ ∧
      (relay.distribute place kind timestamp payload).2.stockAt place =
        some ⟨stock.cache.afterEntering numbered, stock.sequence + 1⟩ ∧
      (relay.distribute place kind timestamp payload).2.pool.IsClean := by
  rw [stockAt_eq] at hstock
  obtain ⟨publication, hfound, rfl⟩ := Option.map_eq_some_iff.mp hstock
  obtain ⟨change, numbered, entered, henter, hnext, henters⟩ :=
    enter_spec hfound hclean (MediaFrame.classify kind payload) timestamp payload
  obtain ⟨messages, hbroadcast⟩ :
      ∃ messages, Sends 0 messages entered (entered.broadcast place numbered).2 :=
    entered.exists_sends_broadcast place numbered
  have hspares : Spares place entered (relay.distribute place kind timestamp payload).2 :=
    (sends_distribute henter hbroadcast).spares
  refine ⟨numbered, hnext.frame, hnext.published, ?_, hspares.isClean henters.isClean⟩
  rw [hspares.stockAt, stockAt_eq, henters.found hfound, Option.map_some]
  simp [Publication.stock, MediaCache.media_afterEntering, hnext.sequence]

/-! ## Clean pools -/

theorem isClean_call (hclean : relay.pool.IsClean) (call : RegistryCall) :
    (relay.call call).2.pool.IsClean := by
  cases call with
  | publish request =>
      rcases relay.call_publish request with ⟨_, _, hstart, hcalled⟩ | ⟨_, _, hcalled⟩
      · rw [hcalled]
        unfold startPublishing at hstart
        split at hstart
        · simp at hstart
        · simp only [Except.ok.injEq, Prod.mk.injEq] at hstart
          obtain ⟨-, rfl⟩ := hstart
          exact hclean
      · rw [hcalled]
        exact hclean
  | unpublish publication =>
      have hspares : Spares (publication + 1) relay (relay.stopPublishing publication).2 :=
        spares_stopPublishing relay (Nat.ne_of_lt (Nat.lt_succ_self publication))
      exact hspares.isClean hclean
  | subscribe request =>
      rcases relay.call_subscribe request with
        ⟨publication, subscription, started, hstart, hcalled⟩ | ⟨_, _, hcalled⟩
      · have hspares : Spares publication relay started := spares_startSubscribing hstart
        rw [hcalled]
        exact hspares.isClean hclean
      · rw [hcalled]
        exact hclean
  | unsubscribe publication subscription =>
      have hspares : Spares publication relay
          (relay.stopSubscribing publication subscription).2 :=
        spares_stopSubscribing relay publication subscription
      exact hspares.isClean hclean
  | find path => exact hclean
  | count => exact hclean

theorem isClean_discard (hclean : relay.pool.IsClean) (discarded : Nat) :
    (relay.discard discarded).pool.IsClean := by
  have hspares : Spares (discarded + 1) relay (relay.clearCache discarded) :=
    spares_clearCache relay (Nat.ne_of_lt (Nat.lt_succ_self discarded))
  unfold discard
  split
  · split
    · exact hclean
    · exact hspares.isClean hclean
  · exact hclean

theorem isClean_discardAllBut (hclean : relay.pool.IsClean) (held : List Nat) :
    (relay.discardAllBut held).pool.IsClean := by
  unfold discardAllBut
  generalize (List.range relay.publications.length).filter (· ∉ held) = places
  induction places generalizing relay with
  | nil => exact hclean
  | cons discarded places ih => exact ih (isClean_discard hclean discarded)

theorem isClean_move (hclean : relay.pool.IsClean) (traffic : RelayTraffic) :
    (relay.move traffic).pool.IsClean := by
  cases traffic with
  | frame publication kind timestamp payload =>
      have hspares : Spares (publication + 1) relay
          (relay.distribute publication kind timestamp payload).2 :=
        spares_distribute_other relay (Nat.ne_of_lt (Nat.lt_succ_self publication)) kind
          timestamp payload
      exact hspares.isClean hclean
  | discarded held => exact isClean_discardAllBut hclean held
  | described publication metadata =>
      have hspares : Spares publication relay _ :=
        spares_distributeMetadata relay publication metadata
      exact hspares.isClean hclean
  | undescribed publication => exact hclean
  | paused subscription isPaused => exact hclean
  | chosen subscription kind isWanted => exact hclean
  | opened => exact hclean
  | sent queue message =>
      have hsends : Sends queue _ relay (relay.send queue message).2 :=
        sends_send relay queue message
      exact hsends.isClean hclean
  | received queue count => exact (relay.receiveSome_spec queue count queue).2.2.2 hclean
  | closed queue => exact hclean
  | hungUp queue => exact isClean_hangUpQueue hclean queue
  | noted notice => exact hclean
  | logTaken => exact hclean
  | keptReleased => exact hclean.releaseAll _

theorem isClean_run (hclean : relay.pool.IsClean) (events : List RelayEvent) :
    (relay.run events).pool.IsClean := by
  induction events generalizing relay with
  | nil => exact hclean
  | cons event events ih =>
      cases event with
      | called call => exact ih (isClean_call hclean call)
      | moved traffic => exact ih (isClean_move hclean traffic)

/-! ## The limit of groups -/

theorem limit_of_outline (houtline : after.outline = before.outline) :
    after.maximumGroupBytes = before.maximumGroupBytes :=
  congrArg Streams.maximumGroupBytes houtline

theorem limit_endSubscription (relay : Relay) (subscription : Nat) :
    (relay.endSubscription subscription).maximumGroupBytes = relay.maximumGroupBytes := by
  rcases relay.endSubscription_cases subscription with hnothing | hsends
  · rw [hnothing]
  · obtain ⟨messages, hsends⟩ := hsends 0
    have hlimit := limit_of_outline hsends.outline
    exact hlimit

theorem limit_stopPublishing (relay : Relay) (stopped : Nat) :
    (relay.stopPublishing stopped).2.maximumGroupBytes = relay.maximumGroupBytes := by
  unfold stopPublishing
  split
  · rename_i publication _
    split
    · let erased := { relay with directory := relay.directory.erase publication.path }
      have hended := foldl_keeps maximumGroupBytes limit_endSubscription
        publication.subscribers
        (((erased.clearCache stopped).clearMetadata stopped).updatePublication stopped
          ({ · with subscribers := [] }))
      have hcleared := limit_of_outline (erased.outline_clearCache stopped)
      exact hended.trans hcleared
    · rfl
  · rfl

theorem limit_call (relay : Relay) (call : RegistryCall) :
    (relay.call call).2.maximumGroupBytes = relay.maximumGroupBytes := by
  cases call with
  | publish request =>
      rcases relay.call_publish request with ⟨_, _, hstart, hcalled⟩ | ⟨_, _, hcalled⟩
      · rw [hcalled]
        unfold startPublishing at hstart
        split at hstart
        · simp at hstart
        · simp only [Except.ok.injEq, Prod.mk.injEq] at hstart
          obtain ⟨-, rfl⟩ := hstart
          rfl
      · rw [hcalled]
  | unpublish publication => exact limit_stopPublishing relay publication
  | subscribe request =>
      rcases relay.call_subscribe request with ⟨_, _, _, hstart, hcalled⟩ | ⟨_, _, hcalled⟩
      · obtain ⟨publication, -, -, -, -, rfl⟩ := startSubscribing_spec hstart
        have hprime : Sends 0 _ relay (relay.prime publication.cache request) :=
          sends_prime relay publication.cache request
        have hlimit := limit_of_outline hprime.outline
        rw [hcalled]
        exact hlimit
      · rw [hcalled]
  | unsubscribe publication subscription =>
      unfold Relay.call stopSubscribing
      simp only
      split
      · split <;> rfl
      · rfl
  | find path => rfl
  | count => rfl

theorem limit_run (relay : Relay) (events : List RelayEvent) :
    (relay.run events).maximumGroupBytes = relay.maximumGroupBytes := by
  refine foldl_keeps maximumGroupBytes (fun relay event => ?_) events relay
  cases event with
  | called call => exact limit_call relay call
  | moved traffic => exact limit_of_outline (relay.outline_move traffic)

end Relay

end LiveRelay
