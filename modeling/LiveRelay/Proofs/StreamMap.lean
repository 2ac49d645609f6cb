import LiveRelay.Proofs.StreamListing

/-!
# The map of streams

To its callers a relay is one map from paths to streams.  A stream is known by
the number of its publication, and it has the list of its viewers in the order
in which they joined.  The map knows nothing of shards, of stopped publications,
of caches or of queues.

One call of the relay is one call of the map, with the same answer.  By
induction this holds for all calls of a run, whatever traffic goes on between
them.
-/

namespace LiveRelay

structure StreamMap where
  streams : Table StreamPath StreamListing := []
  /-- How many streams have been published. -/
  published : Nat := 0
  /-- How many subscriptions have been made. -/
  subscribed : Nat := 0

namespace StreamMap

/-- The path and the listing of a publication, unless it is over. -/
def streamOf? (map : StreamMap) (publication : Nat) : Option (StreamPath × StreamListing) :=
  map.streams.find? fun entry => entry.2.publication == publication

def answer (map : StreamMap) : RegistryCall → RegistryAnswer × StreamMap
  | .publish request =>
      match map.streams.get? request.path with
      | some _ => (.published (.error (.alreadyPublishing request.path.text)), map)
      | none =>
          (.published (.ok map.published),
            { map with
              streams := map.streams.put request.path ⟨map.published, []⟩
              published := map.published + 1 })
  | .unpublish publication =>
      match map.streamOf? publication with
      | some (path, _) => (.unpublished true, { map with streams := map.streams.erase path })
      | none => (.unpublished false, map)
  | .subscribe request =>
      match map.streams.get? request.path with
      | none => (.subscribed (.error (.streamNotFound request.path.text)), map)
      | some listing =>
          if request.session ∈ listing.sessions then
            (.subscribed (.error (.alreadySubscribing request.path.text)), map)
          else
            let viewers := listing.viewers ++ [(map.subscribed, request.session)]
            (.subscribed (.ok (listing.publication, map.subscribed)),
              { map with
                streams := map.streams.put request.path ⟨listing.publication, viewers⟩
                subscribed := map.subscribed + 1 })
  | .unsubscribe publication subscription =>
      match map.streamOf? publication with
      | some (path, listing) =>
          if subscription ∈ listing.viewers.keys then
            let viewers := listing.viewers.erase subscription
            (.unsubscribed true,
              { map with streams := map.streams.put path ⟨publication, viewers⟩ })
          else (.unsubscribed false, map)
      | none => (.unsubscribed false, map)
  | .find path => (.found ((map.streams.get? path).map StreamListing.publication), map)
  | .count => (.counted map.streams.length, map)

def answers (map : StreamMap) : List RegistryCall → List RegistryAnswer
  | [] => []
  | call :: calls => (map.answer call).1 :: (map.answer call).2.answers calls

def run (map : StreamMap) (calls : List RegistryCall) : StreamMap :=
  calls.foldl (fun map call => (map.answer call).2) map

end StreamMap

/-- What a relay answers to the calls of a run. -/
def Relay.answers (relay : Relay) : List RelayEvent → List RegistryAnswer
  | [] => []
  | .called call :: events => (relay.call call).1 :: (relay.call call).2.answers events
  | .moved traffic :: events => (relay.move traffic).answers events

/-- The stream that was asked for is not there, or there already. -/
def RegistryAnswer.isRefusal : RegistryAnswer → Bool
  | .published outcome => !outcome.isOk
  | .unpublished done => !done
  | .subscribed outcome => !outcome.isOk
  | .unsubscribed done => !done
  | .found _ => false
  | .counted _ => false

def RelayEvent.call? : RelayEvent → Option RegistryCall
  | .called call => some call
  | .moved _ => none

/-! ## The map of a register -/

/-- What the map holds is what the register lists. -/
structure StreamMap.Describes (map : StreamMap) (register : Register) : Prop where
  isSound : register.IsSound
  nodup : map.streams.keys.Nodup
  get? : ∀ path, map.streams.get? path = register.listing? path
  published : map.published = register.publications.length
  subscribed : map.subscribed = register.subscriptions.length

namespace StreamMap

variable {map : StreamMap} {register : Register}

theorem describes_empty (spread : StreamPath → Nat) (count : Nat) :
    Describes {} ⟨.empty spread count, [], []⟩ where
  isSound := Register.isSound_empty spread count
  nodup := List.nodup_nil
  get? path := by
    simp [Register.listing?, StreamDirectory.get?_empty]
  published := rfl
  subscribed := rfl

theorem Describes.get?_eq_none_iff (hdescribes : map.Describes register)
    (path : StreamPath) :
    map.streams.get? path = none ↔ register.directory.get? path = none := by
  rw [hdescribes.get?, hdescribes.isSound.listing?_eq_none_iff]

theorem Describes.get?_of_record (hdescribes : map.Describes register) {place : Nat}
    {record : PublicationRecord} (hrecord : register.publications[place]? = some record)
    (hplace : register.directory.get? record.path = some place) :
    map.streams.get? record.path =
      some ⟨place, register.viewers record.subscribers⟩ := by
  rw [hdescribes.get?, Register.listing?_of_get? hplace hrecord]

/-- Streams of the map are found under their paths. -/
theorem Describes.exists_of_streamOf? (hdescribes : map.Describes register) {place : Nat}
    {entry : StreamPath × StreamListing} (hstream : map.streamOf? place = some entry) :
    ∃ record, register.publications[place]? = some record ∧
      register.directory.get? record.path = some place ∧
      entry = (record.path, ⟨place, register.viewers record.subscribers⟩) := by
  obtain ⟨path, publication, viewers⟩ := entry
  obtain rfl : publication = place := by simpa using List.find?_some hstream
  have hlisting := (Table.get?_eq_some_iff hdescribes.nodup).mpr
    (List.mem_of_find?_eq_some hstream)
  rw [hdescribes.get?] at hlisting
  obtain ⟨record, hplace, hrecord, rfl, rfl⟩ :=
    hdescribes.isSound.exists_of_listing? hlisting
  exact ⟨record, hrecord, hplace, rfl⟩

theorem Describes.streamOf?_of_record (hdescribes : map.Describes register) {place : Nat}
    {record : PublicationRecord} (hrecord : register.publications[place]? = some record)
    (hplace : register.directory.get? record.path = some place) :
    map.streamOf? place =
      some (record.path, ⟨place, register.viewers record.subscribers⟩) := by
  cases hstream : map.streamOf? place with
  | none =>
      have hmember := (Table.get?_eq_some_iff hdescribes.nodup).mp
        (hdescribes.get?_of_record hrecord hplace)
      have hother := List.find?_eq_none.mp hstream _ hmember
      simp at hother
  | some entry =>
      obtain ⟨found, hfound, -, rfl⟩ := hdescribes.exists_of_streamOf? hstream
      rw [Option.some.inj (hfound.symm.trans hrecord)]

theorem Describes.streamOf?_of_stale (hdescribes : map.Describes register) {place : Nat}
    (hstale : ¬ register.IsCurrent place) : map.streamOf? place = none := by
  cases hstream : map.streamOf? place with
  | none => rfl
  | some entry =>
      obtain ⟨record, hrecord, hplace, -⟩ := hdescribes.exists_of_streamOf? hstream
      exact absurd ⟨record, hrecord, hplace⟩ hstale

/-! ### Changes of the register -/

theorem Describes.afterPublishing (hdescribes : map.Describes register) {path : StreamPath}
    (session : Nat) (hfree : register.directory.get? path = none) :
    Describes
      { map with
        streams := map.streams.put path ⟨map.published, []⟩
        published := map.published + 1 }
      (register.publish path session) where
  isSound := hdescribes.isSound.afterPublishing session hfree
  nodup := Table.nodup_keys_put hdescribes.nodup path _
  get? other := by
    rw [Table.get?_put, hdescribes.isSound.listing?_publish, hdescribes.get?,
      hdescribes.published]
  published := by simp [Register.publish, hdescribes.published]
  subscribed := hdescribes.subscribed

theorem Describes.afterUnpublishing (hdescribes : map.Describes register) {place : Nat}
    {record : PublicationRecord} (hrecord : register.publications[place]? = some record)
    (hplace : register.directory.get? record.path = some place) :
    Describes { map with streams := map.streams.erase record.path }
      (register.unpublish place) where
  isSound := hdescribes.isSound.afterUnpublishing place
  nodup := Table.nodup_keys_erase hdescribes.nodup record.path
  get? other := by
    rw [Table.get?_erase, hdescribes.isSound.listing?_unpublish hrecord hplace,
      hdescribes.get?]
  published := by
    rw [Register.unpublish_of_current hrecord hplace]
    simp [Register.modifySubscribers, hdescribes.published]
  subscribed := by
    rw [Register.unpublish_of_current hrecord hplace]
    exact hdescribes.subscribed

theorem Describes.afterSubscribing (hdescribes : map.Describes register) {place : Nat}
    {record : PublicationRecord} (hrecord : register.publications[place]? = some record)
    (hplace : register.directory.get? record.path = some place) (session : Nat) :
    Describes
      { map with
        streams := map.streams.put record.path
          ⟨place, register.viewers record.subscribers ++ [(map.subscribed, session)]⟩
        subscribed := map.subscribed + 1 }
      (register.subscribe place session) where
  isSound := hdescribes.isSound.afterSubscribing ⟨record, hrecord, hplace⟩ session
  nodup := Table.nodup_keys_put hdescribes.nodup record.path _
  get? other := by
    rw [Table.get?_put, hdescribes.isSound.listing?_subscribe hrecord hplace,
      hdescribes.get?, hdescribes.subscribed]
  published := by
    simp [Register.subscribe, Register.modifySubscribers, hdescribes.published]
  subscribed := by
    simp [Register.subscribe, Register.modifySubscribers, hdescribes.subscribed]

theorem Describes.afterUnsubscribing (hdescribes : map.Describes register) {place : Nat}
    {record : PublicationRecord} (hrecord : register.publications[place]? = some record)
    (hplace : register.directory.get? record.path = some place) (subscription : Nat) :
    Describes
      { map with
        streams := map.streams.put record.path
          ⟨place, (register.viewers record.subscribers).erase subscription⟩ }
      (register.unsubscribe place subscription) where
  isSound := hdescribes.isSound.afterUnsubscribing place subscription
  nodup := Table.nodup_keys_put hdescribes.nodup record.path _
  get? other := by
    rw [Table.get?_put, hdescribes.isSound.listing?_unsubscribe hrecord hplace,
      hdescribes.get?]
  published := by
    simp [Register.unsubscribe, Register.modifySubscribers, hdescribes.published]
  subscribed := hdescribes.subscribed

end StreamMap

/-! ## One call -/

namespace Relay

variable {relay : Relay}

theorem hasSubscriber_iff_mem (relay : Relay) (publication : Publication)
    (place session : Nat) :
    relay.hasSubscriber publication session = true ↔
      session ∈ StreamListing.sessions
        ⟨place, relay.register.viewers publication.record.subscribers⟩ := by
  have hsession (place : Nat) : relay.register.subscriptions[place]? =
      relay.subscriptions[place]?.map Subscription.session := by
    simp [register]
  simp only [hasSubscriber, StreamListing.sessions, List.any_eq_true, beq_iff_eq,
    ← hsession, List.mem_map, Prod.exists, Register.mem_viewers_iff, exists_eq_right]
  rfl

theorem stopPublishing_of_stale {place : Nat} (hstale : ¬ relay.register.IsCurrent place) :
    relay.stopPublishing place = (false, relay) := by
  unfold stopPublishing
  split
  · rename_i publication hfound
    refine if_neg fun hplace => hstale ⟨publication.record, ?_, hplace⟩
    rw [getElem?_register, hfound, Option.map_some]
  · rfl

theorem stopPublishing_of_current {place : Nat} (hcurrent : relay.register.IsCurrent place) :
    (relay.stopPublishing place).1 = true := by
  obtain ⟨record, hrecord, hplace⟩ := hcurrent
  rw [getElem?_register] at hrecord
  obtain ⟨publication, hfound, rfl⟩ := Option.map_eq_some_iff.mp hrecord
  have hget : relay.directory.get? publication.path = some place := hplace
  simp [stopPublishing, hfound, hget]

theorem stopSubscribing_of_mem {place subscription : Nat} {record : PublicationRecord}
    (hrecord : relay.register.publications[place]? = some record)
    (hlisted : subscription ∈ record.subscribers) :
    (relay.stopSubscribing place subscription).1 = true := by
  rw [getElem?_register] at hrecord
  obtain ⟨publication, hfound, rfl⟩ := Option.map_eq_some_iff.mp hrecord
  have hmember : subscription ∈ publication.subscribers := hlisted
  simp [stopSubscribing, hfound, hmember]

theorem stopSubscribing_of_notMem {place subscription : Nat}
    (hunlisted : ∀ record, relay.register.publications[place]? = some record →
      subscription ∉ record.subscribers) :
    relay.stopSubscribing place subscription = (false, relay) := by
  unfold stopSubscribing
  split
  · rename_i publication hfound
    refine if_neg (hunlisted publication.record ?_)
    rw [getElem?_register, hfound, Option.map_some]
  · rfl

/-- Refused calls change nothing. -/
theorem call_of_isRefusal {call : RegistryCall}
    (hrefused : (relay.call call).1.isRefusal = true) : (relay.call call).2 = relay := by
  cases call with
  | publish request =>
      rcases relay.call_publish request with ⟨_, _, -, hcalled⟩ | ⟨_, -, hcalled⟩
      · rw [hcalled] at hrefused
        cases hrefused
      · rw [hcalled]
  | unpublish publication =>
      by_cases hcurrent : relay.register.IsCurrent publication
      · simp [Relay.call, RegistryAnswer.isRefusal,
          stopPublishing_of_current hcurrent] at hrefused
      · simp [Relay.call, stopPublishing_of_stale hcurrent]
  | subscribe request =>
      rcases relay.call_subscribe request with ⟨_, _, _, -, hcalled⟩ | ⟨_, -, hcalled⟩
      · rw [hcalled] at hrefused
        cases hrefused
      · rw [hcalled]
  | unsubscribe publication subscription =>
      by_cases hlisted : ∃ record, relay.register.publications[publication]? = some record ∧
          subscription ∈ record.subscribers
      · obtain ⟨record, hrecord, hmember⟩ := hlisted
        simp [Relay.call, RegistryAnswer.isRefusal,
          stopSubscribing_of_mem hrecord hmember] at hrefused
      · have hunlisted := stopSubscribing_of_notMem fun record hrecord hmember =>
          hlisted ⟨record, hrecord, hmember⟩
        simp [Relay.call, hunlisted]
  | find path => rfl
  | count => rfl

end Relay

namespace StreamMap

/-- The map gives the answer of the relay, and describes it afterwards. -/
def Follows (map : StreamMap) (relay : Relay) (call : RegistryCall) : Prop :=
  (relay.call call).1 = (map.answer call).1 ∧
    (map.answer call).2.Describes (relay.call call).2.register

variable {map : StreamMap} {relay : Relay}

theorem Describes.follows_publish (hdescribes : map.Describes relay.register)
    (request : PublishRequest) : map.Follows relay (.publish request) := by
  cases hplace : relay.directory.get? request.path with
  | some place =>
      have htaken : map.streams.get? request.path ≠ none := fun hfree => by
        have hnone := (hdescribes.get?_eq_none_iff request.path).mp hfree
        cases hplace.symm.trans hnone
      obtain ⟨listing, hlisting⟩ := Option.ne_none_iff_exists'.mp htaken
      have hrefused : relay.startPublishing request =
          .error (.alreadyPublishing request.path.text) := by
        simp [Relay.startPublishing, hplace]
      simp only [Follows, Relay.call, hrefused, answer, hlisting]
      exact ⟨trivial, hdescribes⟩
  | none =>
      have hfree := (hdescribes.get?_eq_none_iff request.path).mpr hplace
      obtain ⟨place, started, hstart⟩ : ∃ place started,
          relay.startPublishing request = .ok (place, started) := by
        simp [Relay.startPublishing, hplace]
      obtain ⟨hnone, rfl, hregister⟩ := relay.register_startPublishing hstart
      simp only [Follows, Relay.call, hstart, answer, hfree, hregister]
      exact ⟨by rw [hdescribes.published],
        hdescribes.afterPublishing request.session hnone⟩

theorem Describes.follows_unpublish (hdescribes : map.Describes relay.register)
    (publication : Nat) : map.Follows relay (.unpublish publication) := by
  by_cases hcurrent : relay.register.IsCurrent publication
  · have hdone := Relay.stopPublishing_of_current hcurrent
    obtain ⟨record, hrecord, hplace⟩ := hcurrent
    simp only [Follows, Relay.call, answer, hdescribes.streamOf?_of_record hrecord hplace,
      hdone, Relay.register_stopPublishing]
    exact ⟨trivial, hdescribes.afterUnpublishing hrecord hplace⟩
  · simp only [Follows, Relay.call, answer, hdescribes.streamOf?_of_stale hcurrent,
      Relay.stopPublishing_of_stale hcurrent]
    exact ⟨trivial, hdescribes⟩

theorem Describes.follows_subscribe (hdescribes : map.Describes relay.register)
    (request : SubscribeRequest) : map.Follows relay (.subscribe request) := by
  cases hplace : relay.directory.get? request.path with
  | none =>
      have hfree := (hdescribes.get?_eq_none_iff request.path).mpr hplace
      have hrefused : relay.startSubscribing request =
          .error (.streamNotFound request.path.text) := by
        simp [Relay.startSubscribing, hplace]
      simp only [Follows, Relay.call, hrefused, answer, hfree]
      exact ⟨trivial, hdescribes⟩
  | some place =>
      obtain ⟨record, hrecord, hpath⟩ := hdescribes.isSound.found request.path place hplace
      have hentry := hdescribes.get?_of_record hrecord (hpath ▸ hplace)
      have hview := hrecord
      rw [Relay.getElem?_register] at hview
      obtain ⟨publication, hfound, rfl⟩ := Option.map_eq_some_iff.mp hview
      rw [hpath] at hentry
      have hsession := relay.hasSubscriber_iff_mem publication place request.session
      by_cases hviewing : relay.hasSubscriber publication request.session = true
      · have hrefused : relay.startSubscribing request =
            .error (.alreadySubscribing request.path.text) := by
          simp [Relay.startSubscribing, hplace, hfound, hviewing]
        simp only [Follows, Relay.call, hrefused, answer, hentry,
          if_pos (hsession.mp hviewing)]
        exact ⟨trivial, hdescribes⟩
      · obtain ⟨subscription, started, hstart⟩ : ∃ subscription started,
            relay.startSubscribing request = .ok ((place, subscription), started) := by
          simp [Relay.startSubscribing, hplace, hfound, hviewing]
        obtain ⟨-, rfl, hregister⟩ := relay.register_startSubscribing hstart
        simp only [Follows, Relay.call, hstart, answer, hentry,
          if_neg (fun hmember => hviewing (hsession.mpr hmember)), hregister]
        refine ⟨by rw [hdescribes.subscribed], ?_⟩
        rw [← hpath]
        exact hdescribes.afterSubscribing hrecord (hpath ▸ hplace) request.session

theorem Describes.follows_unsubscribe (hdescribes : map.Describes relay.register)
    (publication subscription : Nat) :
    map.Follows relay (.unsubscribe publication subscription) := by
  by_cases hcurrent : relay.register.IsCurrent publication
  · obtain ⟨record, hrecord, hplace⟩ := hcurrent
    have hstream := hdescribes.streamOf?_of_record hrecord hplace
    have hkeys := hdescribes.isSound.keys_viewers hrecord
    by_cases hlisted : subscription ∈ record.subscribers
    · simp only [Follows, Relay.call, answer, hstream, hkeys, if_pos hlisted,
        Relay.stopSubscribing_of_mem hrecord hlisted, Relay.register_stopSubscribing]
      exact ⟨trivial, hdescribes.afterUnsubscribing hrecord hplace subscription⟩
    · have hunlisted : relay.stopSubscribing publication subscription = (false, relay) := by
        refine Relay.stopSubscribing_of_notMem fun found hfound => ?_
        rwa [Option.some.inj (hfound.symm.trans hrecord)]
      simp only [Follows, Relay.call, answer, hstream, hkeys, if_neg hlisted, hunlisted]
      exact ⟨trivial, hdescribes⟩
  · have hunlisted : relay.stopSubscribing publication subscription = (false, relay) := by
      refine Relay.stopSubscribing_of_notMem fun record hrecord => ?_
      rw [hdescribes.isSound.subscribers_of_stale hcurrent hrecord]
      exact List.not_mem_nil
    simp only [Follows, Relay.call, answer, hdescribes.streamOf?_of_stale hcurrent, hunlisted]
    exact ⟨trivial, hdescribes⟩

theorem Describes.follows (hdescribes : map.Describes relay.register)
    (call : RegistryCall) : map.Follows relay call := by
  cases call with
  | publish request => exact hdescribes.follows_publish request
  | unpublish publication => exact hdescribes.follows_unpublish publication
  | subscribe request => exact hdescribes.follows_subscribe request
  | unsubscribe publication subscription =>
      exact hdescribes.follows_unsubscribe publication subscription
  | find path =>
      refine ⟨congrArg RegistryAnswer.found ?_, hdescribes⟩
      rw [hdescribes.get?]
      show relay.register.directory.get? path = _
      cases hplace : relay.register.directory.get? path with
      | none => simp [Register.listing?, hplace]
      | some place =>
          obtain ⟨record, hrecord, -⟩ := hdescribes.isSound.found path place hplace
          rw [Register.listing?_of_get? hplace hrecord, Option.map_some]
  | count =>
      refine ⟨congrArg RegistryAnswer.counted ?_, hdescribes⟩
      exact hdescribes.isSound.directory.count_eq hdescribes.nodup fun path =>
        (hdescribes.get?_eq_none_iff path).symm

end StreamMap

/-! ## Runs -/

namespace StreamMap

variable {map : StreamMap}

/-- No session is twice on a list. -/
def HasDistinctViewers (map : StreamMap) : Prop :=
  ∀ entry ∈ map.streams, entry.2.sessions.Nodup

theorem HasDistinctViewers.afterPutting (hdistinct : map.HasDistinctViewers)
    {listing : StreamListing} (hnodup : listing.sessions.Nodup) (path : StreamPath)
    (published subscribed : Nat) :
    HasDistinctViewers ⟨map.streams.put path listing, published, subscribed⟩ := by
  intro entry hentry
  rcases Table.mem_of_mem_put hentry with rfl | hold
  · exact hnodup
  · exact hdistinct entry hold

theorem HasDistinctViewers.afterAnswering (hdistinct : map.HasDistinctViewers)
    (call : RegistryCall) : (map.answer call).2.HasDistinctViewers := by
  cases call with
  | publish request =>
      simp only [answer]
      split
      · exact hdistinct
      · refine hdistinct.afterPutting ?_ request.path _ _
        exact List.nodup_nil
  | unpublish publication =>
      simp only [answer]
      split
      · rename_i path _ _
        exact fun entry hentry =>
          hdistinct entry ((Table.erase_sublist map.streams path).mem hentry)
      · exact hdistinct
  | subscribe request =>
      simp only [answer]
      split
      · exact hdistinct
      · rename_i listing hlisting
        split
        · exact hdistinct
        · rename_i hnew
          have hold := hdistinct _ (Table.mem_of_get? hlisting)
          refine hdistinct.afterPutting ?_ request.path _ _
          simp only [StreamListing.sessions, List.map_append, List.map_cons, List.map_nil]
          exact List.nodup_append.mpr ⟨hold, by simp, by
            rintro first hfirst second hsecond rfl
            exact hnew (List.mem_singleton.mp hsecond ▸ hfirst)⟩
  | unsubscribe publication subscription =>
      simp only [answer]
      split
      · rename_i path listing hstream
        split
        · have hold := hdistinct _ (List.mem_of_find?_eq_some hstream)
          have hsublist := (Table.erase_sublist listing.viewers subscription).map Prod.snd
          refine hdistinct.afterPutting ?_ path _ _
          exact hsublist.nodup hold
        · exact hdistinct
      · exact hdistinct
  | find path => exact hdistinct
  | count => exact hdistinct

theorem HasDistinctViewers.afterRun (hdistinct : map.HasDistinctViewers)
    (calls : List RegistryCall) : (map.run calls).HasDistinctViewers := by
  induction calls generalizing map with
  | nil => exact hdistinct
  | cons call calls ih => exact ih (hdistinct.afterAnswering call)

theorem Describes.afterRun {relay : Relay} (hdescribes : map.Describes relay.register)
    (events : List RelayEvent) :
    relay.answers events = map.answers (events.filterMap RelayEvent.call?) ∧
      (map.run (events.filterMap RelayEvent.call?)).Describes
        (relay.run events).register := by
  induction events generalizing map relay with
  | nil => exact ⟨rfl, hdescribes⟩
  | cons event events ih =>
      cases event with
      | called call =>
          obtain ⟨hsame, hafter⟩ := hdescribes.follows call
          obtain ⟨hanswers, hdescribed⟩ := ih hafter
          refine ⟨?_, hdescribed⟩
          simp only [Relay.answers, List.filterMap_cons, RelayEvent.call?, answers, hsame,
            hanswers]
      | moved traffic =>
          have hafter : map.Describes (relay.move traffic).register := by
            rwa [Relay.register_move]
          exact ih hafter

end StreamMap

namespace Relay

/-- The relay answers as the map does, lists what the map holds, has no session
twice on a list, and is not changed by the calls that it refuses. -/
theorem answers_eq_answers_map (configuration : RelayConfiguration)
    (spread : StreamPath → Nat) (maximumPooled maximumCapacity : Nat)
    (observers : List Observer) (events : List RelayEvent) :
    let relay := ofConfiguration configuration spread { maximumPooled, maximumCapacity }
      observers
    let calls := events.filterMap RelayEvent.call?
    relay.answers events = StreamMap.answers {} calls ∧
      (∀ path, (relay.run events).register.listing? path =
        (StreamMap.run {} calls).streams.get? path) ∧
      (∀ path, ∀ listing ∈ (relay.run events).register.listing? path,
        listing.sessions.Nodup) ∧
      ∀ call, ((relay.run events).call call).1.isRefusal = true →
        ((relay.run events).call call).2 = relay.run events := by
  intro relay calls
  have hempty : StreamMap.Describes {} relay.register :=
    StreamMap.describes_empty spread configuration.shardCount
  have hnone : StreamMap.HasDistinctViewers {} := fun entry hentry => by cases hentry
  obtain ⟨hanswers, hdescribes⟩ := hempty.afterRun events
  refine ⟨hanswers, fun path => (hdescribes.get? path).symm, ?_, fun call => ?_⟩
  · intro path listing hlisting
    rw [← hdescribes.get?] at hlisting
    exact hnone.afterRun calls _ (Table.mem_of_get? hlisting)
  · exact call_of_isRefusal

/-- A publication that is stopped does not stop its successor, and a subscription
that is over does not end the next one of its session. -/
example :
    let demo : StreamPath := ⟨"/live/demo"⟩
    let publish : RegistryCall := .publish ⟨1, demo, [], "live"⟩
    let subscribe : RegistryCall := .subscribe ⟨2, 1, demo, [], 0⟩
    (ofConfiguration { shardCount := 0 } (fun _ => 5) {} []).answers
        (.moved .opened :: List.map .called
          [publish, publish, .unpublish 0, publish, .unpublish 0, subscribe, subscribe,
            .unsubscribe 1 0, subscribe, .unsubscribe 1 0, .find demo, .count]) =
      [.published (.ok 0), .published (.error (.alreadyPublishing "/live/demo")),
        .unpublished true, .published (.ok 1), .unpublished false, .subscribed (.ok (1, 0)),
        .subscribed (.error (.alreadySubscribing "/live/demo")), .unsubscribed true,
        .subscribed (.ok (1, 1)), .unsubscribed false, .found (some 1), .counted 1] := rfl

end Relay

end LiveRelay
