import LiveRelay.Proofs.KeyFrameGroup
import LiveRelay.Proofs.PlayMessages

/-!
# What late viewers are sent

A viewer who joins a stream is sent the configurations and the group that the
stream keeps at that time.  Whatever else the relay has done before and does
meanwhile, the group is all of the frames since the last key frame, or it is
empty, and none of its frames is older than that key frame.
-/

namespace LiveRelay

theorem Programme.sequence_eq (programme : Programme) {frame : PublishedFrame} {index : Nat}
    (hframe : programme.frames[index]? = some frame) : frame.sequence = index + 1 := by
  have hlt := (List.getElem?_eq_some_iff.mp hframe).1
  have hnumbered := congrArg (·[index]?) programme.numbered
  simp only [List.getElem?_map, hframe, Option.map_some, List.getElem?_range' hlt,
    Option.some.injEq] at hnumbered
  omega

/-- No two frames have the same number. -/
theorem Programme.eq_of_sequence_eq (programme : Programme) {first second : PublishedFrame}
    (hfirst : first ∈ programme.frames) (hsecond : second ∈ programme.frames)
    (hsame : first.sequence = second.sequence) : first = second := by
  obtain ⟨index, hindex⟩ := List.getElem?_of_mem hfirst
  obtain ⟨other, hother⟩ := List.getElem?_of_mem hsecond
  rw [programme.sequence_eq hindex, programme.sequence_eq hother] at hsame
  obtain rfl := Nat.succ.inj hsame
  exact Option.some.inj (hindex.symm.trans hother)

/-- A frame is a configuration or a key frame. -/
theorem Programme.header_ne_keyFrame (programme : Programme) {kind : MediaKind}
    {header keyFrame : PublishedFrame}
    (hheader : programme.headerFrame? kind = some header)
    (hkey : programme.keyFrame? = some keyFrame) : header.sequence ≠ keyFrame.sequence := by
  obtain ⟨hset, hsort⟩ := programme.mem_of_latest? hheader
  obtain ⟨hpublished, hstarts⟩ := programme.mem_of_latest? hkey
  intro hsame
  obtain rfl := programme.eq_of_sequence_eq hset hpublished hsame
  simp only [decide_eq_true_eq] at hsort
  simp [PublishedFrame.isKeyFrame, hsort.2] at hstarts

/-- No cached frame is older than the last key frame. -/
theorem GroupCache.Spans.keyFrame_le {group : GroupCache} {limit : Nat}
    {programme : Programme} (hspans : group.Spans limit programme) {entry : GroupEntry}
    (hentry : entry ∈ group.entries) :
    ∃ keyFrame, programme.keyFrame? = some keyFrame ∧ keyFrame.sequence ≤ entry.sequence := by
  have hpublished : entry.published ∈ programme.sinceKeyFrame := by
    have hmem : entry.published ∈ group.entries.map GroupEntry.published :=
      List.mem_map_of_mem hentry
    rw [hspans.published_eq_ite] at hmem
    split at hmem
    · exact hmem
    · simp at hmem
  cases hkey : programme.keyFrame? with
  | none => simp [Programme.sinceKeyFrame, hkey] at hpublished
  | some keyFrame =>
      exact ⟨keyFrame, rfl, programme.sequence_le_of_mem_sinceKeyFrame hkey hpublished⟩

namespace Relay

section

variable {relay joined : Relay} {place limit : Nat} {programme : Programme}

theorem Carries.exists_cache (hcarries : Carries place limit programme relay) :
    ∃ publication, relay.publications[place]? = some publication ∧
      publication.cache.media.Suits limit programme := by
  obtain ⟨cache, hstock, hsuits⟩ := hcarries.stock
  obtain ⟨publication, hfound, hsame⟩ := Option.map_eq_some_iff.mp hstock
  have hmedia : publication.cache.media = cache := congrArg Stock.cache hsame
  exact ⟨publication, hfound, hmedia ▸ hsuits⟩

/-- A configuration replaces the one of its kind, and nothing else that is cached. -/
theorem cache_distribute_of_isHeader (hclean : relay.pool.IsClean)
    {publication : Publication} (hfound : relay.publications[place]? = some publication)
    {kind : MediaKind} {payload : Bytes}
    (hheader : (MediaFrame.classify kind payload).isHeader = true) (timestamp : UInt32) :
    ∃ later buffer,
      (relay.distribute place kind timestamp payload).2.publications[place]? = some later ∧
        buffer.content = payload ∧
        (kind = .audio → later.cache =
          { publication.cache with audioHeader := some buffer }) ∧
        (kind = .video → later.cache =
          { publication.cache with videoHeader := some buffer }) := by
  have hview : relay.streams.publications[place]? = some publication.uncounted := by
    rw [getElem?_streams_publications, hfound, Option.map_some]
  obtain ⟨numbered, entered, hnext, henters, hturns⟩ :=
    distribute_spec hview hclean kind timestamp payload
  obtain ⟨messages, hbroadcast⟩ :
      ∃ messages, Sends 0 messages entered (entered.broadcast place numbered).2 :=
    entered.exists_sends_broadcast place numbered
  have hturn := hturns 0 messages hbroadcast
  have hlength := (List.getElem?_eq_some_iff.mp hview).1
  have hafter := congrArg (·.publications[place]?) hturn.streams
  simp only [getElem?_streams_publications, Streams.putPublication,
    List.getElem?_set_self hlength] at hafter
  obtain ⟨later, hlater, hsame⟩ := Option.map_eq_some_iff.mp hafter
  have hcache : later.cache = publication.cache.afterEntering numbered :=
    congrArg Publication.cache hsame
  have hset : numbered.frame.isHeader = true := by
    rw [hnext.frame, hheader]
  have hkind : numbered.frame.kind = kind := by
    rw [hnext.frame, MediaFrame.kind_classify]
  rw [MediaCache.afterEntering_of_isHeader _ hset, hkind] at hcache
  refine ⟨later, numbered.buffer, hlater, hnext.content, ?_, ?_⟩
  · rintro rfl
    exact hcache
  · rintro rfl
    exact hcache

/-- Who joins is sent what the cache of the stream holds. -/
theorem exists_opening_of_startSubscribing {publication : Publication}
    (hfound : relay.publications[place]? = some publication)
    {request : SubscribeRequest} {subscription : Nat}
    (hjoin : relay.startSubscribing request = .ok ((place, subscription), joined)) :
    ∃ messages, messages.map OutboundMessage.toWire = request.opening publication.cache ∧
      joined.queueAt request.queue = (relay.queueAt request.queue).pushAll messages := by
  obtain ⟨uncounted, -, huncounted, -, -, rfl⟩ := startSubscribing_spec hjoin
  have hview := huncounted
  rw [getElem?_streams_publications, hfound, Option.map_some] at hview
  obtain rfl := Option.some.inj hview
  have hqueue := (join_spec huncounted publication.cache request request.queue).2.1
  rw [if_pos rfl] at hqueue
  exact ⟨_, publication.cache.map_toWire_opening request, hqueue⟩

end

variable {configuration : RelayConfiguration} {spread : StreamPath → Nat}
  {maximumPooled maximumCapacity : Nat} {observers : List Observer}
  {before events : List RelayEvent} {request : PublishRequest} {place : Nat}
  {started : Relay}

theorem carries_run
    (hstart :
      ((ofConfiguration configuration spread { maximumPooled, maximumCapacity }
          observers).run before).startPublishing request = .ok (place, started))
    (hlive : .called (.unpublish place) ∉ events) :
    Carries place configuration.maximumGroupBytes (.ofRun place events)
      (started.run events) := by
  have hclean : BufferPool.IsClean { maximumPooled, maximumCapacity } := by
    intro allocation hallocation
    cases hallocation
  have hcarries := carries_startPublishing (isClean_run hclean before) hstart
  rw [limit_run] at hcarries
  exact hcarries.afterRun hlive

/-- The group is all of the frames since the last key frame, in order, or it is
empty, for want of a cache, of a key frame or of room. -/
theorem group_run
    (hstart :
      ((ofConfiguration configuration spread { maximumPooled, maximumCapacity }
          observers).run before).startPublishing request = .ok (place, started))
    (hlive : .called (.unpublish place) ∉ events) :
    let limit := configuration.maximumGroupBytes
    let programme := Programme.ofRun place events
    ∃ publication, (started.run events).publications[place]? = some publication ∧
      let group := publication.cache.group
      group.entries.map GroupEntry.published =
          (if totalSize programme.sinceKeyFrame ≤ limit then programme.sinceKeyFrame
            else []) ∧
        group.entries.Pairwise (fun first second => first.sequence < second.sequence) ∧
        group.bytes = totalSize (group.entries.map GroupEntry.published) ∧
        group.bytes ≤ limit ∧
        (group.entries = [] ↔ limit = 0 ∨ programme.keyFrame? = none ∨
          limit < totalSize programme.sinceKeyFrame) := by
  intro limit programme
  obtain ⟨publication, hfound, hsuits⟩ := (carries_run hstart hlive).exists_cache
  have hspans := hsuits.group
  exact ⟨publication, hfound, hspans.published_eq_ite, hspans.pairwise_entries,
    hspans.bytes, hspans.bytes_le, hspans.entries_eq_nil_iff⟩

/-- A relay on which nothing has happened yet. -/
def idle : Relay := .ofConfiguration {} (fun _ => 0) {} []

def demo : PublishRequest := ⟨1, ⟨"/live/demo"⟩, [], "live"⟩

/-- A stream with its configuration, a key frame and another frame. -/
def opening : List RelayEvent :=
  [.moved (.frame 0 .video 0 [0x17, 0x00]), .moved (.frame 0 .video 0 [0x17, 0x01]),
    .moved (.frame 0 .video 40 [0x27, 0x01, 0x02])]

theorem group_run_opening :
    ∃ started publication, idle.startPublishing demo = .ok (0, started) ∧
      (started.run opening).publications[0]? = some publication ∧
      publication.cache.group.entries.map GroupEntry.published =
        [⟨2, .video, 0, [0x17, 0x01]⟩, ⟨3, .video, 40, [0x27, 0x01, 0x02]⟩] ∧
      publication.cache.group.bytes = 5 := by
  obtain ⟨started, hstart⟩ : ∃ started,
      ((ofConfiguration {} (fun _ => 0) {} []).run []).startPublishing demo =
        .ok (0, started) := ⟨_, rfl⟩
  have hlive : .called (.unpublish 0) ∉ opening := by simp [opening]
  obtain ⟨publication, hfound, hentries, -, hbytes, -⟩ := group_run hstart hlive
  have hpublished : publication.cache.group.entries.map GroupEntry.published =
      [⟨2, .video, 0, [0x17, 0x01]⟩, ⟨3, .video, 40, [0x27, 0x01, 0x02]⟩] := by
    rw [hentries]
    decide
  exact ⟨started, publication, hstart, hfound, hpublished, by rw [hbytes, hpublished]; rfl⟩

/-- What a viewer is sent from the group is newer than the video configuration that
goes ahead of it, unless the configuration was published after the key frame.  That
leaves the group as it is, and its frames are those since the key frame. -/
theorem headerFrame_lt_or_keyFrame_lt
    (hstart :
      ((ofConfiguration configuration spread { maximumPooled, maximumCapacity }
          observers).run before).startPublishing request = .ok (place, started))
    (hlive : .called (.unpublish place) ∉ events) :
    let programme := Programme.ofRun place events
    let reached := started.run events
    ∃ publication, reached.publications[place]? = some publication ∧
      let cache := publication.cache
      cache.videoHeader.map RentedBuffer.content =
          (programme.headerFrame? .video).map PublishedFrame.payload ∧
        (∀ header, programme.headerFrame? .video = some header →
          ∀ entry ∈ cache.group.entries, header.sequence < entry.sequence ∨
            ∃ keyFrame, programme.keyFrame? = some keyFrame ∧
              keyFrame.sequence < header.sequence ∧
              keyFrame.sequence ≤ entry.sequence) ∧
        (∀ kind timestamp payload,
          (MediaFrame.classify kind payload).isHeader = true →
            ∃ later buffer,
              (reached.distribute place kind timestamp payload).2.publications[place]? =
                  some later ∧
                buffer.content = payload ∧
                (kind = .audio → later.cache = { cache with audioHeader := some buffer }) ∧
                (kind = .video →
                  later.cache = { cache with videoHeader := some buffer })) ∧
        ∀ subscribe subscription joined,
          reached.startSubscribing subscribe = .ok ((place, subscription), joined) →
            let streamId := subscribe.streamId
            let path := subscribe.path.text
            ∃ messages,
              messages.map OutboundMessage.toWire =
                  [.streamBegin streamId,
                      .status streamId "NetStream.Play.Reset"
                        s!"Playing and resetting {path}.",
                      .status streamId "NetStream.Play.Start" s!"Started playing {path}.",
                      .data streamId "|RtmpSampleAccess"
                        [.boolean true, .boolean true]] ++
                    cache.videoHeader.toList.map
                      (fun header => .media streamId .video 0 header.content) ++
                    cache.audioHeader.toList.map
                      (fun header => .media streamId .audio 0 header.content) ++
                    cache.metadata.toList.map
                      (fun metadata =>
                        .data streamId "onMetaData" [.ecmaArray metadata]) ++
                    cache.group.entries.map
                      (fun entry =>
                        .media streamId entry.kind entry.timestamp
                          entry.buffer.content) ∧
                joined.queueAt subscribe.queue =
                  (reached.queueAt subscribe.queue).pushAll messages := by
  intro programme reached
  have hcarries := carries_run hstart hlive
  obtain ⟨publication, hfound, hsuits⟩ := hcarries.exists_cache
  refine ⟨publication, hfound, hsuits.videoHeader, ?_, ?_, ?_⟩
  · intro header hheader entry hentry
    obtain ⟨keyFrame, hkey, hle⟩ := hsuits.group.keyFrame_le hentry
    have hne := programme.header_ne_keyFrame hheader hkey
    rcases Nat.lt_or_gt_of_ne hne with hbefore | hafter
    · exact .inl (Nat.lt_of_lt_of_le hbefore hle)
    · exact .inr ⟨keyFrame, hkey, hafter, hle⟩
  · intro kind timestamp payload hheader
    exact cache_distribute_of_isHeader hcarries.isClean hfound hheader timestamp
  · intro subscribe subscription joined hjoin
    exact exists_opening_of_startSubscribing hfound hjoin

/-- A configuration that is repeated after the key frame. -/
def repeatedHeader : List RelayEvent :=
  .moved .opened :: opening ++ [.moved (.frame 0 .video 80 [0x17, 0x00])]

def lateRequest : SubscribeRequest := ⟨2, 1, ⟨"/live/demo"⟩, [], 0⟩

/-- The group is still there when the configuration is repeated, and once more. -/
theorem headerFrame_lt_or_keyFrame_lt_of_repeatedHeader :
    ∃ started publication joined later, idle.startPublishing demo = .ok (0, started) ∧
      (started.run repeatedHeader).publications[0]? = some publication ∧
      (started.run repeatedHeader).startSubscribing lateRequest =
        .ok ((0, 0), joined) ∧
      ((started.run repeatedHeader).distribute 0 .video 90
          [0x17, 0x00, 0x09]).2.publications[0]? = some later ∧
      (∀ entry ∈ publication.cache.group.entries, 2 ≤ entry.sequence) ∧
      publication.cache.group.entries.map GroupEntry.published =
        [⟨2, .video, 0, [0x17, 0x01]⟩, ⟨3, .video, 40, [0x27, 0x01, 0x02]⟩] ∧
      later.cache.group = publication.cache.group ∧
      later.cache.videoHeader.map RentedBuffer.content = some [0x17, 0x00, 0x09] ∧
      (joined.queueAt 0).messages.map OutboundMessage.toWire =
        [.streamBegin 1,
          .status 1 "NetStream.Play.Reset" "Playing and resetting /live/demo.",
          .status 1 "NetStream.Play.Start" "Started playing /live/demo.",
          .data 1 "|RtmpSampleAccess" [.boolean true, .boolean true],
          .media 1 .video 0 [0x17, 0x00],
          .media 1 .video 0 [0x17, 0x01],
          .media 1 .video 40 [0x27, 0x01, 0x02]] := by
  have hstart : ((ofConfiguration {} (fun _ => 0) {} []).run []).startPublishing demo =
      .ok (0, _) := rfl
  have hlive : .called (.unpublish 0) ∉ repeatedHeader := by
    simp [repeatedHeader, opening]
  obtain ⟨publication, hfound, -, hentries, hheader, hjoins⟩ :=
    headerFrame_lt_or_keyFrame_lt hstart hlive
  obtain ⟨later, buffer, hlater, hcontent, -, hcache⟩ :=
    hheader .video 90 [0x17, 0x00, 0x09] rfl
  obtain ⟨messages, hmessages, hqueue⟩ := hjoins lateRequest 0 _ rfl
  refine ⟨_, publication, _, later, hstart, hfound, rfl, hlater, ?_, ?_, ?_, ?_, ?_⟩
  · intro entry hentry
    rcases hentries ⟨4, .video, 80, [0x17, 0x00]⟩ rfl entry hentry with
      hlater | ⟨keyFrame, hkey, -, hle⟩
    · exact Nat.le_trans (by decide) (Nat.le_of_lt hlater)
    · obtain rfl := Option.some.inj (hkey.symm.trans rfl)
      exact hle
  · cases hfound
    rfl
  · rw [hcache rfl]
  · rw [hcache rfl, ← hcontent]
    rfl
  · cases hfound
    have hopened := hqueue.trans (OutboundQueue.pushAll_of_isOpen rfl messages)
    exact (congrArg (·.messages.map OutboundMessage.toWire) hopened).trans hmessages

/-- The viewer is sent the configuration, which was published last, ahead of the
key frame, which is older. -/
theorem entry_lt_headerFrame_of_repeatedHeader :
    ∃ started publication header entry,
      idle.startPublishing demo = .ok (0, started) ∧
      (started.run repeatedHeader).publications[0]? = some publication ∧
      (Programme.ofRun 0 repeatedHeader).headerFrame? .video = some header ∧
      publication.cache.videoHeader.map RentedBuffer.content = some header.payload ∧
      entry ∈ publication.cache.group.entries ∧ entry.sequence < header.sequence ∧
      (((started.run (repeatedHeader ++ [.called (.subscribe lateRequest)])).queueAt
          0).messages.drop 4).take 2 =
        [.media .video 1 0 ⟨3, header.payload⟩,
          .media .video 1 entry.timestamp entry.buffer] :=
  ⟨_, _, ⟨4, .video, 80, [0x17, 0x00]⟩, ⟨2, .video, 0, ⟨1, [0x17, 0x01]⟩⟩, rfl, rfl, rfl,
    rfl, List.mem_cons_self, by decide, rfl⟩

end Relay

end LiveRelay
