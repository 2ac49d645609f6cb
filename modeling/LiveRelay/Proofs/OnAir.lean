import LiveRelay.Proofs.StreamOperations

/-!
# A stream on the air

What was published on a stream so far is its programme.  At any time the cache
of the stream holds the latest codec configurations and the latest description
of the programme, and its last few frames.  No frame that was replayed to a
viewer is still to come.
-/

namespace LiveRelay

structure PublishedFrame where
  /-- Place in the order of publishing, from one. -/
  sequence : Nat
  kind : MediaKind
  timestamp : UInt32
  payload : Bytes
  deriving DecidableEq

def PublishedFrame.isHeader (frame : PublishedFrame) : Bool :=
  (MediaFrame.classify frame.kind frame.payload).isHeader

/-- What was published on a stream, oldest first. -/
structure Programme where
  frames : List PublishedFrame := []
  descriptions : List Properties := []
  numbered :
    frames.map PublishedFrame.sequence = List.range' 1 frames.length := by rfl

namespace Programme

def addFrame (programme : Programme) (kind : MediaKind) (timestamp : UInt32)
    (payload : Bytes) : Programme where
  frames :=
    programme.frames ++ [⟨programme.frames.length + 1, kind, timestamp, payload⟩]
  descriptions := programme.descriptions
  numbered := by
    rw [List.map_append, programme.numbered, List.length_append,
      List.length_singleton, List.range'_1_concat, List.map_singleton,
      Nat.add_comm 1]

def addDescription (programme : Programme) (metadata : Properties) :
    Programme :=
  { programme with descriptions := programme.descriptions ++ [metadata] }

/-- The latest configuration of a codec. -/
def header? (programme : Programme) (kind : MediaKind) : Option Bytes :=
  (programme.frames.filter fun frame =>
    frame.kind = kind ∧ frame.isHeader).getLast?.map PublishedFrame.payload

def metadata? (programme : Programme) : Option Properties :=
  programme.descriptions.getLast?

/-- The frames that are no codec configurations. -/
def media (programme : Programme) : List PublishedFrame :=
  programme.frames.filter fun frame => !frame.isHeader

variable (programme : Programme) (kind : MediaKind) (timestamp : UInt32)
  (payload : Bytes)

theorem header?_addFrame (other : MediaKind) :
    (programme.addFrame kind timestamp payload).header? other =
      if kind = other ∧ (MediaFrame.classify kind payload).isHeader then
        some payload
      else programme.header? other := by
  simp only [header?, addFrame, List.filter_append, List.filter_cons,
    List.filter_nil, PublishedFrame.isHeader]
  by_cases hheader :
      kind = other ∧ (MediaFrame.classify kind payload).isHeader = true
  · obtain ⟨rfl, hheader⟩ := hheader
    simp [hheader]
  · simp [hheader]

theorem media_addFrame :
    (programme.addFrame kind timestamp payload).media =
      if (MediaFrame.classify kind payload).isHeader then programme.media
      else
        programme.media ++
          [⟨programme.frames.length + 1, kind, timestamp, payload⟩] := by
  simp only [media, addFrame, List.filter_append, List.filter_cons,
    List.filter_nil, PublishedFrame.isHeader]
  cases (MediaFrame.classify kind payload).isHeader with
  | false => rfl
  | true => simp

theorem pairwise_frames :
    programme.frames.Pairwise fun first second =>
      first.sequence < second.sequence := by
  have hrange : (List.range' 1 programme.frames.length).Pairwise (· < ·) :=
    List.pairwise_lt_range'
  rw [← programme.numbered] at hrange
  exact List.pairwise_map.mp hrange

theorem sequence_le {frame : PublishedFrame} (hframe : frame ∈ programme.frames) :
    frame.sequence ≤ programme.frames.length := by
  have hmember :
      frame.sequence ∈ programme.frames.map PublishedFrame.sequence :=
    List.mem_map_of_mem hframe
  rw [programme.numbered, List.mem_range'_1] at hmember
  omega

end Programme

/-! ## The cache -/

def GroupEntry.published (entry : GroupEntry) : PublishedFrame :=
  ⟨entry.sequence, entry.kind, entry.timestamp, entry.buffer.content⟩

def NumberedFrame.entry (numbered : NumberedFrame) : GroupEntry :=
  ⟨numbered.sequence, numbered.frame.kind, numbered.timestamp, numbered.buffer⟩

/-- The cache holds the latest of what was published. -/
structure MediaCache.Reflects (cache : MediaCache) (programme : Programme) :
    Prop where
  videoHeader :
    cache.videoHeader.map RentedBuffer.content = programme.header? .video
  audioHeader :
    cache.audioHeader.map RentedBuffer.content = programme.header? .audio
  metadata : cache.metadata = programme.metadata?
  group : cache.group.entries.map GroupEntry.published <:+ programme.media

/-- Only an open group has entries, and only an enabled one is open. -/
structure GroupCache.IsSound (group : GroupCache) : Prop where
  entries_eq_nil : group.isOpen = false → group.entries = []
  isEnabled : group.isOpen = true → group.isEnabled = true

theorem MediaFrame.kind_classify (kind : MediaKind) (payload : Bytes) :
    (classify kind payload).kind = kind := by
  cases kind with
  | audio => cases payload <;> rfl
  | video =>
      cases payload with
      | nil => rfl
      | cons first rest =>
          simp only [classify, ofVideo]
          split <;> rfl

theorem Relay.IsNext.published {publication : Publication} {kind : MediaKind}
    {timestamp : UInt32} {payload : Bytes} {numbered : NumberedFrame}
    (hnext : Relay.IsNext publication (MediaFrame.classify kind payload) timestamp
      payload numbered) :
    numbered.entry.published =
      ⟨publication.sequence + 1, kind, timestamp, payload⟩ := by
  simp [NumberedFrame.entry, GroupEntry.published, hnext.sequence, hnext.frame,
    MediaFrame.kind_classify, hnext.timestamp, hnext.content]

namespace GroupCache

variable {group : GroupCache}

theorem IsSound.afterStart (pool : BufferPool) (keyFrame : GroupEntry) :
    (group.start pool keyFrame).1.IsSound ∧
      ((group.start pool keyFrame).1.entries = [] ∨
        (group.start pool keyFrame).1.entries = [keyFrame]) := by
  unfold start clear
  simp only
  split
  · rename_i hfits
    refine ⟨⟨by simp, ?_⟩, Or.inr rfl⟩
    intro _
    simp only [Bool.and_eq_true] at hfits
    exact hfits.1
  · exact ⟨⟨by simp, by simp⟩, Or.inl rfl⟩

theorem IsSound.afterPush (hsound : group.IsSound) (pool : BufferPool)
    (entry : GroupEntry) :
    (group.push pool entry).2.1.IsSound ∧
      ((group.push pool entry).2.1.entries = [] ∨
        (group.push pool entry).2.1.entries = group.entries ++ [entry]) := by
  unfold push clear
  simp only
  split
  · rename_i hclosed
    simp only [Bool.not_eq_true'] at hclosed
    exact ⟨hsound, Or.inl (hsound.entries_eq_nil hclosed)⟩
  · split
    · exact ⟨⟨by simp, by simp⟩, Or.inl rfl⟩
    · rename_i hopen _
      simp only [Bool.not_eq_true', Bool.not_eq_false] at hopen
      refine ⟨⟨?_, ?_⟩, Or.inr rfl⟩
      · intro hclosed
        rw [hopen] at hclosed
        cases hclosed
      · exact hsound.isEnabled

end GroupCache

namespace MediaCache

theorem afterEntering_of_isHeader (cache : MediaCache) {numbered : NumberedFrame}
    (hheader : numbered.frame.isHeader = true) :
    cache.afterEntering numbered =
      match numbered.frame.kind with
      | .audio => { cache with audioHeader := some numbered.buffer }
      | .video => { cache with videoHeader := some numbered.buffer } := by
  unfold afterEntering enter
  simp only [hheader, if_true]
  cases numbered.frame.kind <;> rfl

/-- Other frames change the group, which ends with the frame or is empty. -/
theorem afterEntering_of_not_isHeader {cache : MediaCache}
    (hsound : cache.group.IsSound) {numbered : NumberedFrame}
    (hheader : numbered.frame.isHeader = false) :
    ∃ group, cache.afterEntering numbered = { cache with group := group } ∧
      group.IsSound ∧
      (group.entries = [] ∨ ∃ kept, kept <:+ cache.group.entries ∧
        group.entries = kept ++ [numbered.entry]) := by
  unfold afterEntering enter
  simp only [hheader, Bool.false_eq_true, if_false]
  split
  · split
    · obtain ⟨hstarted, hentries⟩ :=
        GroupCache.IsSound.afterStart (BufferPool.claim {} numbered.buffer)
          numbered.entry
      refine ⟨_, rfl, hstarted, hentries.imp id ?_⟩
      intro hentry
      exact ⟨[], List.nil_suffix, hentry⟩
    · rename_i hdisabled
      refine ⟨cache.group, rfl, hsound, Or.inl (hsound.entries_eq_nil ?_)⟩
      cases hopen : cache.group.isOpen with
      | false => rfl
      | true => exact absurd (hsound.isEnabled hopen) hdisabled
  · obtain ⟨hpushed, hentries⟩ :=
      hsound.afterPush (BufferPool.claim {} numbered.buffer) numbered.entry
    refine ⟨_, rfl, hpushed, hentries.imp id ?_⟩
    intro hentry
    exact ⟨cache.group.entries, List.suffix_rfl, hentry⟩

variable {cache : MediaCache} {programme : Programme}

theorem Reflects.afterDescription (hreflects : cache.Reflects programme)
    (metadata : Properties) :
    ({ cache with metadata := some metadata } : MediaCache).Reflects
      (programme.addDescription metadata) where
  videoHeader := hreflects.videoHeader
  audioHeader := hreflects.audioHeader
  metadata := by simp [Programme.addDescription, Programme.metadata?]
  group := hreflects.group

variable {publication : Publication} {kind : MediaKind} {timestamp : UInt32}
  {payload : Bytes} {numbered : NumberedFrame}

theorem Reflects.afterHeader (hreflects : cache.Reflects programme)
    (hnext : Relay.IsNext publication (MediaFrame.classify kind payload) timestamp
      payload numbered)
    (hheader : (MediaFrame.classify kind payload).isHeader = true) :
    (cache.afterEntering numbered).Reflects
      (programme.addFrame kind timestamp payload) := by
  have hkind : numbered.frame.kind = kind := by
    rw [hnext.frame, MediaFrame.kind_classify]
  have hnumbered : numbered.frame.isHeader = true := by
    rw [hnext.frame, hheader]
  rw [afterEntering_of_isHeader cache hnumbered, hkind]
  have hgroup : cache.group.entries.map GroupEntry.published <:+
      (programme.addFrame kind timestamp payload).media := by
    rw [Programme.media_addFrame, if_pos hheader]
    exact hreflects.group
  cases kind with
  | audio =>
      refine ⟨?_, ?_, hreflects.metadata, hgroup⟩
      · simpa [Programme.header?_addFrame] using hreflects.videoHeader
      · simp [Programme.header?_addFrame, hheader, hnext.content]
  | video =>
      refine ⟨?_, ?_, hreflects.metadata, hgroup⟩
      · simp [Programme.header?_addFrame, hheader, hnext.content]
      · simpa [Programme.header?_addFrame] using hreflects.audioHeader

theorem Reflects.afterMedia (hreflects : cache.Reflects programme)
    (hsound : cache.group.IsSound)
    (hsequence : publication.sequence = programme.frames.length)
    (hnext : Relay.IsNext publication (MediaFrame.classify kind payload) timestamp
      payload numbered)
    (hheader : (MediaFrame.classify kind payload).isHeader = false) :
    (cache.afterEntering numbered).Reflects
      (programme.addFrame kind timestamp payload) := by
  have hnumbered : numbered.frame.isHeader = false := by
    rw [hnext.frame, hheader]
  obtain ⟨group, hgroup, -, hentries⟩ :=
    afterEntering_of_not_isHeader hsound hnumbered
  rw [hgroup]
  refine ⟨?_, ?_, hreflects.metadata, ?_⟩
  · simpa [Programme.header?_addFrame, hheader] using hreflects.videoHeader
  · simpa [Programme.header?_addFrame, hheader] using hreflects.audioHeader
  · rcases hentries with hempty | ⟨kept, hkept, hentries⟩
    · rw [hempty]
      exact List.nil_suffix
    · have hmedia : (programme.addFrame kind timestamp payload).media =
          programme.media ++ [numbered.entry.published] := by
        rw [Programme.media_addFrame, hnext.published, hsequence]
        simp [hheader]
      obtain ⟨older, holder⟩ := (hkept.map GroupEntry.published).trans hreflects.group
      refine ⟨older, ?_⟩
      rw [hentries, hmedia, List.map_append, ← List.append_assoc, holder]
      rfl

theorem Reflects.afterEntering (hreflects : cache.Reflects programme)
    (hsound : cache.group.IsSound)
    (hsequence : publication.sequence = programme.frames.length)
    (hnext : Relay.IsNext publication (MediaFrame.classify kind payload) timestamp
      payload numbered) :
    (cache.afterEntering numbered).Reflects
      (programme.addFrame kind timestamp payload) := by
  cases hheader : (MediaFrame.classify kind payload).isHeader with
  | true => exact hreflects.afterHeader hnext hheader
  | false => exact hreflects.afterMedia hsound hsequence hnext hheader

theorem isSound_afterEntering (hsound : cache.group.IsSound)
    (numbered : NumberedFrame) :
    (cache.afterEntering numbered).group.IsSound := by
  cases hheader : numbered.frame.isHeader with
  | true =>
      rw [afterEntering_of_isHeader cache hheader]
      cases numbered.frame.kind <;> exact hsound
  | false =>
      obtain ⟨group, hgroup, hafter, -⟩ :=
        afterEntering_of_not_isHeader hsound hheader
      rw [hgroup]
      exact hafter

theorem Reflects.pairwise_entries (hreflects : cache.Reflects programme) :
    cache.group.entries.Pairwise fun first second =>
      first.sequence < second.sequence := by
  have hsublist :
      (cache.group.entries.map GroupEntry.published).Sublist programme.frames :=
    hreflects.group.sublist.trans List.filter_sublist
  have hpairwise := programme.pairwise_frames.sublist hsublist
  rw [List.pairwise_map] at hpairwise
  exact hpairwise

theorem Reflects.sequence_le (hreflects : cache.Reflects programme)
    {entry : GroupEntry} (hentry : entry ∈ cache.group.entries) :
    entry.sequence ≤ programme.frames.length := by
  have hmember : entry.published ∈ programme.media :=
    hreflects.group.subset (List.mem_map_of_mem hentry)
  exact programme.sequence_le (List.mem_filter.mp hmember).1

/-- The replay covers its last entry and nothing after it. -/
theorem replayedThrough_eq (cache : MediaCache) :
    (cache.group.entries = [] ∧ cache.replayedThrough = 0) ∨
      ∃ entry, cache.group.entries.getLast? = some entry ∧
        cache.replayedThrough = entry.sequence := by
  unfold replayedThrough GroupCache.lastSequence?
  cases hlast : cache.group.entries.getLast? with
  | none => exact Or.inl ⟨List.getLast?_eq_none_iff.mp hlast, rfl⟩
  | some entry => exact Or.inr ⟨entry, rfl, rfl⟩

theorem Reflects.replayedThrough_le (hreflects : cache.Reflects programme) :
    cache.replayedThrough ≤ programme.frames.length := by
  rcases cache.replayedThrough_eq with ⟨-, hzero⟩ | ⟨entry, hlast, hentry⟩
  · omega
  · rw [hentry]
    exact hreflects.sequence_le (List.mem_of_getLast? hlast)

theorem Reflects.le_replayedThrough (hreflects : cache.Reflects programme)
    {entry : GroupEntry} (hentry : entry ∈ cache.group.entries) :
    entry.sequence ≤ cache.replayedThrough := by
  rcases cache.replayedThrough_eq with ⟨hempty, -⟩ | ⟨last, hlast, hthrough⟩
  · rw [hempty] at hentry
    cases hentry
  · obtain ⟨older, holder⟩ := List.getLast?_eq_some_iff.mp hlast
    have hordered := hreflects.pairwise_entries
    rw [holder] at hentry hordered
    rw [hthrough]
    rcases List.mem_append.mp hentry with hold | hnew
    · have hbefore := (List.pairwise_append.mp hordered).2.2 entry hold last
        (List.mem_singleton_self last)
      exact Nat.le_of_lt hbefore
    · exact Nat.le_of_eq (congrArg _ (List.mem_singleton.mp hnew))

/-- Of the last frame and those after it, the replay covers exactly what is
cached. -/
theorem Reflects.replayedThrough_lt_iff (hreflects : cache.Reflects programme)
    {sequence : Nat} (hlate : programme.frames.length ≤ sequence)
    (hpositive : 0 < sequence) :
    cache.replayedThrough < sequence ↔
      ∀ entry ∈ cache.group.entries, entry.sequence ≠ sequence := by
  constructor
  · intro hafter entry hentry
    have hcovered := hreflects.le_replayedThrough hentry
    omega
  · intro hnone
    rcases cache.replayedThrough_eq with ⟨-, hzero⟩ | ⟨last, hlast, hthrough⟩
    · omega
    · have hmember := List.mem_of_getLast? hlast
      have hbound := hreflects.sequence_le hmember
      have hother := hnone last hmember
      omega

end MediaCache

/-! ## The stream and its viewers -/

/-- What holds of a published stream all the time. -/
structure OnAir (published : Nat) (programme : Programme) (streams : Streams)
    (publication : Publication) : Prop where
  found : streams.publications[published]? = some publication
  alone : ∀ (path : StreamPath) (other : Nat),
    streams.directory.get? path = some other → other = published
  nodup : publication.subscribers.Nodup
  listed : ∀ place ∈ publication.subscribers,
    place < streams.subscriptions.length
  primed : ∀ (place : Nat) (subscription : Subscription),
    streams.subscriptions[place]? = some subscription →
      subscription.primedThrough ≤ publication.sequence
  sequence : publication.sequence = programme.frames.length
  sound : publication.cache.group.IsSound
  reflects : publication.cache.Reflects programme

namespace OnAir

variable {published : Nat} {programme : Programme} {streams : Streams}
  {publication : Publication}

theorem found_put (honAir : OnAir published programme streams publication)
    (changed : Publication) :
    (streams.putPublication published changed).publications[published]? =
      some changed := by
  have hlength := (List.getElem?_eq_some_iff.mp honAir.found).1
  simp [Streams.putPublication, hlength]

theorem afterFrame (honAir : OnAir published programme streams publication)
    {kind : MediaKind} {timestamp : UInt32} {payload : Bytes}
    {numbered : NumberedFrame}
    (hnext : Relay.IsNext publication (MediaFrame.classify kind payload) timestamp
      payload numbered) :
    let changed : Publication :=
      { publication with
        cache := publication.cache.afterEntering numbered
        sequence := numbered.sequence }
    OnAir published (programme.addFrame kind timestamp payload)
      (streams.putPublication published changed) changed := by
  intro changed
  refine ⟨honAir.found_put changed, honAir.alone, honAir.nodup, honAir.listed, ?_,
    ?_, ?_, ?_⟩
  · intro place subscription hsubscription
    have hprimed := honAir.primed place subscription hsubscription
    show subscription.primedThrough ≤ numbered.sequence
    rw [hnext.sequence]
    omega
  · show numbered.sequence = _
    rw [hnext.sequence, honAir.sequence]
    simp [Programme.addFrame]
  · exact MediaCache.isSound_afterEntering honAir.sound numbered
  · exact honAir.reflects.afterEntering honAir.sound honAir.sequence hnext

theorem afterDescription (honAir : OnAir published programme streams publication)
    (metadata : Properties) :
    let changed : Publication :=
      { publication with
        cache := { publication.cache with metadata := some metadata } }
    OnAir published (programme.addDescription metadata)
      (streams.putPublication published changed) changed := by
  intro changed
  exact
    { found := honAir.found_put changed
      alone := honAir.alone
      nodup := honAir.nodup
      listed := honAir.listed
      primed := honAir.primed
      sequence := honAir.sequence
      sound := honAir.sound
      reflects := honAir.reflects.afterDescription metadata }

theorem afterJoin (honAir : OnAir published programme streams publication)
    (request : SubscribeRequest) :
    let changed : Publication :=
      { publication with
        subscribers := publication.subscribers ++ [streams.subscriptions.length] }
    OnAir published programme
      ((streams.addSubscription
        (request.subscription publication.cache)).putPublication published changed)
      changed := by
  intro changed
  refine ⟨?_, honAir.alone, ?_, ?_, ?_, honAir.sequence, honAir.sound,
    honAir.reflects⟩
  · exact honAir.found_put changed
  · rw [List.nodup_append]
    refine ⟨honAir.nodup, List.pairwise_singleton _ _, ?_⟩
    intro place hplace other hother
    have hlength := honAir.listed place hplace
    rw [List.mem_singleton.mp hother]
    omega
  · intro place hplace
    have hlength :
        ((streams.addSubscription
          (request.subscription publication.cache)).putPublication published
            changed).subscriptions.length = streams.subscriptions.length + 1 := by
      simp [Streams.addSubscription, Streams.putPublication]
    rw [hlength]
    rcases List.mem_append.mp hplace with hold | hnew
    · exact Nat.lt_succ_of_lt (honAir.listed place hold)
    · rw [List.mem_singleton.mp hnew]
      exact Nat.lt_succ_self _
  · intro place subscription hsubscription
    have hadded :
        (streams.subscriptions ++
          [request.subscription publication.cache])[place]? = some subscription :=
      hsubscription
    rw [List.getElem?_append] at hadded
    split at hadded
    · exact honAir.primed place subscription hadded
    · rw [List.getElem?_singleton] at hadded
      split at hadded
      · rw [← Option.some.inj hadded]
        show publication.cache.replayedThrough ≤ publication.sequence
        rw [honAir.sequence]
        exact honAir.reflects.replayedThrough_le
      · cases hadded

theorem afterLeave (honAir : OnAir published programme streams publication)
    (place : Nat) :
    let changed : Publication :=
      { publication with
        subscribers := publication.subscribers.filter (· ≠ place) }
    OnAir published programme (streams.putPublication published changed)
      changed := by
  intro changed
  exact
    { found := honAir.found_put changed
      alone := honAir.alone
      nodup := honAir.nodup.filter _
      listed := fun other hother =>
        honAir.listed other (List.mem_filter.mp hother).1
      primed := honAir.primed
      sequence := honAir.sequence
      sound := honAir.sound
      reflects := honAir.reflects }

theorem afterUpdate (honAir : OnAir published programme streams publication)
    (place : Nat) {change : Subscription → Subscription}
    (hchange : ∀ subscription,
      (change subscription).primedThrough = subscription.primedThrough) :
    OnAir published programme (streams.updateSubscription place change)
      publication := by
  refine ⟨honAir.found, honAir.alone, honAir.nodup, ?_, ?_, honAir.sequence,
    honAir.sound, honAir.reflects⟩
  · intro other hother
    simpa [Streams.updateSubscription] using honAir.listed other hother
  · intro other subscription hsubscription
    simp only [Streams.updateSubscription, List.getElem?_modify] at hsubscription
    obtain ⟨before, hbefore, rfl⟩ := Option.map_eq_some_iff.mp hsubscription
    have hprimed := honAir.primed other before hbefore
    split
    · rw [hchange]
      exact hprimed
    · exact hprimed

end OnAir

end LiveRelay
