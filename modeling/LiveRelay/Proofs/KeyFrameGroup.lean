import LiveRelay.Proofs.Stocks

/-!
# The group since the last key frame

The cache of a listed stream holds all the frames since its last key frame, or
none of them.  Which of the two is decided by their size alone.  Frames that
came before the key frame, or that are codec configurations, are not in the
group.

A codec configuration does not start a new group.  One that is published after
the key frame is newer than the frames that the group starts with, and yet goes
ahead of them when a viewer joins.
-/

namespace LiveRelay

/-- Decoding can start with this frame, and it is not a configuration. -/
def PublishedFrame.isKeyFrame (frame : PublishedFrame) : Bool :=
  !frame.isHeader && (MediaFrame.classify frame.kind frame.payload).isKeyFrame

def totalSize : List PublishedFrame → Nat
  | [] => 0
  | frame :: frames => frame.payload.length + totalSize frames

theorem totalSize_append (first second : List PublishedFrame) :
    totalSize (first ++ second) = totalSize first + totalSize second := by
  induction first with
  | nil => simp [totalSize]
  | cons frame frames ih => simp [totalSize, ih, Nat.add_assoc]

theorem totalSize_le_of_mem {frames : List PublishedFrame} {frame : PublishedFrame}
    (hframe : frame ∈ frames) : frame.payload.length ≤ totalSize frames := by
  obtain ⟨before, after, rfl⟩ := List.append_of_mem hframe
  rw [totalSize_append, totalSize]
  omega

/-- A key frame has a first byte. -/
theorem PublishedFrame.payload_pos_of_isKeyFrame {frame : PublishedFrame}
    (hkey : frame.isKeyFrame = true) : 0 < frame.payload.length := by
  obtain ⟨sequence, kind, timestamp, payload⟩ := frame
  cases payload with
  | nil => cases kind <;> simp [isKeyFrame, MediaFrame.classify, MediaFrame.ofAudio,
      MediaFrame.ofVideo] at hkey
  | cons first rest => exact Nat.succ_pos _

/-! ## The latest frame of a sort -/

namespace Programme

def latest? (programme : Programme) (sort : PublishedFrame → Bool) :
    Option PublishedFrame :=
  (programme.frames.filter sort).getLast?

def keyFrame? (programme : Programme) : Option PublishedFrame :=
  programme.latest? PublishedFrame.isKeyFrame

/-- The frame that set the configuration of a codec. -/
def headerFrame? (programme : Programme) (kind : MediaKind) : Option PublishedFrame :=
  programme.latest? fun frame => frame.kind = kind ∧ frame.isHeader

/-- The frames from the last key frame on that are no codec configurations. -/
def sinceKeyFrame (programme : Programme) : List PublishedFrame :=
  match programme.keyFrame? with
  | none => []
  | some keyFrame => programme.media.filter fun frame => keyFrame.sequence ≤ frame.sequence

/-- What a relay's event adds to the programme of a publication. -/
def afterEvent (place : Nat) (programme : Programme) : RelayEvent → Programme
  | .moved (.frame publication kind timestamp payload) =>
      if publication = place then programme.addFrame kind timestamp payload else programme
  | _ => programme

def ofRun (place : Nat) (events : List RelayEvent) : Programme :=
  events.foldl (afterEvent place) (ofEvents [])

variable (programme : Programme) (kind : MediaKind) (timestamp : UInt32) (payload : Bytes)

/-- The frame that is published next. -/
def next : PublishedFrame := ⟨programme.frames.length + 1, kind, timestamp, payload⟩

theorem afterEvent_eq_self {place : Nat} {traffic : RelayTraffic}
    (hother : ∀ kind timestamp payload, traffic ≠ .frame place kind timestamp payload) :
    programme.afterEvent place (.moved traffic) = programme := by
  cases traffic with
  | frame publication kind timestamp payload =>
      exact if_neg fun hsame => hother kind timestamp payload (by rw [hsame])
  | _ => rfl

theorem mem_of_latest? {sort : PublishedFrame → Bool} {frame : PublishedFrame}
    (hlatest : programme.latest? sort = some frame) :
    frame ∈ programme.frames ∧ sort frame = true :=
  List.mem_filter.mp (List.mem_of_getLast? hlatest)

theorem latest?_addFrame (sort : PublishedFrame → Bool) :
    (programme.addFrame kind timestamp payload).latest? sort =
      if sort (programme.next kind timestamp payload) then
        some (programme.next kind timestamp payload)
      else programme.latest? sort := by
  have hframes : (programme.addFrame kind timestamp payload).frames =
      programme.frames ++ [programme.next kind timestamp payload] := rfl
  rw [latest?, hframes, List.filter_append]
  cases hsort : sort (programme.next kind timestamp payload) with
  | true => simp [hsort]
  | false => simp [hsort, latest?]

theorem headerFrame?_addFrame (other : MediaKind) :
    (programme.addFrame kind timestamp payload).headerFrame? other =
      if kind = other ∧ (MediaFrame.classify kind payload).isHeader = true then
        some (programme.next kind timestamp payload)
      else programme.headerFrame? other := by
  rw [headerFrame?, latest?_addFrame]
  by_cases hset : kind = other ∧ (MediaFrame.classify kind payload).isHeader = true
  · rw [if_pos hset]
    exact if_pos (decide_eq_true hset)
  · rw [if_neg hset]
    exact if_neg fun hsame => hset (of_decide_eq_true hsame)

theorem keyFrame_mem_sinceKeyFrame {keyFrame : PublishedFrame}
    (hkey : programme.keyFrame? = some keyFrame) : keyFrame ∈ programme.sinceKeyFrame := by
  obtain ⟨hmem, hsort⟩ := programme.mem_of_latest? hkey
  simp only [PublishedFrame.isKeyFrame, Bool.and_eq_true] at hsort
  simp only [sinceKeyFrame, hkey]
  exact List.mem_filter.mpr ⟨List.mem_filter.mpr ⟨hmem, hsort.1⟩, by simp⟩

theorem sequence_le_of_mem_sinceKeyFrame {keyFrame frame : PublishedFrame}
    (hkey : programme.keyFrame? = some keyFrame) (hframe : frame ∈ programme.sinceKeyFrame) :
    keyFrame.sequence ≤ frame.sequence := by
  simp only [sinceKeyFrame, hkey] at hframe
  simpa using (List.mem_filter.mp hframe).2

theorem sinceKeyFrame_sublist : programme.sinceKeyFrame.Sublist programme.frames := by
  unfold sinceKeyFrame
  split
  · exact List.nil_sublist _
  · exact List.filter_sublist.trans List.filter_sublist

/-! ### One more frame -/

variable {kind payload}

theorem sinceKeyFrame_addFrame_of_isHeader
    (hheader : (MediaFrame.classify kind payload).isHeader = true) :
    (programme.addFrame kind timestamp payload).keyFrame? = programme.keyFrame? ∧
      (programme.addFrame kind timestamp payload).sinceKeyFrame =
        programme.sinceKeyFrame := by
  have hkey : (programme.addFrame kind timestamp payload).keyFrame? = programme.keyFrame? := by
    rw [keyFrame?, latest?_addFrame, if_neg]
    · rfl
    · simp [PublishedFrame.isKeyFrame, PublishedFrame.isHeader, next, hheader]
  refine ⟨hkey, ?_⟩
  simp only [sinceKeyFrame, hkey, media_addFrame, hheader, if_true]

theorem sinceKeyFrame_addFrame_of_isKeyFrame
    (hheader : (MediaFrame.classify kind payload).isHeader = false)
    (hframe : (MediaFrame.classify kind payload).isKeyFrame = true) :
    (programme.addFrame kind timestamp payload).keyFrame? =
        some (programme.next kind timestamp payload) ∧
      (programme.addFrame kind timestamp payload).sinceKeyFrame =
        [programme.next kind timestamp payload] := by
  have hkey : (programme.addFrame kind timestamp payload).keyFrame? =
      some (programme.next kind timestamp payload) := by
    rw [keyFrame?, latest?_addFrame, if_pos]
    simp [PublishedFrame.isKeyFrame, PublishedFrame.isHeader, next, hheader, hframe]
  refine ⟨hkey, ?_⟩
  have holder : programme.media.filter (fun frame =>
      (programme.next kind timestamp payload).sequence ≤ frame.sequence) = [] := by
    rw [List.filter_eq_nil_iff]
    intro frame hold
    have hle := programme.sequence_le (List.mem_filter.mp hold).1
    have hlater : ¬ programme.frames.length + 1 ≤ frame.sequence := by omega
    exact fun hsame => hlater (of_decide_eq_true hsame)
  simp only [sinceKeyFrame, hkey, media_addFrame, hheader, Bool.false_eq_true, if_false,
    List.filter_append, holder, List.nil_append]
  simp [next]

theorem sinceKeyFrame_addFrame_of_not_isKeyFrame
    (hheader : (MediaFrame.classify kind payload).isHeader = false)
    (hframe : (MediaFrame.classify kind payload).isKeyFrame = false) :
    (programme.addFrame kind timestamp payload).keyFrame? = programme.keyFrame? ∧
      (programme.addFrame kind timestamp payload).sinceKeyFrame =
        if programme.keyFrame?.isSome then
          programme.sinceKeyFrame ++ [programme.next kind timestamp payload]
        else [] := by
  have hkey : (programme.addFrame kind timestamp payload).keyFrame? = programme.keyFrame? := by
    rw [keyFrame?, latest?_addFrame, if_neg]
    · rfl
    · simp [PublishedFrame.isKeyFrame, next, hframe]
  refine ⟨hkey, ?_⟩
  simp only [sinceKeyFrame, hkey, media_addFrame, hheader, Bool.false_eq_true, if_false]
  cases hlast : programme.keyFrame? with
  | none => rfl
  | some keyFrame =>
      have hle := programme.sequence_le (programme.mem_of_latest? hlast).1
      have hlater : keyFrame.sequence ≤ programme.frames.length + 1 := by omega
      simp [List.filter_append, next, hlater]

end Programme

/-! ## The cached group -/

namespace GroupCache

/-- The group holds the frames since the last key frame if they fit. -/
structure Spans (group : GroupCache) (limit : Nat) (programme : Programme) : Prop where
  maximumBytes : group.maximumBytes = limit
  sound : group.IsSound
  isOpen_iff : group.isOpen = true ↔
    programme.keyFrame? ≠ none ∧ totalSize programme.sinceKeyFrame ≤ limit
  published : group.isOpen = true →
    group.entries.map GroupEntry.published = programme.sinceKeyFrame
  bytes : group.bytes = totalSize (group.entries.map GroupEntry.published)

theorem spans_empty (limit : Nat) : Spans { maximumBytes := limit } limit {} :=
  ⟨rfl, ⟨fun _ => rfl, by simp⟩, by simp [Programme.keyFrame?, Programme.latest?], by simp,
    rfl⟩

variable {group : GroupCache} {limit : Nat} {programme : Programme} {kind : MediaKind}
  {timestamp : UInt32} {payload : Bytes}

theorem Spans.afterHeader (hspans : group.Spans limit programme) (timestamp : UInt32)
    (hheader : (MediaFrame.classify kind payload).isHeader = true) :
    group.Spans limit (programme.addFrame kind timestamp payload) := by
  obtain ⟨hkey, hsince⟩ :=
    programme.sinceKeyFrame_addFrame_of_isHeader timestamp hheader
  exact ⟨hspans.maximumBytes, hspans.sound, by rw [hkey, hsince, hspans.isOpen_iff],
    fun hopen => hsince ▸ hspans.published hopen, hspans.bytes⟩

/-! ### Key frames -/

theorem start_eq_ite (pool : BufferPool) (entry : GroupEntry) :
    (group.start pool entry).1 =
      if 0 < group.maximumBytes ∧ entry.buffer.size ≤ group.maximumBytes then
        ⟨group.maximumBytes, entry.buffer.size, [entry], true⟩
      else { maximumBytes := group.maximumBytes } := by
  unfold start clear isEnabled
  simp only [Bool.and_eq_true, decide_eq_true_eq]
  by_cases hfits : 0 < group.maximumBytes ∧ entry.buffer.size ≤ group.maximumBytes
  · rw [if_pos hfits, if_pos hfits]
  · rw [if_neg hfits, if_neg hfits]

theorem isKeyFrame_next (programme : Programme) (timestamp : UInt32)
    (hheader : (MediaFrame.classify kind payload).isHeader = false)
    (hframe : (MediaFrame.classify kind payload).isKeyFrame = true) :
    (programme.next kind timestamp payload).isKeyFrame = true := by
  simp [PublishedFrame.isKeyFrame, PublishedFrame.isHeader, Programme.next, hheader, hframe]

/-- A key frame opens a group of its own if it fits. -/
theorem Spans.afterStart (hspans : group.Spans limit programme)
    (hheader : (MediaFrame.classify kind payload).isHeader = false)
    (hframe : (MediaFrame.classify kind payload).isKeyFrame = true) {entry : GroupEntry}
    (hentry : entry.published = programme.next kind timestamp payload)
    (pool : BufferPool) :
    (group.start pool entry).1.Spans limit (programme.addFrame kind timestamp payload) := by
  obtain ⟨hkey, hsince⟩ :=
    programme.sinceKeyFrame_addFrame_of_isKeyFrame timestamp hheader hframe
  have hsize : totalSize [programme.next kind timestamp payload] = entry.buffer.size := by
    rw [← hentry]
    rfl
  have hpos : 0 < totalSize [programme.next kind timestamp payload] :=
    PublishedFrame.payload_pos_of_isKeyFrame
      (isKeyFrame_next programme timestamp hheader hframe)
  rw [start_eq_ite, hspans.maximumBytes, ← hsize]
  split
  · rename_i hfits
    exact ⟨rfl, ⟨by simp, by simp [isEnabled, hfits.1]⟩, by simp [hkey, hsince, hfits.2],
      by simp [hsince, hentry], by simp [hentry]⟩
  · rename_i hfits
    have hlarge : ¬ totalSize [programme.next kind timestamp payload] ≤ limit :=
      fun hle => hfits ⟨Nat.lt_of_lt_of_le hpos hle, hle⟩
    exact ⟨rfl, ⟨by simp, by simp⟩, by simp [hsince, hlarge], by simp, rfl⟩

/-- Without a cache there is no group for a key frame to open. -/
theorem Spans.afterDisabled (hspans : group.Spans limit programme)
    (hdisabled : group.isEnabled = false)
    (hheader : (MediaFrame.classify kind payload).isHeader = false)
    (hframe : (MediaFrame.classify kind payload).isKeyFrame = true) :
    group.Spans limit (programme.addFrame kind timestamp payload) := by
  obtain ⟨hkey, hsince⟩ :=
    programme.sinceKeyFrame_addFrame_of_isKeyFrame timestamp hheader hframe
  have hpos : 0 < totalSize [programme.next kind timestamp payload] :=
    PublishedFrame.payload_pos_of_isKeyFrame
      (isKeyFrame_next programme timestamp hheader hframe)
  have hclosed : group.isOpen = false := by
    cases hopen : group.isOpen with
    | false => rfl
    | true => simp [hspans.sound.isEnabled hopen] at hdisabled
  have hlarge : ¬ totalSize [programme.next kind timestamp payload] ≤ limit := by
    simp only [isEnabled, hspans.maximumBytes, decide_eq_false_iff_not] at hdisabled
    omega
  exact ⟨hspans.maximumBytes, hspans.sound, by simp [hclosed, hsince, hlarge],
    by simp [hclosed], hspans.bytes⟩

/-! ### Other frames -/

theorem push_eq_ite (pool : BufferPool) (entry : GroupEntry) :
    (group.push pool entry).2.1 =
      if group.isOpen = false then group
      else if group.maximumBytes < group.bytes + entry.buffer.size then
        { maximumBytes := group.maximumBytes }
      else
        { group with
          bytes := group.bytes + entry.buffer.size, entries := group.entries ++ [entry] } := by
  unfold push clear
  cases group.isOpen with
  | false => rfl
  | true =>
      simp only [Bool.not_true, Bool.false_eq_true, if_false, Bool.true_eq_false]
      split <;> rfl

/-- The frames after a key frame add up until they do not fit any more. -/
theorem Spans.afterPush (hspans : group.Spans limit programme)
    (hheader : (MediaFrame.classify kind payload).isHeader = false)
    (hframe : (MediaFrame.classify kind payload).isKeyFrame = false) {entry : GroupEntry}
    (hentry : entry.published = programme.next kind timestamp payload)
    (pool : BufferPool) :
    (group.push pool entry).2.1.Spans limit
      (programme.addFrame kind timestamp payload) := by
  obtain ⟨hkey, hsince⟩ :=
    programme.sinceKeyFrame_addFrame_of_not_isKeyFrame timestamp hheader hframe
  have hsize : totalSize [programme.next kind timestamp payload] = entry.buffer.size := by
    rw [← hentry]
    rfl
  have hgrown : totalSize (programme.sinceKeyFrame ++
      [programme.next kind timestamp payload]) =
        totalSize programme.sinceKeyFrame + entry.buffer.size := by
    rw [totalSize_append, hsize]
  rw [push_eq_ite, hspans.maximumBytes]
  cases hopen : group.isOpen with
  | false =>
      have hclosed : ¬ (programme.keyFrame? ≠ none ∧
          totalSize programme.sinceKeyFrame ≤ limit) := by
        rw [← hspans.isOpen_iff, hopen]
        exact Bool.false_ne_true
      refine ⟨hspans.maximumBytes, hspans.sound, ?_, by simp [hopen], hspans.bytes⟩
      simp only [if_true, hopen, Bool.false_eq_true, false_iff, hkey, hsince]
      rintro ⟨hsome, hfits⟩
      rw [if_pos (Option.isSome_iff_ne_none.mpr hsome), hgrown] at hfits
      exact hclosed ⟨hsome, Nat.le_trans (Nat.le_add_right _ _) hfits⟩
  | true =>
      obtain ⟨hsome, -⟩ := hspans.isOpen_iff.mp hopen
      have hpublished := hspans.published hopen
      rw [if_pos (Option.isSome_iff_ne_none.mpr hsome)] at hsince
      have hbytes : group.bytes + entry.buffer.size =
          totalSize (programme.addFrame kind timestamp payload).sinceKeyFrame := by
        rw [hsince, hgrown, hspans.bytes, hpublished]
      rw [if_neg (by simp), hbytes]
      split
      · rename_i hlarge
        exact ⟨rfl, ⟨by simp, by simp⟩, by simp [Nat.not_le_of_lt hlarge], by simp, rfl⟩
      · rename_i hfits
        have hentries : (group.entries ++ [entry]).map GroupEntry.published =
            (programme.addFrame kind timestamp payload).sinceKeyFrame := by
          rw [hsince, List.map_append, hpublished, List.map_singleton, hentry]
        have henabled : decide (0 < limit) = true :=
          hspans.maximumBytes ▸ hspans.sound.isEnabled hopen
        exact ⟨rfl, ⟨by simp, fun _ => henabled⟩,
          by simp [hkey, hsome, Nat.le_of_not_lt hfits], fun _ => hentries,
          congrArg totalSize hentries.symm⟩

/-- All the frames since the last key frame, or nothing. -/
theorem Spans.published_eq_ite (hspans : group.Spans limit programme) :
    group.entries.map GroupEntry.published =
      if totalSize programme.sinceKeyFrame ≤ limit then programme.sinceKeyFrame else [] := by
  cases hopen : group.isOpen with
  | true =>
      obtain ⟨-, hfits⟩ := hspans.isOpen_iff.mp hopen
      rw [if_pos hfits, hspans.published hopen]
  | false =>
      rw [hspans.sound.entries_eq_nil hopen, List.map_nil]
      split
      · rename_i hfits
        cases hkey : programme.keyFrame? with
        | none => simp only [Programme.sinceKeyFrame, hkey]
        | some keyFrame =>
            have hsome : programme.keyFrame? ≠ none := by simp [hkey]
            simp [hspans.isOpen_iff.mpr ⟨hsome, hfits⟩] at hopen
      · rfl

theorem Spans.bytes_le (hspans : group.Spans limit programme) : group.bytes ≤ limit := by
  rw [hspans.bytes, hspans.published_eq_ite]
  split
  · assumption
  · exact Nat.zero_le limit

theorem Spans.pairwise_entries (hspans : group.Spans limit programme) :
    group.entries.Pairwise fun first second => first.sequence < second.sequence := by
  have hsublist : (group.entries.map GroupEntry.published).Sublist programme.frames := by
    rw [hspans.published_eq_ite]
    split
    · exact programme.sinceKeyFrame_sublist
    · exact List.nil_sublist _
  have hpairwise := programme.pairwise_frames.sublist hsublist
  rw [List.pairwise_map] at hpairwise
  exact hpairwise

/-- The group is empty only for want of a cache, of a key frame or of room. -/
theorem Spans.entries_eq_nil_iff (hspans : group.Spans limit programme) :
    group.entries = [] ↔
      limit = 0 ∨ programme.keyFrame? = none ∨ limit < totalSize programme.sinceKeyFrame := by
  rw [← List.map_eq_nil_iff, hspans.published_eq_ite]
  cases hkey : programme.keyFrame? with
  | none => simp [Programme.sinceKeyFrame, hkey]
  | some keyFrame =>
      have hmem := programme.keyFrame_mem_sinceKeyFrame hkey
      have hpos := PublishedFrame.payload_pos_of_isKeyFrame (programme.mem_of_latest? hkey).2
      have hsize := totalSize_le_of_mem hmem
      split
      · rename_i hfits
        have hnonempty := List.ne_nil_of_mem hmem
        simp only [hnonempty, reduceCtorEq, false_or, false_iff]
        omega
      · simp
        omega

end GroupCache

/-! ## The whole cache -/

namespace MediaCache

/-- The cache holds the configurations that were set last, and the group. -/
structure Suits (cache : MediaCache) (limit : Nat) (programme : Programme) : Prop where
  videoHeader : cache.videoHeader.map RentedBuffer.content =
    (programme.headerFrame? .video).map PublishedFrame.payload
  audioHeader : cache.audioHeader.map RentedBuffer.content =
    (programme.headerFrame? .audio).map PublishedFrame.payload
  group : cache.group.Spans limit programme

theorem suits_empty (limit : Nat) :
    Suits { group := { maximumBytes := limit } } limit {} :=
  ⟨rfl, rfl, GroupCache.spans_empty limit⟩

variable {cache : MediaCache} {limit : Nat} {programme : Programme} {kind : MediaKind}
  {timestamp : UInt32} {payload : Bytes} {numbered : NumberedFrame}

theorem Suits.afterHeader (hsuits : cache.Suits limit programme)
    (hframe : numbered.frame = MediaFrame.classify kind payload)
    (hpublished : numbered.entry.published = programme.next kind timestamp payload)
    (hheader : (MediaFrame.classify kind payload).isHeader = true) :
    (cache.afterEntering numbered).Suits limit
      (programme.addFrame kind timestamp payload) := by
  have hkind : numbered.frame.kind = kind := by rw [hframe, MediaFrame.kind_classify]
  have hcontent : numbered.buffer.content = payload := congrArg (·.payload) hpublished
  have hgroup := hsuits.group.afterHeader timestamp hheader
  rw [afterEntering_of_isHeader cache (hframe ▸ hheader), hkind]
  cases kind with
  | audio =>
      refine ⟨?_, ?_, hgroup⟩
      · simpa [Programme.headerFrame?_addFrame] using hsuits.videoHeader
      · simp [Programme.headerFrame?_addFrame, hheader, hcontent, Programme.next]
  | video =>
      refine ⟨?_, ?_, hgroup⟩
      · simp [Programme.headerFrame?_addFrame, hheader, hcontent, Programme.next]
      · simpa [Programme.headerFrame?_addFrame] using hsuits.audioHeader

/-- What becomes of the group when a frame enters that is no configuration. -/
theorem afterEntering_eq_of_not_isHeader (hheader : numbered.frame.isHeader = false) :
    cache.afterEntering numbered =
      { cache with
        group :=
          if numbered.frame.isKeyFrame then
            if cache.group.isEnabled then (cache.group.start {} numbered.entry).1
            else cache.group
          else (cache.group.push {} numbered.entry).2.1 } := by
  unfold afterEntering enter
  simp only [hheader, Bool.false_eq_true, if_false]
  split
  · split
    · rw [GroupCache.start_eq cache.group _ {}]
      rfl
    · rfl
  · rw [GroupCache.push_eq cache.group _ {}]
    rfl

theorem Suits.afterMedia (hsuits : cache.Suits limit programme)
    (hframe : numbered.frame = MediaFrame.classify kind payload)
    (hpublished : numbered.entry.published = programme.next kind timestamp payload)
    (hheader : (MediaFrame.classify kind payload).isHeader = false) :
    (cache.afterEntering numbered).Suits limit
      (programme.addFrame kind timestamp payload) := by
  rw [afterEntering_eq_of_not_isHeader (hframe ▸ hheader), hframe]
  refine ⟨?_, ?_, ?_⟩
  · simpa [Programme.headerFrame?_addFrame, hheader] using hsuits.videoHeader
  · simpa [Programme.headerFrame?_addFrame, hheader] using hsuits.audioHeader
  · cases hkey : (MediaFrame.classify kind payload).isKeyFrame with
    | false => exact hsuits.group.afterPush hheader hkey hpublished {}
    | true =>
        cases henabled : cache.group.isEnabled with
        | false => exact hsuits.group.afterDisabled henabled hheader hkey
        | true => exact hsuits.group.afterStart hheader hkey hpublished {}

theorem Suits.afterEntering (hsuits : cache.Suits limit programme)
    (hframe : numbered.frame = MediaFrame.classify kind payload)
    (hpublished : numbered.entry.published = programme.next kind timestamp payload) :
    (cache.afterEntering numbered).Suits limit
      (programme.addFrame kind timestamp payload) := by
  cases hheader : (MediaFrame.classify kind payload).isHeader with
  | true => exact hsuits.afterHeader hframe hpublished hheader
  | false => exact hsuits.afterMedia hframe hpublished hheader

end MediaCache

/-! ## Listed streams -/

namespace Relay

/-- The publication is listed, and its stock is what its programme leads to. -/
structure Carries (place limit : Nat) (programme : Programme) (relay : Relay) : Prop where
  isCurrent : relay.register.IsCurrent place
  isClean : relay.pool.IsClean
  stock : ∃ cache, relay.stockAt place = some ⟨cache, programme.frames.length⟩ ∧
    cache.Suits limit programme

variable {relay started : Relay} {place limit : Nat} {programme : Programme}

theorem carries_startPublishing {request : PublishRequest} (hclean : relay.pool.IsClean)
    (hstart : relay.startPublishing request = .ok (place, started)) :
    Carries place relay.maximumGroupBytes {} started := by
  obtain ⟨hfree, hplace, hregister⟩ := relay.register_startPublishing hstart
  refine ⟨?_, ?_, ?_⟩
  · rw [hregister, Register.isCurrent_publish _ hfree]
    exact .inr hplace
  · have hcalled : (relay.call (.publish request)).2 = started := by
      simp only [Relay.call, hstart]
    exact hcalled ▸ isClean_call hclean (.publish request)
  · refine ⟨_, ?_, MediaCache.suits_empty relay.maximumGroupBytes⟩
    unfold startPublishing at hstart
    split at hstart
    · simp at hstart
    · simp only [Except.ok.injEq, Prod.mk.injEq] at hstart
      obtain ⟨rfl, rfl⟩ := hstart
      simp [stockAt, Publication.stock, MediaCache.media]

theorem Carries.afterSparing {after : Relay} (hcarries : Carries place limit programme relay)
    (hspares : Spares place relay after) (hcurrent : after.register.IsCurrent place) :
    Carries place limit programme after where
  isCurrent := hcurrent
  isClean := hspares.isClean hcarries.isClean
  stock := by
    rw [hspares.stockAt]
    exact hcarries.stock

theorem Carries.afterFrame (hcarries : Carries place limit programme relay)
    (kind : MediaKind) (timestamp : UInt32) (payload : Bytes) :
    Carries place limit (programme.addFrame kind timestamp payload)
      (relay.distribute place kind timestamp payload).2 := by
  obtain ⟨cache, hstock, hsuits⟩ := hcarries.stock
  obtain ⟨numbered, hframe, hpublished, hafter, hclean⟩ :=
    stockAt_distribute hcarries.isClean hstock kind timestamp payload
  refine ⟨?_, hclean, cache.afterEntering numbered, ?_,
    hsuits.afterEntering hframe hpublished⟩
  · rw [register_of_outline (relay.outline_distribute ..)]
    exact hcarries.isCurrent
  · rw [hafter]
    simp [Programme.addFrame]

theorem Carries.afterEvent (hcarries : Carries place limit programme relay)
    {event : RelayEvent} (hevent : event ≠ .called (.unpublish place)) :
    Carries place limit (programme.afterEvent place event) (relay.handle event) := by
  cases event with
  | called call =>
      have hcall : call ≠ .unpublish place := fun hsame => hevent (by rw [hsame])
      obtain ⟨record, hrecord, -⟩ := hcarries.isCurrent
      have hplace : place < relay.publications.length := by
        simpa [register] using (List.getElem?_eq_some_iff.mp hrecord).1
      exact hcarries.afterSparing (spares_call relay hplace hcall)
        (isCurrent_call hcarries.isCurrent hcall)
  | moved traffic =>
      by_cases hown : ∃ kind timestamp payload, traffic = .frame place kind timestamp payload
      · obtain ⟨kind, timestamp, payload, rfl⟩ := hown
        rw [Programme.afterEvent, if_pos rfl]
        exact hcarries.afterFrame kind timestamp payload
      · have hother : ∀ kind timestamp payload,
            traffic ≠ .frame place kind timestamp payload :=
          fun kind timestamp payload hsame => hown ⟨kind, timestamp, payload, hsame⟩
        rw [programme.afterEvent_eq_self hother]
        refine hcarries.afterSparing (spares_move relay hcarries.isCurrent hother) ?_
        show (relay.move traffic).register.IsCurrent place
        rw [register_move]
        exact hcarries.isCurrent

theorem Carries.afterRun (hcarries : Carries place limit programme relay)
    {events : List RelayEvent} (hlive : .called (.unpublish place) ∉ events) :
    Carries place limit (events.foldl (Programme.afterEvent place) programme)
      (relay.run events) := by
  induction events generalizing relay programme with
  | nil => exact hcarries
  | cons event events ih =>
      rw [List.mem_cons, not_or] at hlive
      exact ih (hcarries.afterEvent (Ne.symm hlive.1)) hlive.2

end Relay

end LiveRelay
