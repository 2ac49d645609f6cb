import LiveRelay.Proofs.ChunkRoundTrip

/-!
# Chunk streams do not mix

A chunk names its chunk stream in its first bytes, and the decoder reads and
changes only what it remembers of that chunk stream.  Decoders that remember
the same of it therefore take the same from the chunk, whatever else they
remember, and what they remember of another chunk stream stays.

So the chunks of one chunk stream can be taken out of a mixture: they are
accepted on their own, and they complete the messages that they complete in the
mixture.  Chunks that are accepted chunk stream by chunk stream are accepted in
any order that keeps the order of each chunk stream, and so are the chunks of
any messages, in whatever way an encoder's output is rearranged between the
chunks.
-/

namespace LiveRelay

namespace ChunkHeader

/-- The chunk stream that a chunk names, in any of the forms of its name. -/
def chunkStream? (buffer : Bytes) : Option UInt32 :=
  (basic? buffer).map fun (_, chunkStream, _) => chunkStream

/-- Only the last header of the chunk's own chunk stream is looked at. -/
theorem read_congr {last other : UInt32 → Option LastHeader} {buffer : Bytes}
    (hsame : ∀ chunkStream, chunkStream? buffer = some chunkStream →
      last chunkStream = other chunkStream) :
    read last buffer = read other buffer := by
  unfold read
  cases hbasic : basic? buffer with
  | none => rfl
  | some found =>
      obtain ⟨format, chunkStream, rest⟩ := found
      have hstream : chunkStream? buffer = some chunkStream := by
        simp [chunkStream?, hbasic]
      simp only [hsame chunkStream hstream]

theorem chunkStream?_of_read {last : UInt32 → Option LastHeader} {buffer rest : Bytes}
    {chunkStream : UInt32} {change : HeaderChange}
    (hread : read last buffer = .ok (some (chunkStream, change, rest))) :
    chunkStream? buffer = some chunkStream := by
  unfold read at hread
  split at hread
  · simp at hread
  · rename_i hbasic
    split at hread
    · simp at hread
    · simp only [Except.ok.injEq, Option.map_eq_some_iff, Prod.exists,
        Prod.mk.injEq] at hread
      obtain ⟨found, behind, hchange, hstream, hfound, hrest⟩ := hread
      simp [chunkStream?, hbasic, hstream]

end ChunkHeader

namespace ChunkDecoder

/-! ## One chunk -/

/-- Both have the same limits and remember the same of a chunk stream. -/
structure AgreesOn (chunkStream : UInt32) (decoder other : ChunkDecoder) : Prop where
  chunkSize_eq : other.chunkSize = decoder.chunkSize
  maximum_eq : other.maximum = decoder.maximum
  stream_eq : other.stream chunkStream = decoder.stream chunkStream

namespace AgreesOn

variable {chunkStream : UInt32} {decoder other : ChunkDecoder}

theorem refl (chunkStream : UInt32) (decoder : ChunkDecoder) :
    AgreesOn chunkStream decoder decoder :=
  ⟨rfl, rfl, rfl⟩

theorem symm (hagrees : AgreesOn chunkStream decoder other) :
    AgreesOn chunkStream other decoder :=
  ⟨hagrees.chunkSize_eq.symm, hagrees.maximum_eq.symm, hagrees.stream_eq.symm⟩

theorem trans {third : ChunkDecoder} (hfirst : AgreesOn chunkStream decoder other)
    (hsecond : AgreesOn chunkStream other third) : AgreesOn chunkStream decoder third :=
  ⟨hsecond.chunkSize_eq.trans hfirst.chunkSize_eq,
    hsecond.maximum_eq.trans hfirst.maximum_eq, hsecond.stream_eq.trans hfirst.stream_eq⟩

theorem setStream (hagrees : AgreesOn chunkStream decoder other) (chunks : InboundChunks) :
    AgreesOn chunkStream (decoder.setStream chunkStream chunks)
      (other.setStream chunkStream chunks) where
  chunkSize_eq := hagrees.chunkSize_eq
  maximum_eq := hagrees.maximum_eq
  stream_eq := by rw [stream_setStream, stream_setStream, if_pos rfl, if_pos rfl]

theorem setStream_of_ne {changed : UInt32} (hne : changed ≠ chunkStream)
    (decoder : ChunkDecoder) (chunks : InboundChunks) :
    AgreesOn chunkStream decoder (decoder.setStream changed chunks) where
  chunkSize_eq := rfl
  maximum_eq := rfl
  stream_eq := by rw [stream_setStream, if_neg hne]

theorem afterHeader (hagrees : AgreesOn chunkStream decoder other)
    (change : HeaderChange) :
    AgreesOn chunkStream (decoder.afterHeader chunkStream change)
      (other.afterHeader chunkStream change) := by
  unfold ChunkDecoder.afterHeader abort
  split
  · exact hagrees
  · rw [hagrees.stream_eq]
    split
    · exact hagrees
    · exact hagrees.setStream _

theorem afterHeader_of_ne {changed : UInt32} (hne : changed ≠ chunkStream)
    (decoder : ChunkDecoder) (change : HeaderChange) :
    AgreesOn chunkStream decoder (decoder.afterHeader changed change) := by
  unfold ChunkDecoder.afterHeader abort
  split
  · exact refl chunkStream decoder
  · split
    · exact refl chunkStream decoder
    · exact setStream_of_ne hne decoder _

theorem pieceSize_eq (hagrees : AgreesOn chunkStream decoder other)
    (change : HeaderChange) :
    other.pieceSize chunkStream change = decoder.pieceSize chunkStream change := by
  simp only [pieceSize, hagrees.chunkSize_eq, hagrees.maximum_eq, hagrees.stream_eq]

/-- The same comes of a header and what follows it, and both agree again. -/
theorem takePiece (hagrees : AgreesOn chunkStream decoder other) (change : HeaderChange)
    (rest : Bytes) :
    (other.takePiece chunkStream change rest).1 =
        (decoder.takePiece chunkStream change rest).1 ∧
      AgreesOn chunkStream (decoder.takePiece chunkStream change rest).2
        (other.takePiece chunkStream change rest).2 := by
  simp only [ChunkDecoder.takePiece, hagrees.pieceSize_eq, hagrees.stream_eq]
  split
  · exact ⟨rfl, hagrees⟩
  · split
    · exact ⟨rfl, hagrees⟩
    · split
      · exact ⟨rfl, hagrees.setStream _⟩
      · exact ⟨rfl, hagrees.setStream _⟩

theorem takePiece_of_ne {changed : UInt32} (hne : changed ≠ chunkStream)
    (decoder : ChunkDecoder) (change : HeaderChange) (rest : Bytes) :
    AgreesOn chunkStream decoder (decoder.takePiece changed change rest).2 := by
  simp only [ChunkDecoder.takePiece]
  split
  · exact refl chunkStream decoder
  · split
    · exact refl chunkStream decoder
    · split
      · exact setStream_of_ne hne decoder _
      · exact setStream_of_ne hne decoder _

theorem read_eq (hagrees : AgreesOn chunkStream decoder other) {buffer : Bytes}
    (hstream : ChunkHeader.chunkStream? buffer = some chunkStream) :
    ChunkHeader.read other.lastHeader buffer =
      ChunkHeader.read decoder.lastHeader buffer := by
  apply ChunkHeader.read_congr
  intro named hnamed
  obtain rfl : chunkStream = named := Option.some.inj (hstream.symm.trans hnamed)
  exact congrArg InboundChunks.header hagrees.stream_eq

/-- Locality: what comes of a chunk depends on nothing but its own chunk
stream. -/
theorem takeChunk (hagrees : AgreesOn chunkStream decoder other) {buffer : Bytes}
    (hstream : ChunkHeader.chunkStream? buffer = some chunkStream) :
    (other.takeChunk buffer).1 = (decoder.takeChunk buffer).1 ∧
      AgreesOn chunkStream (decoder.takeChunk buffer).2 (other.takeChunk buffer).2 := by
  simp only [ChunkDecoder.takeChunk, hagrees.read_eq hstream]
  split
  · exact ⟨rfl, hagrees⟩
  · exact ⟨rfl, hagrees⟩
  · rename_i named change rest hread
    obtain rfl : chunkStream = named :=
      Option.some.inj (hstream.symm.trans (ChunkHeader.chunkStream?_of_read hread))
    exact (hagrees.afterHeader change).takePiece change rest

/-- Frame: a chunk changes nothing of another chunk stream. -/
theorem takeChunk_of_ne {buffer : Bytes} (decoder : ChunkDecoder)
    (hstream : ChunkHeader.chunkStream? buffer ≠ some chunkStream) :
    AgreesOn chunkStream decoder (decoder.takeChunk buffer).2 := by
  unfold ChunkDecoder.takeChunk
  split
  · exact refl chunkStream decoder
  · exact refl chunkStream decoder
  · rename_i named change rest hread
    have hne : named ≠ chunkStream := by
      rintro rfl
      exact hstream (ChunkHeader.chunkStream?_of_read hread)
    exact (afterHeader_of_ne hne decoder change).trans (takePiece_of_ne hne _ change rest)

end AgreesOn

/-- A message is on the chunk stream that its last chunk names. -/
theorem chunkStream?_of_taken {decoder next : ChunkDecoder} {buffer rest : Bytes}
    {message : Option WireMessage}
    (htake : decoder.takeChunk buffer = (.taken message rest, next)) :
    ∃ chunkStream, ChunkHeader.chunkStream? buffer = some chunkStream ∧
      ∀ found, message = some found → found.chunkStream = chunkStream := by
  unfold takeChunk at htake
  split at htake
  · simp at htake
  · simp at htake
  · rename_i chunkStream change behind hread
    refine ⟨chunkStream, ChunkHeader.chunkStream?_of_read hread, ?_⟩
    simp only [takePiece] at htake
    split at htake
    · simp at htake
    · split at htake
      · simp at htake
      · split at htake
        · simp only [Prod.mk.injEq, ChunkOutcome.taken.injEq] at htake
          rintro found rfl
          rw [← Option.some.inj htake.1.1]
        · simp only [Prod.mk.injEq, ChunkOutcome.taken.injEq] at htake
          rintro found rfl
          cases htake.1.1

/-! ## Chunks in a row -/

/-- Each byte string is one whole chunk when its turn comes, and the chunks
complete these messages. -/
inductive Takes : ChunkDecoder → List Bytes → List WireMessage → ChunkDecoder → Prop
  | nil {decoder : ChunkDecoder} : Takes decoder [] [] decoder
  | cons {decoder next last : ChunkDecoder} {chunk : Bytes} {chunks : List Bytes}
      {message : Option WireMessage} {messages : List WireMessage}
      (htake : decoder.takeChunk chunk = (.taken message [], next))
      (hothers : Takes next chunks messages last) :
      Takes decoder (chunk :: chunks) (message.toList ++ messages) last

/-- The decoder takes the chunks in a row without an error. -/
def Accepts (decoder : ChunkDecoder) (chunks : List Bytes) : Prop :=
  ∃ messages last, Takes decoder chunks messages last

/-- The chunks that name a chunk stream, in their order. -/
def chunksOn (chunkStream : UInt32) (chunks : List Bytes) : List Bytes :=
  chunks.filter fun chunk => ChunkHeader.chunkStream? chunk = some chunkStream

/-- The messages on a chunk stream, in their order. -/
def messagesOn (chunkStream : UInt32) (messages : List WireMessage) :
    List WireMessage :=
  messages.filter fun message => message.chunkStream = chunkStream

theorem chunksOn_cons (chunkStream : UInt32) (chunk : Bytes) (chunks : List Bytes) :
    chunksOn chunkStream (chunk :: chunks) =
      if ChunkHeader.chunkStream? chunk = some chunkStream then
        chunk :: chunksOn chunkStream chunks
      else chunksOn chunkStream chunks := by
  simp [chunksOn, List.filter_cons]

theorem messagesOn_append (chunkStream : UInt32) (first second : List WireMessage) :
    messagesOn chunkStream (first ++ second) =
      messagesOn chunkStream first ++ messagesOn chunkStream second :=
  List.filter_append ..

namespace Takes

variable {decoder last : ChunkDecoder} {chunks : List Bytes}
  {messages : List WireMessage}

theorem append {other : ChunkDecoder} {others : List Bytes} {behind : List WireMessage}
    (hfirst : Takes decoder chunks messages last)
    (hsecond : Takes last others behind other) :
    Takes decoder (chunks ++ others) (messages ++ behind) other := by
  induction hfirst with
  | nil => exact hsecond
  | cons htake _ ih =>
      rw [List.append_assoc]
      exact .cons htake (ih hsecond)

/-- The chunks in a row hold these messages and nothing else. -/
theorem holds_drain (htakes : Takes decoder chunks messages last) :
    (decoder.drain chunks.flatten).Holds messages := by
  suffices honto : ∀ done, (decoder.drainOnto chunks.flatten done).Holds
      ((done.reverse.map DecodedMessage.message) ++ messages) from honto []
  induction htakes with
  | nil =>
      intro done
      rw [List.flatten_nil, drainOnto_of_starved rfl, List.append_nil]
      exact ⟨rfl, rfl, rfl⟩
  | @cons decoder next last chunk chunks message messages htake _ ih =>
      intro done
      have hlonger := takeChunk_append_of_taken htake chunks.flatten
      rw [List.nil_append] at hlonger
      rw [List.flatten_cons]
      cases message with
      | none =>
          rw [drainOnto_of_none hlonger]
          exact ih done
      | some message =>
          rw [drainOnto_of_some hlonger]
          have hothers := ih (⟨message, chunks.flatten⟩ :: done)
          simp only [List.reverse_cons, List.map_append, List.append_assoc] at hothers
          exact hothers

/-- Chunks complete the same messages whenever they are taken. -/
theorem messages_eq {other : List WireMessage} {otherLast : ChunkDecoder}
    (hfirst : Takes decoder chunks messages last)
    (hsecond : Takes decoder chunks other otherLast) : messages = other :=
  hfirst.holds_drain.messages_eq.symm.trans hsecond.holds_drain.messages_eq

theorem of_completes {message : WireMessage}
    (hcompletes : Completes message decoder chunks last) :
    Takes decoder chunks [message] last := by
  induction hcompletes with
  | last htake => exact .cons htake .nil
  | more htake _ ih => exact .cons htake ih

end Takes

/-! ## One chunk stream out of many -/

/-- The chunks of one chunk stream complete on their own what they complete among
the others, also in a decoder that agrees on nothing but this chunk stream. -/
theorem Takes.chunksOn {decoder other last : ChunkDecoder} {chunks : List Bytes}
    {messages : List WireMessage} {chunkStream : UInt32}
    (htakes : Takes decoder chunks messages last)
    (hagrees : AgreesOn chunkStream decoder other) :
    ∃ otherLast,
      Takes other (chunksOn chunkStream chunks) (messagesOn chunkStream messages)
          otherLast ∧
        AgreesOn chunkStream last otherLast := by
  induction htakes generalizing other with
  | nil => exact ⟨other, .nil, hagrees⟩
  | @cons decoder next last chunk chunks message messages htake _ ih =>
      obtain ⟨named, hnamed, hmessage⟩ := chunkStream?_of_taken htake
      rw [chunksOn_cons, messagesOn_append, hnamed]
      by_cases hsame : named = chunkStream
      · subst hsame
        obtain ⟨houtcome, hnext⟩ := hagrees.takeChunk hnamed
        rcases hother : other.takeChunk chunk with ⟨outcome, otherNext⟩
        rw [htake, hother] at houtcome hnext
        obtain rfl : outcome = .taken message [] := houtcome
        obtain ⟨otherLast, hothers, hlast⟩ := ih hnext
        have hkept : messagesOn named message.toList = message.toList := by
          apply List.filter_eq_self.mpr
          intro found hfound
          exact decide_eq_true (hmessage found (Option.mem_toList.mp hfound))
        rw [if_pos rfl, hkept]
        exact ⟨otherLast, .cons hother hothers, hlast⟩
      · have hne : ChunkHeader.chunkStream? chunk ≠ some chunkStream := by
          rw [hnamed]
          exact fun heq => hsame (Option.some.inj heq)
        have hframe := AgreesOn.takeChunk_of_ne decoder hne
        rw [htake] at hframe
        have hnone : messagesOn chunkStream message.toList = [] := by
          apply List.filter_eq_nil_iff.mpr
          intro found hfound heq
          exact hsame ((hmessage found (Option.mem_toList.mp hfound)).symm.trans
            (of_decide_eq_true heq))
        rw [if_neg fun heq => hsame (Option.some.inj heq), hnone]
        exact ih (hframe.symm.trans hagrees)

/-- Chunks of one chunk stream are accepted wherever this chunk stream is the
same. -/
theorem Accepts.chunksOn {decoder other : ChunkDecoder} {chunks : List Bytes}
    {chunkStream : UInt32}
    (haccepts : decoder.Accepts (chunksOn chunkStream chunks))
    (hagrees : AgreesOn chunkStream decoder other) :
    other.Accepts (chunksOn chunkStream chunks) := by
  obtain ⟨messages, last, htakes⟩ := haccepts
  obtain ⟨otherLast, hother, -⟩ := htakes.chunksOn hagrees
  have hsame : ChunkDecoder.chunksOn chunkStream (ChunkDecoder.chunksOn chunkStream chunks) =
      ChunkDecoder.chunksOn chunkStream chunks := by
    simp [ChunkDecoder.chunksOn]
  rw [hsame] at hother
  exact ⟨_, otherLast, hother⟩

/-- Chunks are accepted together if those of each chunk stream are accepted on
their own. -/
theorem accepts_of_chunksOn {decoder : ChunkDecoder} {chunks : List Bytes}
    (hnamed : ∀ chunk ∈ chunks, (ChunkHeader.chunkStream? chunk).isSome)
    (hon : ∀ chunkStream, decoder.Accepts (chunksOn chunkStream chunks)) :
    decoder.Accepts chunks := by
  induction chunks generalizing decoder with
  | nil => exact ⟨[], decoder, .nil⟩
  | cons chunk chunks ih =>
      obtain ⟨named, hchunk⟩ := Option.isSome_iff_exists.mp (hnamed chunk List.mem_cons_self)
      have hown := hon named
      rw [chunksOn_cons, if_pos hchunk] at hown
      obtain ⟨_, last, htakes⟩ := hown
      cases htakes with
      | @cons _ next _ _ _ message messages htake hothers =>
          have hrest : next.Accepts chunks := by
            apply ih (fun other hother => hnamed other (List.mem_cons_of_mem _ hother))
            intro chunkStream
            by_cases hsame : named = chunkStream
            · subst hsame
              exact ⟨messages, last, hothers⟩
            · have hne : ChunkHeader.chunkStream? chunk ≠ some chunkStream := by
                rw [hchunk]
                exact fun heq => hsame (Option.some.inj heq)
              have hframe := AgreesOn.takeChunk_of_ne decoder hne
              rw [htake] at hframe
              have hother := hon chunkStream
              rw [chunksOn_cons, if_neg hne] at hother
              exact hother.chunksOn hframe
          obtain ⟨behind, last, hbehind⟩ := hrest
          exact ⟨_, last, .cons htake hbehind⟩

theorem Accepts.isSome {decoder : ChunkDecoder} {chunks : List Bytes}
    (haccepts : decoder.Accepts chunks) :
    ∀ chunk ∈ chunks, (ChunkHeader.chunkStream? chunk).isSome := by
  obtain ⟨messages, last, htakes⟩ := haccepts
  induction htakes with
  | nil => simp
  | cons htake _ ih =>
      obtain ⟨named, hnamed, -⟩ := chunkStream?_of_taken htake
      intro chunk hchunk
      rcases List.mem_cons.mp hchunk with rfl | hchunk
      · rw [hnamed]
        rfl
      · exact ih chunk hchunk

/-! ## Chunks in another order -/

/-- The same chunks, those of each chunk stream in the same order. -/
structure Rearranges (chunks pieces : List Bytes) : Prop where
  perm : chunks.Perm pieces
  chunksOn_eq : ∀ chunkStream, chunksOn chunkStream chunks = chunksOn chunkStream pieces

/-- In any order that keeps that of each chunk stream, chunks are accepted and
complete the same messages on each chunk stream. -/
theorem Takes.rearranged {decoder last : ChunkDecoder} {chunks pieces : List Bytes}
    {messages : List WireMessage} (htakes : Takes decoder pieces messages last)
    (hrearranges : Rearranges chunks pieces) :
    ∃ others otherLast,
      Takes decoder chunks others otherLast ∧
        ∀ chunkStream, messagesOn chunkStream others = messagesOn chunkStream messages := by
  have hpieces : decoder.Accepts pieces := ⟨messages, last, htakes⟩
  have haccepts : decoder.Accepts chunks := by
    apply accepts_of_chunksOn
    · intro chunk hchunk
      exact hpieces.isSome chunk (hrearranges.perm.mem_iff.mp hchunk)
    · intro chunkStream
      obtain ⟨otherLast, hon, -⟩ := htakes.chunksOn (.refl chunkStream decoder)
      rw [hrearranges.chunksOn_eq]
      exact ⟨_, otherLast, hon⟩
  obtain ⟨others, otherLast, hothers⟩ := haccepts
  refine ⟨others, otherLast, hothers, fun chunkStream => ?_⟩
  obtain ⟨_, hfirst, -⟩ := hothers.chunksOn (.refl chunkStream decoder)
  obtain ⟨_, hsecond, -⟩ := htakes.chunksOn (.refl chunkStream decoder)
  rw [hrearranges.chunksOn_eq] at hfirst
  exact hfirst.messages_eq hsecond

end ChunkDecoder

/-! ## The chunks of an encoder -/

/-- The chunks of messages that follow each other. -/
def ChunkEncoder.chunksOfAll (encoder : ChunkEncoder) : List WireMessage → List Bytes
  | [] => []
  | message :: messages =>
      encoder.chunksOf message ++ (encoder.encode message).2.chunksOfAll messages

/-- An encoder writes the chunks one behind the other. -/
theorem ChunkEncoder.flatten_chunksOfAll (encoder : ChunkEncoder)
    (messages : List WireMessage) :
    (encoder.chunksOfAll messages).flatten = (encoder.encodeAll messages).1.flatten := by
  induction messages generalizing encoder with
  | nil => rfl
  | cons message messages ih =>
      have hencode := congrArg Prod.fst (encoder.encode_eq message)
      simp only [chunksOfAll, encodeAll, List.flatten_append, List.flatten_cons, ih]
      rw [hencode]

/-- Ends in step take the chunks of messages in the order in which they are
written. -/
theorem InStep.takes_chunksOfAll {encoder : ChunkEncoder} {decoder : ChunkDecoder}
    (hstep : InStep encoder decoder) (hpos : 0 < encoder.chunkSize.toNat)
    {messages : List WireMessage}
    (hsendable : ∀ message ∈ messages, message.IsSendable)
    (hmaximum : ∀ message ∈ messages, message.payload.length ≤ decoder.maximum.toNat) :
    ∃ last, ChunkDecoder.Takes decoder (encoder.chunksOfAll messages) messages last := by
  induction messages generalizing encoder decoder with
  | nil => exact ⟨decoder, .nil⟩
  | cons message messages ih =>
      obtain ⟨next, hcompletes, hnext, hkept⟩ :=
        hstep.completes_chunksOf (hsendable message List.mem_cons_self) hpos
          (hmaximum message List.mem_cons_self)
      obtain ⟨last, hothers⟩ := ih hnext hpos
        (fun other hother => hsendable other (List.mem_cons_of_mem _ hother))
        (fun other hother => by
          rw [hkept]
          exact hmaximum other (List.mem_cons_of_mem _ hother))
      exact ⟨last, (ChunkDecoder.Takes.of_completes hcompletes).append hothers⟩

/-! ## Independence -/

/-- The chunks of each chunk stream hold on their own exactly the messages that
they hold among all chunks that a decoder accepts.  Messages that an encoder in
step with the decoder has cut into chunks arrive whole and in the order of their
chunk streams, however the chunks of different chunk streams are mixed. -/
theorem drain_chunksOn (decoder : ChunkDecoder) :
    (∀ chunks, decoder.Accepts chunks →
      let whole := decoder.drain chunks.flatten
      whole.error = none ∧ whole.rest = [] ∧
        ∀ chunkStream,
          (decoder.drain (ChunkDecoder.chunksOn chunkStream chunks).flatten).Holds
            (ChunkDecoder.messagesOn chunkStream whole.messages)) ∧
      ∀ encoder messages chunks,
        InStep encoder decoder → 0 < encoder.chunkSize.toNat →
        (∀ message ∈ messages,
          message.IsSendable ∧ message.payload.length ≤ decoder.maximum.toNat) →
        ChunkDecoder.Rearranges chunks (encoder.chunksOfAll messages) →
        let whole := decoder.drain chunks.flatten
        whole.error = none ∧ whole.rest = [] ∧
          ∀ chunkStream,
            ChunkDecoder.messagesOn chunkStream whole.messages =
              ChunkDecoder.messagesOn chunkStream messages := by
  refine ⟨?_, ?_⟩
  · rintro chunks ⟨messages, last, htakes⟩ whole
    have hwhole : whole.Holds messages := htakes.holds_drain
    refine ⟨hwhole.error_eq, hwhole.rest_eq, fun chunkStream => ?_⟩
    obtain ⟨otherLast, hon, -⟩ := htakes.chunksOn (.refl chunkStream decoder)
    rw [hwhole.messages_eq]
    exact hon.holds_drain
  · intro encoder messages chunks hstep hpos hmessages hrearranges whole
    obtain ⟨last, htakes⟩ := hstep.takes_chunksOfAll hpos
      (fun message hmessage => (hmessages message hmessage).1)
      (fun message hmessage => (hmessages message hmessage).2)
    obtain ⟨others, otherLast, hothers, hsame⟩ := htakes.rearranged hrearranges
    have hwhole : whole.Holds others := hothers.holds_drain
    refine ⟨hwhole.error_eq, hwhole.rest_eq, fun chunkStream => ?_⟩
    rw [hwhole.messages_eq]
    exact hsame chunkStream

/-- Two messages of two chunks each, chunk by chunk in turn.  The second one has a
chunk stream with a name of two bytes and a time that needs the extension. -/
theorem drain_chunksOn_of_two :
    let decoder : ChunkDecoder := { chunkSize := 2, maximum := 3 }
    let first : WireMessage := ⟨3, 5, 8, 1, [1, 2, 3]⟩
    let second : WireMessage := ⟨70, 0xFFFFFF, 9, 1, [4, 5, 6]⟩
    let chunks : List Bytes :=
      [[3, 0, 0, 5, 0, 0, 3, 8, 1, 0, 0, 0, 1, 2],
        [0, 6, 255, 255, 255, 0, 0, 3, 9, 1, 0, 0, 0, 0, 255, 255, 255, 4, 5],
        [195, 3], [192, 6, 0, 255, 255, 255, 6]]
    let whole := decoder.drain chunks.flatten
    whole.error = none ∧
      (∀ chunkStream,
        ChunkDecoder.messagesOn chunkStream whole.messages =
          ChunkDecoder.messagesOn chunkStream [first, second]) ∧
      (decoder.drain (ChunkDecoder.chunksOn 70 chunks).flatten).Holds
        (ChunkDecoder.messagesOn 70 whole.messages) := by
  intro decoder first second chunks whole
  have hstep : InStep { chunkSize := 2 } decoder := .start 2 3
  have hmessages : ∀ message ∈ [first, second],
      message.IsSendable ∧ message.payload.length ≤ decoder.maximum.toNat := by
    intro message hmessage
    simp only [List.mem_cons, List.not_mem_nil, or_false] at hmessage
    rcases hmessage with rfl | rfl <;> exact ⟨⟨by decide, by decide⟩, by decide⟩
  have hcut : ∀ low middle high : UInt8,
      ChunkEncoder.pieces 2 [low, middle, high] = [[low, middle], [high]] := by
    intro low middle high
    rw [ChunkEncoder.pieces_of_lt (by decide) (by decide : 2 < 3),
      ChunkEncoder.pieces_of_le (by decide) (by decide : 1 ≤ 2)]
    rfl
  have hwritten : ({ chunkSize := 2 } : ChunkEncoder).chunksOfAll [first, second] =
      [[3, 0, 0, 5, 0, 0, 3, 8, 1, 0, 0, 0, 1, 2], [195, 3],
        [0, 6, 255, 255, 255, 0, 0, 3, 9, 1, 0, 0, 0, 0, 255, 255, 255, 4, 5],
        [192, 6, 0, 255, 255, 255, 6]] := by
    show ChunkEncoder.writeChunks _ _ _ (ChunkEncoder.pieces 2 [1, 2, 3]) ++
      (ChunkEncoder.writeChunks _ _ _ (ChunkEncoder.pieces 2 [4, 5, 6]) ++ []) = _
    rw [hcut, hcut]
    decide
  have hrearranges : ChunkDecoder.Rearranges chunks
      (({ chunkSize := 2 } : ChunkEncoder).chunksOfAll [first, second]) := by
    rw [hwritten]
    refine ⟨by decide, fun chunkStream => ?_⟩
    by_cases hfirst : chunkStream = 3
    · subst hfirst
      decide
    · have hnot : ChunkHeader.chunkStream? [195, 3] ≠ some chunkStream :=
        fun heq => hfirst (Option.some.inj heq).symm
      simp only [chunks, ChunkDecoder.chunksOn_cons, if_neg hnot]
  obtain ⟨herror, -, hmixed⟩ := (drain_chunksOn decoder).2 _ [first, second] chunks hstep
    (by decide) hmessages hrearranges
  have haccepts : decoder.Accepts chunks := by
    obtain ⟨last, htakes⟩ := hstep.takes_chunksOfAll (by decide)
      (fun message hmessage => (hmessages message hmessage).1)
      (fun message hmessage => (hmessages message hmessage).2)
    obtain ⟨others, otherLast, hothers, -⟩ := htakes.rearranged hrearranges
    exact ⟨others, otherLast, hothers⟩
  exact ⟨herror, hmixed, ((drain_chunksOn decoder).1 chunks haccepts).2.2 70⟩

end LiveRelay
