import LiveRelay.ChunkDecoder

/-!
# Feeding a chunk decoder

A connection hands over its bytes in pieces of any size.  Each piece goes
behind the bytes that wait, and the decoder takes what is complete.  Most
pieces complete nothing: as soon as the header of a chunk is there, the length
of the chunk is known, and nothing is found before that many bytes wait.  A
chunk that was refused stays refused.  So the feed looks at the waiting bytes
again only when there is something to find, and what it finds is what a
decoder finds that tries after every piece.
-/

namespace LiveRelay

namespace ChunkDecoder

/-- How many bytes a buffer that starts like this one has to have before its
first chunk is complete, as far as that can be told. -/
def needed (decoder : ChunkDecoder) (buffer : Bytes) : Nat :=
  match ChunkHeader.read decoder.lastHeader buffer with
  | .ok (some (chunkStream, change, rest)) =>
      match (decoder.afterHeader chunkStream change).pieceSize chunkStream change with
      | .ok size => buffer.length - rest.length + size
      | .error _ => 0
  | _ => 0

end ChunkDecoder

/-- A decoder and the bytes that wait for it. -/
structure ChunkFeed where
  decoder : ChunkDecoder := {}
  waiting : Collected := {}
  /-- Why the first chunk of the waiting bytes cannot be taken, if it is
  refused. -/
  refusal : Option ProtocolError := none
  /-- Nothing is found while fewer bytes wait. -/
  needed : Nat := 0

namespace ChunkFeed

/-- What a decoder has left waits for more. -/
def ofDrained (drained : ChunkDecoder.Drained) : ChunkFeed where
  decoder := drained.decoder
  waiting := .ofBytes drained.rest
  refusal := drained.error
  needed := drained.decoder.needed drained.rest

/-- What is found when a piece comes in. -/
def feed (feed : ChunkFeed) (piece : Bytes) : ChunkDecoder.Found × ChunkFeed :=
  let waiting := feed.waiting.append piece
  if feed.refusal.isSome ∨ waiting.size < feed.needed then
    (⟨[], feed.refusal⟩, { feed with waiting := waiting })
  else
    let drained := feed.decoder.drain waiting.bytes
    (drained.toFound, ofDrained drained)

/-- What is found piece by piece, put before what was found already, last
first. -/
def feedOnto (feed : ChunkFeed) (done : List ChunkDecoder.Found) :
    List Bytes → List ChunkDecoder.Found × ChunkFeed
  | [] => (done.reverse, feed)
  | piece :: pieces =>
      let (found, feed) := feed.feed piece
      feed.feedOnto (found :: done) pieces

def feedAll (feed : ChunkFeed) (pieces : List Bytes) :
    List ChunkDecoder.Found × ChunkFeed :=
  feed.feedOnto [] pieces

end ChunkFeed

/-! ## More bytes behind a buffer -/

theorem Bytes.split?_append_of_some {count : Nat} {bytes taken rest : Bytes}
    (hsplit : bytes.split? count = some (taken, rest)) (more : Bytes) :
    Bytes.split? count (bytes ++ more) = some (taken, rest ++ more) := by
  obtain ⟨rfl, hlength⟩ := Bytes.split?_eq_some_iff.mp hsplit
  exact Bytes.split?_eq_some_iff.mpr ⟨List.append_assoc taken rest more, hlength⟩

namespace ChunkHeader

theorem basic?_append {buffer rest : Bytes} {format : Nat} {chunkStream : UInt32}
    (hbasic : basic? buffer = some (format, chunkStream, rest)) (more : Bytes) :
    basic? (buffer ++ more) = some (format, chunkStream, rest ++ more) := by
  unfold basic? at hbasic
  repeat' split at hbasic
  all_goals simp_all [basic?]

theorem time?_append {short bytes rest : Bytes} {field : TimeField}
    (htime : time? short bytes = some (field, rest)) (more : Bytes) :
    time? short (bytes ++ more) = some (field, rest ++ more) := by
  simp only [time?] at htime ⊢
  split at htime
  · rename_i hlarge
    rw [if_pos hlarge]
    cases hsplit : bytes.split? 4 with
    | none => simp [hsplit] at htime
    | some pair =>
        rw [Bytes.split?_append_of_some hsplit more]
        simp only [hsplit, Option.map_some, Option.some.injEq, Prod.mk.injEq] at htime
        simp [htime.1, htime.2]
  · rename_i hsmall
    rw [if_neg hsmall]
    simp only [Option.some.injEq, Prod.mk.injEq] at htime
    simp [htime.1, htime.2]

theorem change?_append {format : Nat} {lastExtended : Bool} {bytes rest : Bytes}
    {change : HeaderChange}
    (hchange : change? format lastExtended bytes = some (change, rest)) (more : Bytes) :
    change? format lastExtended (bytes ++ more) = some (change, rest ++ more) := by
  unfold change? at hchange ⊢
  split at hchange
  all_goals
    simp only [bind, Option.bind_eq_some_iff, Prod.exists, pure,
      Option.some.injEq, Prod.mk.injEq] at hchange ⊢
  · obtain ⟨fields, middle, hsplit, time, last, htime, hchange, hrest⟩ := hchange
    exact ⟨fields, middle ++ more, Bytes.split?_append_of_some hsplit more, time,
      last ++ more, time?_append htime more, hchange, by rw [hrest]⟩
  · obtain ⟨fields, middle, hsplit, time, last, htime, hchange, hrest⟩ := hchange
    exact ⟨fields, middle ++ more, Bytes.split?_append_of_some hsplit more, time,
      last ++ more, time?_append htime more, hchange, by rw [hrest]⟩
  · obtain ⟨fields, middle, hsplit, time, last, htime, hchange, hrest⟩ := hchange
    exact ⟨fields, middle ++ more, Bytes.split?_append_of_some hsplit more, time,
      last ++ more, time?_append htime more, hchange, by rw [hrest]⟩
  · obtain ⟨fields, middle, hsplit, hchange, hrest⟩ := hchange
    exact ⟨fields, middle ++ more, Bytes.split?_append_of_some hsplit more, hchange,
      by rw [hrest]⟩

/-- A header that is there is the same whatever follows it. -/
theorem read_append {last : UInt32 → Option LastHeader} {buffer rest : Bytes}
    {chunkStream : UInt32} {change : HeaderChange}
    (hread : read last buffer = .ok (some (chunkStream, change, rest))) (more : Bytes) :
    read last (buffer ++ more) = .ok (some (chunkStream, change, rest ++ more)) := by
  unfold read at hread
  split at hread
  · simp at hread
  · rename_i hbasic
    split at hread
    · simp at hread
    · rename_i hknown
      simp only [Except.ok.injEq, Option.map_eq_some_iff, Prod.exists,
        Prod.mk.injEq] at hread
      obtain ⟨found, behind, hchange, hstream, hfound, hrest⟩ := hread
      simp only [read, basic?_append hbasic more]
      rw [if_neg hknown, change?_append hchange more]
      simp [hstream, hfound, hrest]

theorem read_append_error {last : UInt32 → Option LastHeader} {buffer : Bytes}
    {error : ProtocolError} (hread : read last buffer = .error error) (more : Bytes) :
    read last (buffer ++ more) = .error error := by
  unfold read at hread
  split at hread
  · simp at hread
  · rename_i hbasic
    split at hread
    · rename_i hmissing
      simp only [Except.error.injEq] at hread
      simp only [read, basic?_append hbasic more]
      rw [if_pos hmissing, hread]
    · simp at hread

end ChunkHeader

namespace ChunkDecoder

/-! ## A decoder that stands still -/

theorem stream_setStream (decoder : ChunkDecoder) (chunkStream other : UInt32)
    (chunks : InboundChunks) :
    (decoder.setStream chunkStream chunks).stream other =
      if chunkStream = other then chunks else decoder.stream other := by
  simp only [stream, setStream, Table.get?_put]
  split <;> rfl

theorem isEmpty_abort (decoder : ChunkDecoder) (chunkStream : UInt32) :
    ((decoder.abort chunkStream).stream chunkStream).collected.isEmpty = true := by
  unfold abort
  split
  · assumption
  · simp [stream_setStream, Collected.isEmpty]

theorem abort_of_isEmpty {decoder : ChunkDecoder} {chunkStream : UInt32}
    (hempty : (decoder.stream chunkStream).collected.isEmpty = true) :
    decoder.abort chunkStream = decoder :=
  if_pos hempty

theorem abort_abort (decoder : ChunkDecoder) (chunkStream : UInt32) :
    (decoder.abort chunkStream).abort chunkStream = decoder.abort chunkStream :=
  abort_of_isEmpty (isEmpty_abort decoder chunkStream)

theorem lastHeader_abort (decoder : ChunkDecoder) (chunkStream : UInt32) :
    (decoder.abort chunkStream).lastHeader = decoder.lastHeader := by
  funext other
  unfold lastHeader abort
  split
  · rfl
  · rw [stream_setStream]
    split
    · rename_i heq
      rw [heq]
    · rfl

theorem lastHeader_afterHeader (decoder : ChunkDecoder) (chunkStream : UInt32)
    (change : HeaderChange) :
    (decoder.afterHeader chunkStream change).lastHeader = decoder.lastHeader := by
  unfold afterHeader
  split
  · rfl
  · exact lastHeader_abort decoder chunkStream

theorem afterHeader_afterHeader (decoder : ChunkDecoder) (chunkStream : UInt32)
    (change : HeaderChange) :
    (decoder.afterHeader chunkStream change).afterHeader chunkStream change =
      decoder.afterHeader chunkStream change := by
  unfold afterHeader
  split
  · rfl
  · exact abort_abort decoder chunkStream

/-- The decoder can take nothing from the buffer, and looking at it changes
nothing. -/
inductive Stalled (decoder : ChunkDecoder) (buffer : Bytes) :
    Option ProtocolError → Prop
  | starved (htake : decoder.takeChunk buffer = (.starved, decoder)) :
      Stalled decoder buffer none
  | refused {error : ProtocolError}
      (htake : decoder.takeChunk buffer = (.refused error, decoder)) :
      Stalled decoder buffer (some error)

theorem takePiece_eq_starved {decoder next : ChunkDecoder} {chunkStream : UInt32}
    {change : HeaderChange} {rest : Bytes}
    (htake : decoder.takePiece chunkStream change rest = (.starved, next)) :
    next = decoder := by
  simp only [takePiece] at htake
  split at htake
  · simp at htake
  · split at htake
    · simp only [Prod.mk.injEq, true_and] at htake
      exact htake.symm
    · split at htake <;> simp at htake

theorem takePiece_eq_refused {decoder next : ChunkDecoder} {chunkStream : UInt32}
    {change : HeaderChange} {rest : Bytes} {error : ProtocolError}
    (htake : decoder.takePiece chunkStream change rest = (.refused error, next)) :
    decoder.pieceSize chunkStream change = .error error ∧ next = decoder := by
  simp only [takePiece] at htake
  split at htake
  · rename_i hsize
    simp only [Prod.mk.injEq, ChunkOutcome.refused.injEq] at htake
    exact ⟨by rw [hsize, htake.1], htake.2.symm⟩
  · split at htake
    · simp at htake
    · split at htake <;> simp at htake

theorem takePiece_of_short {decoder : ChunkDecoder} {chunkStream : UInt32}
    {change : HeaderChange} {rest : Bytes} {size : Nat}
    (hsize : decoder.pieceSize chunkStream change = .ok size)
    (hshort : rest.length < size) :
    decoder.takePiece chunkStream change rest = (.starved, decoder) := by
  have hsplit : rest.split? size = none := by
    rw [Bytes.split?_eq, if_neg (by omega)]
  simp only [takePiece, hsize, hsplit]

theorem takePiece_of_error {decoder : ChunkDecoder} {chunkStream : UInt32}
    {change : HeaderChange} {error : ProtocolError}
    (hsize : decoder.pieceSize chunkStream change = .error error) (rest : Bytes) :
    decoder.takePiece chunkStream change rest = (.refused error, decoder) := by
  simp only [takePiece, hsize]

theorem takeChunk_of_read {decoder : ChunkDecoder} {buffer rest : Bytes}
    {chunkStream : UInt32} {change : HeaderChange}
    (hread : ChunkHeader.read decoder.lastHeader buffer =
      .ok (some (chunkStream, change, rest))) :
    decoder.takeChunk buffer =
      (decoder.afterHeader chunkStream change).takePiece chunkStream change rest := by
  simp only [takeChunk, hread]

/-- A header that has been seen already changes nothing. -/
theorem takeChunk_afterHeader {decoder : ChunkDecoder} {buffer rest : Bytes}
    {chunkStream : UInt32} {change : HeaderChange}
    (hread : ChunkHeader.read decoder.lastHeader buffer =
      .ok (some (chunkStream, change, rest))) :
    (decoder.afterHeader chunkStream change).takeChunk buffer =
      decoder.takeChunk buffer := by
  have hagain := hread
  rw [← lastHeader_afterHeader decoder chunkStream change] at hagain
  rw [takeChunk_of_read hagain, takeChunk_of_read hread, afterHeader_afterHeader]

theorem takeChunk_of_starved {decoder next : ChunkDecoder} {buffer : Bytes}
    (htake : decoder.takeChunk buffer = (.starved, next)) :
    next.takeChunk buffer = (.starved, next) := by
  cases hread : ChunkHeader.read decoder.lastHeader buffer with
  | error error => simp [takeChunk, hread] at htake
  | ok found =>
      match found with
      | none =>
          have hnext : next = decoder := by
            simp only [takeChunk, hread, Prod.mk.injEq, true_and] at htake
            exact htake.symm
          rw [hnext] at htake ⊢
          exact htake
      | some (chunkStream, change, rest) =>
          have hnext := htake
          rw [takeChunk_of_read hread] at hnext
          rw [takePiece_eq_starved hnext, takeChunk_afterHeader hread, htake,
            takePiece_eq_starved hnext]

theorem takeChunk_of_refused {decoder next : ChunkDecoder} {buffer : Bytes}
    {error : ProtocolError}
    (htake : decoder.takeChunk buffer = (.refused error, next)) :
    next.takeChunk buffer = (.refused error, next) := by
  cases hread : ChunkHeader.read decoder.lastHeader buffer with
  | error other =>
      have hnext : next = decoder := by
        simp only [takeChunk, hread, Prod.mk.injEq] at htake
        exact htake.2.symm
      rw [hnext] at htake ⊢
      exact htake
  | ok found =>
      match found with
      | none => simp [takeChunk, hread] at htake
      | some (chunkStream, change, rest) =>
          have hnext := htake
          rw [takeChunk_of_read hread] at hnext
          have hsame := (takePiece_eq_refused hnext).2
          rw [hsame, takeChunk_afterHeader hread, htake, hsame]

/-- A drained buffer leaves a decoder that stands still. -/
theorem stalled_drainOnto (decoder : ChunkDecoder) (buffer : Bytes)
    (done : List DecodedMessage) :
    Stalled (decoder.drainOnto buffer done).decoder (decoder.drainOnto buffer done).rest
      (decoder.drainOnto buffer done).error := by
  fun_induction drainOnto decoder buffer done with
  | case1 _ _ _ _ _ _ _ ih => exact ih
  | case2 _ _ _ _ _ _ ih => exact ih
  | case3 _ _ _ _ htake => exact .starved (takeChunk_of_starved htake)
  | case4 _ _ _ _ _ htake => exact .refused (takeChunk_of_refused htake)

theorem drain_of_stalled {decoder : ChunkDecoder} {buffer : Bytes}
    {error : Option ProtocolError} (hstalled : Stalled decoder buffer error) :
    decoder.drain buffer = ⟨⟨[], error⟩, decoder, buffer⟩ := by
  unfold drain drainOnto
  cases hstalled with
  | starved htake => split <;> simp_all
  | refused htake => split <;> simp_all

/-- A refused chunk stays refused. -/
theorem stalled_append_of_refused {decoder : ChunkDecoder} {buffer : Bytes}
    {error : ProtocolError} (hstalled : Stalled decoder buffer (some error))
    (more : Bytes) :
    Stalled decoder (buffer ++ more) (some error) := by
  cases hstalled with
  | refused htake =>
      refine .refused ?_
      cases hread : ChunkHeader.read decoder.lastHeader buffer with
      | error other =>
          simp only [takeChunk, hread] at htake
          simp only [takeChunk, ChunkHeader.read_append_error hread more, htake]
      | ok found =>
          match found with
          | none => simp [takeChunk, hread] at htake
          | some (chunkStream, change, rest) =>
              rw [takeChunk_of_read hread] at htake
              have ⟨hsize, hsame⟩ := takePiece_eq_refused htake
              rw [takeChunk_of_read (ChunkHeader.read_append hread more),
                takePiece_of_error hsize, ← hsame]

/-- Nothing is found before the needed bytes are there, and how many are
needed does not change. -/
theorem stalled_append_of_short {decoder : ChunkDecoder} {buffer more : Bytes}
    (hstalled : Stalled decoder buffer none)
    (hshort : (buffer ++ more).length < decoder.needed buffer) :
    Stalled decoder (buffer ++ more) none ∧
      decoder.needed (buffer ++ more) = decoder.needed buffer := by
  cases hstalled with
  | starved htake =>
      cases hread : ChunkHeader.read decoder.lastHeader buffer with
      | error other => simp [needed, hread] at hshort
      | ok found =>
          match found with
          | none => simp [needed, hread] at hshort
          | some (chunkStream, change, rest) =>
              have hlonger := ChunkHeader.read_append hread more
              have hlength := ChunkHeader.length_read hread
              cases hsize : (decoder.afterHeader chunkStream change).pieceSize
                  chunkStream change with
              | error other => simp [needed, hread, hsize] at hshort
              | ok size =>
                  simp only [needed, hread, hlonger, hsize,
                    List.length_append] at hshort ⊢
                  refine ⟨.starved ?_, by omega⟩
                  rw [takeChunk_of_read hread] at htake
                  rw [takeChunk_of_read hlonger,
                    takePiece_of_short hsize (by rw [List.length_append]; omega),
                    ← takePiece_eq_starved htake]

end ChunkDecoder

/-! ## What a feed finds -/

namespace ChunkFeed

/-- The decoder stands still at the waiting bytes, and the feed knows why. -/
structure Settled (feed : ChunkFeed) : Prop where
  stalled : feed.decoder.Stalled feed.waiting.bytes feed.refusal
  needed_eq : feed.refusal = none →
    feed.needed = feed.decoder.needed feed.waiting.bytes

theorem settled_start (decoder : ChunkDecoder) :
    Settled { decoder := decoder } where
  stalled := .starved rfl
  needed_eq _ := rfl

theorem settled_ofDrained (decoder : ChunkDecoder) (buffer : Bytes) :
    Settled (ofDrained (decoder.drain buffer)) where
  stalled := by
    simpa [ofDrained, ChunkDecoder.drain] using decoder.stalled_drainOnto buffer []
  needed_eq _ := by simp [ofDrained]

/-- The decoder and the waiting bytes after a piece are those that a decoder
has left that looks at all waiting bytes, and so is what is found. -/
theorem feed_of_settled {feed : ChunkFeed} (hsettled : feed.Settled) (piece : Bytes) :
    let drained := feed.decoder.drain (feed.waiting.bytes ++ piece)
    (feed.feed piece).1 = drained.toFound ∧
      (feed.feed piece).2.decoder = drained.decoder ∧
      (feed.feed piece).2.waiting.bytes = drained.rest ∧
      (feed.feed piece).2.Settled := by
  intro drained
  unfold ChunkFeed.feed
  simp only
  split
  · rename_i hquiet
    have hafter : Settled { feed with waiting := feed.waiting.append piece } := by
      cases hrefusal : feed.refusal with
      | none =>
          simp only [hrefusal, Option.isSome_none, Bool.false_eq_true, false_or,
            ← Collected.length_bytes, Collected.bytes_append,
            hsettled.needed_eq hrefusal] at hquiet
          have hstalled := hsettled.stalled
          rw [hrefusal] at hstalled
          have ⟨hstill, hneeded⟩ :=
            ChunkDecoder.stalled_append_of_short hstalled hquiet
          exact ⟨by simpa [hrefusal] using hstill,
            fun _ => by simpa [hneeded] using hsettled.needed_eq hrefusal⟩
      | some error =>
          have hstalled := hsettled.stalled
          rw [hrefusal] at hstalled
          exact ⟨by simpa [hrefusal] using
              ChunkDecoder.stalled_append_of_refused hstalled piece,
            fun hnone => by simp at hnone⟩
    have hdrained : drained =
        ⟨⟨[], feed.refusal⟩, feed.decoder, feed.waiting.bytes ++ piece⟩ :=
      ChunkDecoder.drain_of_stalled (by simpa using hafter.stalled)
    simp [hdrained, hafter]
  · rw [Collected.bytes_append]
    exact ⟨rfl, rfl, by simp [ofDrained, drained], settled_ofDrained _ _⟩

theorem feedOnto_of_settled {feed : ChunkFeed} (hsettled : feed.Settled)
    (done : List ChunkDecoder.Found) (pieces : List Bytes) :
    (feed.feedOnto done pieces).1 =
      done.reverse ++
        (feed.decoder.drainPieces feed.waiting.bytes pieces).map (·.toFound) := by
  induction pieces generalizing feed done with
  | nil => simp [feedOnto, ChunkDecoder.drainPieces]
  | cons piece pieces ih =>
      obtain ⟨hfound, hdecoder, hwaiting, hafter⟩ := feed_of_settled hsettled piece
      simp only [feedOnto, ChunkDecoder.drainPieces, List.map_cons]
      rw [ih hafter, hfound, hdecoder, hwaiting]
      simp

/-- What a feed finds is what a decoder finds that looks at all waiting bytes
after every piece. -/
theorem feedAll_eq_drainPieces (decoder : ChunkDecoder) (pieces : List Bytes) :
    (feedAll { decoder := decoder } pieces).1 =
      (decoder.drainPieces [] pieces).map (·.toFound) :=
  feedOnto_of_settled (settled_start decoder) [] pieces

end ChunkFeed

end LiveRelay
