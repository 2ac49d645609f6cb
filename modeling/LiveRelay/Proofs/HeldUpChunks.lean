import LiveRelay.Proofs.ChunkResynchronisation
import LiveRelay.Proofs.InboundPieces

/-!
# Chunks that are not taken

The chunk at the front of a buffer may be incomplete, or refused because its
chunk stream has had no full header or because its message would be too long.
Its bytes stay where they are, and the decoder stays what it was but for one
thing: a header that is there and starts a message gives up the unfinished
message of its chunk stream, even if the rest of the chunk is not taken.

Nothing is seen of that as long as these bytes stay in front, since their header
gives the message up again.  From other bytes a decoder that has not looked at
the chunk takes something else only if they continue the message that was given
up, before another one starts on that chunk stream.
-/

namespace LiveRelay

namespace ChunkDecoder

def ChunkOutcome.isTaken : ChunkOutcome → Bool
  | .taken _ _ => true
  | .starved => false
  | .refused _ => false

/-! ## What is given up -/

/-- The chunk stream whose unfinished message is given up by the header at the
front of a buffer. -/
def givenUp? (decoder : ChunkDecoder) (buffer : Bytes) : Option UInt32 :=
  match ChunkHeader.read decoder.lastHeader buffer with
  | .ok (some (chunkStream, change, _)) =>
      if change.isContinued || (decoder.stream chunkStream).collected.isEmpty then none
      else some chunkStream
  | _ => none

variable {decoder : ChunkDecoder} {buffer : Bytes}

theorem givenUp?_of_read {rest : Bytes} {chunkStream : UInt32} {change : HeaderChange}
    (hread : ChunkHeader.read decoder.lastHeader buffer =
      .ok (some (chunkStream, change, rest))) :
    decoder.afterHeader chunkStream change =
      (decoder.givenUp? buffer).elim decoder decoder.abort := by
  simp only [givenUp?, hread, afterHeader]
  by_cases hcontinued : change.isContinued = true
  · simp [hcontinued]
  · by_cases hempty : (decoder.stream chunkStream).collected.isEmpty = true
    · simp [hempty, abort_of_isEmpty hempty]
    · simp [hcontinued, hempty]

/-- A chunk that is not taken leaves no other trace. -/
theorem takeChunk_of_heldUp (hheld : (decoder.takeChunk buffer).1.isTaken = false) :
    (decoder.takeChunk buffer).2 =
      (decoder.givenUp? buffer).elim decoder decoder.abort := by
  cases hread : ChunkHeader.read decoder.lastHeader buffer with
  | error error => simp [takeChunk, givenUp?, hread]
  | ok found =>
      cases found with
      | none => simp [takeChunk, givenUp?, hread]
      | some found =>
          obtain ⟨chunkStream, change, rest⟩ := found
          rw [takeChunk_of_read hread] at hheld ⊢
          rw [← givenUp?_of_read hread]
          rcases htake : (decoder.afterHeader chunkStream change).takePiece chunkStream
            change rest with ⟨outcome, next⟩
          rw [htake] at hheld
          cases outcome with
          | taken message behind => cases hheld
          | starved => exact takePiece_eq_starved htake
          | refused error => exact (takePiece_eq_refused htake).2

theorem decode_of_heldUp (hheld : (decoder.takeChunk buffer).1.isTaken = false) :
    ∃ answer,
      decoder.decode buffer =
          (answer, (decoder.givenUp? buffer).elim decoder decoder.abort, buffer) ∧
        ∀ message, answer ≠ .ok (some message) := by
  have hnext := takeChunk_of_heldUp hheld
  match htake : decoder.takeChunk buffer with
  | (.taken message rest, next) =>
      rw [htake] at hheld
      cases hheld
  | (.starved, next) =>
      rw [htake] at hnext
      obtain rfl := hnext
      exact ⟨_, decode_of_starved htake, fun message => nofun⟩
  | (.refused error, next) =>
      rw [htake] at hnext
      obtain rfl := hnext
      exact ⟨_, decode_of_refused htake, fun message => nofun⟩

/-! ## Decoders that differ in one unfinished message -/

/-- Both have the same limits and last headers and remember the same of every
chunk stream but the one at the gap. -/
structure AgreesOff (gap : Option UInt32) (decoder other : ChunkDecoder) : Prop where
  chunkSize_eq : other.chunkSize = decoder.chunkSize
  maximum_eq : other.maximum = decoder.maximum
  lastHeader_eq : other.lastHeader = decoder.lastHeader
  stream_eq : ∀ chunkStream, gap ≠ some chunkStream →
    other.stream chunkStream = decoder.stream chunkStream

theorem agreesOff_abort (decoder : ChunkDecoder) (chunkStream : UInt32) :
    AgreesOff (some chunkStream) decoder (decoder.abort chunkStream) where
  chunkSize_eq := chunkSize_abort decoder chunkStream
  maximum_eq := maximum_abort decoder chunkStream
  lastHeader_eq := lastHeader_abort decoder chunkStream
  stream_eq _ hne :=
    (AgreesOn.abort_of_ne (fun heq => hne (congrArg some heq)) decoder).stream_eq

namespace AgreesOff

variable {gap : Option UInt32} {other : ChunkDecoder}

theorem refl (decoder : ChunkDecoder) : AgreesOff gap decoder decoder :=
  ⟨rfl, rfl, rfl, fun _ _ => rfl⟩

theorem widen {left : Option UInt32} (hoff : AgreesOff left decoder other)
    (hleft : ∀ chunkStream, left = some chunkStream → gap = some chunkStream) :
    AgreesOff gap decoder other :=
  ⟨hoff.chunkSize_eq, hoff.maximum_eq, hoff.lastHeader_eq,
    fun chunkStream hgap => hoff.stream_eq chunkStream fun heq => hgap (hleft _ heq)⟩

theorem agreesOn (hoff : AgreesOff gap decoder other) {chunkStream : UInt32}
    (hne : gap ≠ some chunkStream) : AgreesOn chunkStream decoder other :=
  ⟨hoff.chunkSize_eq, hoff.maximum_eq, hoff.stream_eq chunkStream hne⟩

/-- After a chunk on a chunk stream that agrees, the gap is what it was, or closed
if it was on this chunk stream. -/
theorem of_agreesOn (hoff : AgreesOff gap decoder other) {left : Option UInt32}
    {chunkStream : UInt32} (hstream : ChunkHeader.chunkStream? buffer = some chunkStream)
    (hafter : AgreesOn chunkStream (decoder.takeChunk buffer).2 (other.takeChunk buffer).2)
    (hleft : ∀ named, named ≠ chunkStream → left ≠ some named → gap ≠ some named) :
    AgreesOff left (decoder.takeChunk buffer).2 (other.takeChunk buffer).2 := by
  have hframe : ∀ named, named ≠ chunkStream → ∀ start : ChunkDecoder,
      (start.takeChunk buffer).2.stream named = start.stream named := by
    intro named hnamed start
    refine (AgreesOn.takeChunk_of_ne start fun heq => hnamed ?_).stream_eq
    exact Option.some.inj (heq.symm.trans hstream)
  refine ⟨hafter.chunkSize_eq, hafter.maximum_eq, ?_, ?_⟩
  · funext named
    by_cases hnamed : named = chunkStream
    · subst hnamed
      exact congrArg InboundChunks.header hafter.stream_eq
    · have hheader := congrFun hoff.lastHeader_eq named
      simp only [lastHeader, hframe named hnamed] at hheader ⊢
      exact hheader
  · intro named hgap
    by_cases hnamed : named = chunkStream
    · subst hnamed
      exact hafter.stream_eq
    · rw [hframe named hnamed, hframe named hnamed]
      exact hoff.stream_eq named (hleft named hnamed hgap)

/-- A chunk on another chunk stream is the same to both. -/
theorem takeChunk_of_ne (hoff : AgreesOff gap decoder other)
    (hne : ∀ chunkStream, gap = some chunkStream →
      ChunkHeader.chunkStream? buffer ≠ some chunkStream) :
    (other.takeChunk buffer).1 = (decoder.takeChunk buffer).1 ∧
      AgreesOff gap (decoder.takeChunk buffer).2 (other.takeChunk buffer).2 := by
  cases hstream : ChunkHeader.chunkStream? buffer with
  | none =>
      have hbasic : ChunkHeader.basic? buffer = none := Option.map_eq_none_iff.mp hstream
      simp only [ChunkDecoder.takeChunk, ChunkHeader.read, hbasic]
      exact ⟨trivial, hoff⟩
  | some chunkStream =>
      have hgap : gap ≠ some chunkStream := fun heq => hne chunkStream heq hstream
      obtain ⟨houtcome, hafter⟩ := (hoff.agreesOn hgap).takeChunk hstream
      exact ⟨houtcome, hoff.of_agreesOn hstream hafter fun _ _ hleft => hleft⟩

/-- A chunk that starts a message at the gap is the same to both, and closes the
gap if its header is there. -/
theorem takeChunk_of_starting {chunkStream : UInt32}
    (hoff : AgreesOff (some chunkStream) decoder other)
    (hstream : ChunkHeader.chunkStream? buffer = some chunkStream)
    (hstarts : ∀ rest, ChunkHeader.read decoder.lastHeader buffer ≠
      .ok (some (chunkStream, .continued, rest))) :
    (other.takeChunk buffer).1 = (decoder.takeChunk buffer).1 ∧
      ((decoder.takeChunk buffer).1.isTaken = true →
        AgreesOff none (decoder.takeChunk buffer).2 (other.takeChunk buffer).2) ∧
      AgreesOff (some chunkStream) (decoder.takeChunk buffer).2
        (other.takeChunk buffer).2 := by
  have hsame : ChunkHeader.read other.lastHeader buffer =
      ChunkHeader.read decoder.lastHeader buffer := by
    rw [hoff.lastHeader_eq]
  cases hread : ChunkHeader.read decoder.lastHeader buffer with
  | error error =>
      simp only [ChunkDecoder.takeChunk, hsame, hread]
      exact ⟨trivial, fun htaken => absurd htaken Bool.false_ne_true, hoff⟩
  | ok found =>
      cases found with
      | none =>
          simp only [ChunkDecoder.takeChunk, hsame, hread]
          exact ⟨trivial, fun htaken => absurd htaken Bool.false_ne_true, hoff⟩
      | some found =>
          obtain ⟨named, change, rest⟩ := found
          obtain rfl : chunkStream = named :=
            Option.some.inj (hstream.symm.trans (ChunkHeader.chunkStream?_of_read hread))
          have hgiven : ∀ start : ChunkDecoder,
              start.afterHeader chunkStream change = start.abort chunkStream := by
            intro start
            cases change with
            | continued => exact absurd hread (hstarts rest)
            | _ => rfl
          have hclosed : AgreesOn chunkStream (decoder.afterHeader chunkStream change)
              (other.afterHeader chunkStream change) := by
            rw [hgiven, hgiven]
            refine ⟨?_, ?_, ?_⟩
            · rw [chunkSize_abort, chunkSize_abort, hoff.chunkSize_eq]
            · rw [maximum_abort, maximum_abort, hoff.maximum_eq]
            · rw [stream_abort, stream_abort, hoff.lastHeader_eq]
          have hpiece := hclosed.takePiece change rest
          rw [← takeChunk_of_read hread, ← takeChunk_of_read (hsame.trans hread)] at hpiece
          have hafter : AgreesOff none (decoder.takeChunk buffer).2
              (other.takeChunk buffer).2 :=
            hoff.of_agreesOn hstream hpiece.2
              fun named hnamed _ heq => hnamed (Option.some.inj heq).symm
          exact ⟨hpiece.1, fun _ => hafter,
            hafter.widen fun _ hnone => absurd hnone.symm (Option.some_ne_none _)⟩

end AgreesOff

/-- Of the chunks that the decoder takes from the buffer, the first one on this
chunk stream continues a message. -/
inductive Continues (chunkStream : UInt32) : ChunkDecoder → Bytes → Prop
  | here {decoder : ChunkDecoder} {buffer rest : Bytes}
      (hread : ChunkHeader.read decoder.lastHeader buffer =
        .ok (some (chunkStream, .continued, rest))) :
      Continues chunkStream decoder buffer
  | later {decoder next : ChunkDecoder} {buffer rest : Bytes}
      {message : Option WireMessage}
      (hother : ChunkHeader.chunkStream? buffer ≠ some chunkStream)
      (htake : decoder.takeChunk buffer = (.taken message rest, next))
      (hrest : Continues chunkStream next rest) :
      Continues chunkStream decoder buffer

namespace AgreesOff

variable {gap : Option UInt32} {other : ChunkDecoder}

/-- Unless it continues a message at the gap, a chunk is the same to both, and so
is what follows it. -/
theorem takeChunk (hoff : AgreesOff gap decoder other)
    (hstarts : ∀ chunkStream, gap = some chunkStream →
      ¬ Continues chunkStream decoder buffer)
    {outcome : ChunkOutcome} {next : ChunkDecoder}
    (htake : decoder.takeChunk buffer = (outcome, next)) :
    ∃ after, other.takeChunk buffer = (outcome, after) ∧
      AgreesOff gap next after ∧
      ∀ message rest, outcome = .taken message rest →
        ∃ left, AgreesOff left next after ∧
          ∀ chunkStream, left = some chunkStream →
            gap = some chunkStream ∧ ¬ Continues chunkStream next rest := by
  by_cases hat : ∃ chunkStream, gap = some chunkStream ∧
      ChunkHeader.chunkStream? buffer = some chunkStream
  · obtain ⟨chunkStream, rfl, hstream⟩ := hat
    obtain ⟨houtcome, hclosed, hafter⟩ := hoff.takeChunk_of_starting hstream
      fun rest hread => hstarts chunkStream rfl (.here hread)
    rw [htake] at houtcome hclosed hafter
    refine ⟨(other.takeChunk buffer).2, Prod.ext houtcome rfl, hafter,
      fun message rest htaken => ⟨none, ?_, nofun⟩⟩
    subst htaken
    exact hclosed rfl
  · have hne : ∀ chunkStream, gap = some chunkStream →
        ChunkHeader.chunkStream? buffer ≠ some chunkStream :=
      fun chunkStream hgap hstream => hat ⟨chunkStream, hgap, hstream⟩
    obtain ⟨houtcome, hafter⟩ := hoff.takeChunk_of_ne hne
    rw [htake] at houtcome hafter
    refine ⟨(other.takeChunk buffer).2, Prod.ext houtcome rfl, hafter,
      fun message rest htaken => ⟨gap, hafter, ?_⟩⟩
    subst htaken
    intro chunkStream hgap
    exact ⟨hgap, fun hrest =>
      hstarts chunkStream hgap (.later (hne chunkStream hgap) htake hrest)⟩

/-- Unless one of the chunks continues a message at the gap before another one
starts there, a buffer holds the same for both. -/
theorem drainOnto (hoff : AgreesOff gap decoder other)
    (hstarts : ∀ chunkStream, gap = some chunkStream →
      ¬ Continues chunkStream decoder buffer)
    (done : List DecodedMessage) :
    (other.drainOnto buffer done).toFound = (decoder.drainOnto buffer done).toFound ∧
      (other.drainOnto buffer done).rest = (decoder.drainOnto buffer done).rest ∧
      AgreesOff gap (decoder.drainOnto buffer done).decoder
        (other.drainOnto buffer done).decoder := by
  fun_induction ChunkDecoder.drainOnto decoder buffer done generalizing gap other with
  | case1 decoder buffer done message rest next htake ih =>
      obtain ⟨after, hother, -, hnext⟩ := hoff.takeChunk hstarts htake
      obtain ⟨left, hafter, hleft⟩ := hnext _ _ rfl
      obtain ⟨hfound, hrest, hend⟩ := ih hafter fun chunkStream hgap => (hleft _ hgap).2
      rw [drainOnto_of_some hother]
      exact ⟨hfound, hrest, hend.widen fun chunkStream hgap => (hleft _ hgap).1⟩
  | case2 decoder buffer done rest next htake ih =>
      obtain ⟨after, hother, -, hnext⟩ := hoff.takeChunk hstarts htake
      obtain ⟨left, hafter, hleft⟩ := hnext _ _ rfl
      obtain ⟨hfound, hrest, hend⟩ := ih hafter fun chunkStream hgap => (hleft _ hgap).2
      rw [drainOnto_of_none hother]
      exact ⟨hfound, hrest, hend.widen fun chunkStream hgap => (hleft _ hgap).1⟩
  | case3 decoder buffer done next htake =>
      obtain ⟨after, hother, hafter, -⟩ := hoff.takeChunk hstarts htake
      rw [drainOnto_of_starved hother]
      exact ⟨rfl, rfl, hafter⟩
  | case4 decoder buffer done error next htake =>
      obtain ⟨after, hother, hafter, -⟩ := hoff.takeChunk hstarts htake
      rw [drainOnto_of_refused hother]
      exact ⟨rfl, rfl, hafter⟩

end AgreesOff

/-! ## What is decoded afterwards -/

/-- With these bytes in front, it makes no difference that they have been looked
at. -/
theorem decode_append_of_heldUp (hheld : (decoder.takeChunk buffer).1.isTaken = false)
    (more : Bytes) :
    (decoder.takeChunk buffer).2.decode (buffer ++ more) =
      decoder.decode (buffer ++ more) := by
  match htake : decoder.takeChunk buffer with
  | (.taken message rest, next) =>
      rw [htake] at hheld
      cases hheld
  | (.starved, next) => exact (decode_congr (takeChunk_append_of_starved htake more)).symm
  | (.refused error, next) =>
      have hagain := takeChunk_append_of_refused (takeChunk_of_refused htake) more
      exact decode_congr (hagain.trans (takeChunk_append_of_refused htake more).symm)

theorem agreesOff_givenUp (decoder : ChunkDecoder) (buffer : Bytes) :
    AgreesOff (decoder.givenUp? buffer) decoder
      ((decoder.givenUp? buffer).elim decoder decoder.abort) := by
  cases decoder.givenUp? buffer with
  | none => exact .refl decoder
  | some chunkStream => exact agreesOff_abort decoder chunkStream

/-- A chunk that is incomplete or refused stays in the buffer, and every last
header and every unfinished payload stays what it was, but that a header which is
there and starts a message gives up the unfinished message of its chunk stream.
What is decoded later from the same bytes with others behind them is the same as
if the chunk had not been looked at, and so is what any bytes hold that do not
continue the message given up. -/
theorem decode_leaves_all_but_givenUp {decoder : ChunkDecoder} {buffer : Bytes}
    (hheld : (decoder.takeChunk buffer).1.isTaken = false) :
    let (answer, next, rest) := decoder.decode buffer
    (∀ message, answer ≠ .ok (some message)) ∧ rest = buffer ∧
      next = (decoder.givenUp? buffer).elim decoder decoder.abort ∧
      next.lastHeader = decoder.lastHeader ∧
      (∀ chunkStream, decoder.givenUp? buffer ≠ some chunkStream →
        next.stream chunkStream = decoder.stream chunkStream) ∧
      (∀ more, next.decode (buffer ++ more) = decoder.decode (buffer ++ more)) ∧
      ∀ bytes,
        (∀ chunkStream, decoder.givenUp? buffer = some chunkStream →
          ¬ Continues chunkStream decoder bytes) →
        (next.drain bytes).toFound = (decoder.drain bytes).toFound ∧
          (next.drain bytes).rest = (decoder.drain bytes).rest := by
  obtain ⟨answer, hdecode, hnothing⟩ := decode_of_heldUp hheld
  have hoff := agreesOff_givenUp decoder buffer
  rw [hdecode]
  refine ⟨hnothing, rfl, rfl, hoff.lastHeader_eq, hoff.stream_eq, fun more => ?_,
    fun bytes hstarts => ?_⟩
  · rw [← takeChunk_of_heldUp hheld]
    exact decode_append_of_heldUp hheld more
  · obtain ⟨hfound, hrest, -⟩ := hoff.drainOnto hstarts []
    exact ⟨hfound, hrest⟩

/-- Two of three bytes have been collected when the header of a message comes in
that is too long. -/
theorem decode_leaves_all_but_givenUp_of_tooLong :
    let decoder : ChunkDecoder :=
      { chunkSize := 2, maximum := 3,
        streams := [(3, ⟨some ⟨5, 5, 3, 8, 1, false⟩, .ofBytes [0xAA, 0xBB]⟩)] }
    let refused : Bytes := [3, 0, 0, 6, 0, 0, 4, 8, 1, 0, 0, 0, 0xDD]
    ({ chunkSize := 2, maximum := 3 } : ChunkDecoder).decode
        [3, 0, 0, 5, 0, 0, 3, 8, 1, 0, 0, 0, 0xAA, 0xBB] = (.ok none, decoder, []) ∧
      decoder.decode refused = (.error (.messageTooLarge 4 3), decoder.abort 3, refused) ∧
      (decoder.abort 3).lastHeader = decoder.lastHeader ∧
      (∀ more, (decoder.abort 3).decode (refused ++ more) =
        decoder.decode (refused ++ more)) ∧
      ∀ bytes, ¬ Continues 3 decoder bytes →
        ((decoder.abort 3).drain bytes).toFound = (decoder.drain bytes).toFound := by
  intro decoder refused
  have hrefused : decoder.decode refused =
      (.error (.messageTooLarge 4 3), decoder.abort 3, refused) := decode_of_refused rfl
  have hgiven : decoder.givenUp? refused = some 3 := rfl
  have hleaves := decode_leaves_all_but_givenUp
    (rfl : (decoder.takeChunk refused).1.isTaken = false)
  rw [hrefused] at hleaves
  obtain ⟨-, -, -, hheaders, -, hmore, hbytes⟩ := hleaves
  refine ⟨(decode_of_taken_none rfl).trans (decode_of_starved rfl), hrefused, hheaders,
    hmore, fun bytes hstarts => (hbytes bytes ?_).1⟩
  intro chunkStream hchunkStream
  obtain rfl : 3 = chunkStream := Option.some.inj (hgiven.symm.trans hchunkStream)
  exact hstarts

/-- Two of three bytes have been collected when the header of a message comes in
whose chunk is not complete.  The third byte, in other bytes, completes nothing
any more. -/
theorem unfinished_lost_of_starved :
    let decoder : ChunkDecoder :=
      { chunkSize := 2,
        streams := [(3, ⟨some ⟨5, 5, 3, 8, 1, false⟩, .ofBytes [0xAA, 0xBB]⟩)] }
    let starved : Bytes := [3, 0, 0, 6, 0, 0, 3, 8, 1, 0, 0, 0, 0xDD]
    ({ chunkSize := 2 } : ChunkDecoder).decode
        [3, 0, 0, 5, 0, 0, 3, 8, 1, 0, 0, 0, 0xAA, 0xBB] = (.ok none, decoder, []) ∧
      decoder.decode starved = (.ok none, decoder.abort 3, starved) ∧
      (decoder.stream 3).collected.bytes = [0xAA, 0xBB] ∧
      ((decoder.abort 3).stream 3).collected.bytes = [] ∧
      (decoder.decode [0xC3, 0xCC]).1 =
        .ok (some ⟨3, 5, 8, 1, [0xAA, 0xBB, 0xCC]⟩) ∧
      ((decoder.abort 3).decode [0xC3, 0xCC]).1 = .ok none := by
  intro decoder starved
  have hwhole : decoder.takeChunk [0xC3, 0xCC] = (.taken (some _) [], _) := rfl
  have hshort : (decoder.abort 3).takeChunk [0xC3, 0xCC] = (.starved, _) := rfl
  refine ⟨(decode_of_taken_none rfl).trans (decode_of_starved rfl), decode_of_starved rfl,
    rfl, rfl, ?_, ?_⟩
  · rw [decode_of_taken_some hwhole]
    rfl
  · rw [decode_of_starved hshort]

end ChunkDecoder

end LiveRelay
