import LiveRelay.Proofs.ChunkResynchronisation
import LiveRelay.Proofs.GuardedChunks
import LiveRelay.Proofs.HeldUpChunks

/-!
# Messages are as long as they were declared

A chunk stream remembers one length and some payload, and what comes in may change
either of them at any time: a header that gives up the unfinished message, a header
that leaves the length out, an abort, another chunk size.  A record of all chunks that
were taken tells what the two should be.  The length is the last one declared on the
chunk stream, and it was accepted when it was declared.  The payload is that of the
last chunks on it, from the one that found nothing collected on, and all behind that
one are continued ones.  It is shorter than the length, or it would have been handed
out as a message.
-/

namespace LiveRelay

/-! ## The chunks of a message -/

/-- A chunk that a decoder has taken. -/
structure TakenChunk where
  chunkStream : UInt32
  change : HeaderChange
  /-- Nothing was collected on the chunk stream once the header had been seen. -/
  starts : Bool
  piece : Bytes
  deriving DecidableEq, Repr

namespace TakenChunk

/-- The chunks of one chunk stream, in the order in which they were taken. -/
def on (chunkStream : UInt32) (chunks : List TakenChunk) : List TakenChunk :=
  chunks.filter fun chunk => chunk.chunkStream = chunkStream

/-- The last length that one of the headers gives. -/
def declaredLength? (chunks : List TakenChunk) : Option UInt32 :=
  (chunks.filterMap fun chunk => chunk.change.length?).getLast?

/-- The last of the chunks have this payload together.  The first of them found
nothing collected, the headers up to it declare the length, and the others continue
it. -/
inductive Carries (length : UInt32) : List TakenChunk → Bytes → Prop
  | begins {before : List TakenChunk} {first : TakenChunk}
      (hstarts : first.starts = true)
      (hlength : declaredLength? (before ++ [first]) = some length) :
      Carries length (before ++ [first]) first.piece
  | continues {chunks : List TakenChunk} {payload : Bytes} {next : TakenChunk}
      (hcarries : Carries length chunks payload)
      (hstarts : next.starts = false) (hcontinued : next.change = .continued) :
      Carries length (chunks ++ [next]) (payload ++ next.piece)

theorem on_append_self (chunks : List TakenChunk) (chunk : TakenChunk) :
    on chunk.chunkStream (chunks ++ [chunk]) = on chunk.chunkStream chunks ++ [chunk] := by
  simp [on]

theorem on_append_of_ne {chunk : TakenChunk} {chunkStream : UInt32}
    (hne : chunk.chunkStream ≠ chunkStream) (chunks : List TakenChunk) :
    on chunkStream (chunks ++ [chunk]) = on chunkStream chunks := by
  simp [on, hne]

theorem declaredLength?_append (chunks : List TakenChunk) (chunk : TakenChunk) :
    declaredLength? (chunks ++ [chunk]) =
      chunk.change.length?.or (declaredLength? chunks) := by
  cases hlength : chunk.change.length? with
  | none => simp [declaredLength?, hlength]
  | some length => simp [declaredLength?, hlength]

end TakenChunk

/-! ## One chunk stream -/

/-- What is remembered of a chunk stream is what the chunks taken on it say. -/
structure InboundChunks.Reassembles (maximum : UInt32) (chunks : List TakenChunk)
    (stream : InboundChunks) : Prop where
  length_eq : stream.header.map LastHeader.length = TakenChunk.declaredLength? chunks
  length_le : (stream.header.getD {}).length ≤ maximum
  full_of_isSome : stream.header.isSome = true →
    ∃ chunk ∈ chunks, chunk.change.format = 0
  carries : stream.collected.isEmpty = false →
    TakenChunk.Carries (stream.header.getD {}).length chunks stream.collected.bytes

namespace InboundChunks.Reassembles

open TakenChunk

variable {maximum : UInt32} {chunks : List TakenChunk} {stream : InboundChunks}

theorem start (maximum : UInt32) : ({} : InboundChunks).Reassembles maximum [] where
  length_eq := rfl
  length_le := UInt32.zero_le
  full_of_isSome := nofun
  carries := nofun

/-- Giving up the payload leaves the header. -/
theorem giveUp (hstream : stream.Reassembles maximum chunks) :
    Reassembles maximum chunks ⟨stream.header, {}⟩ where
  length_eq := hstream.length_eq
  length_le := hstream.length_le
  full_of_isSome := hstream.full_of_isSome
  carries := nofun

section Append

variable (chunk : TakenChunk)

/-- The header behind a chunk has the length that was declared last. -/
theorem declaredLength?_append (hstream : stream.Reassembles maximum chunks)
    (hknown : chunk.change.format = 0 ∨ stream.header.isSome = true) :
    declaredLength? (chunks ++ [chunk]) = some (stream.lengthAfter chunk.change) := by
  rw [TakenChunk.declaredLength?_append, ← hstream.length_eq, InboundChunks.lengthAfter]
  cases hlength : chunk.change.length? with
  | some length => rfl
  | none =>
      rcases hknown with hfull | hheader
      · -- a full header gives a length
        cases hchange : chunk.change <;> rw [hchange] at hfull hlength <;> cases hfull
        cases hlength
      · obtain ⟨header, hsome⟩ := Option.isSome_iff_exists.mp hheader
        rw [hsome]
        rfl

/-- With its piece, what was collected before a chunk is what the chunks up to it
carry. -/
theorem carries_append (hstream : stream.Reassembles maximum chunks)
    (hknown : chunk.change.format = 0 ∨ stream.header.isSome = true)
    (hstarts : chunk.starts = stream.collected.isEmpty)
    (hcontinued : chunk.starts = false → chunk.change = .continued) :
    Carries (stream.lengthAfter chunk.change) (chunks ++ [chunk])
      (stream.collected.append chunk.piece).bytes := by
  rw [Collected.bytes_append]
  cases hfirst : chunk.starts with
  | true =>
      have hempty : stream.collected = {} := Collected.eq_empty (hstarts.symm.trans hfirst)
      rw [hempty, Collected.bytes_empty, List.nil_append]
      exact .begins hfirst (hstream.declaredLength?_append chunk hknown)
  | false =>
      have hlength : stream.lengthAfter chunk.change = (stream.header.getD {}).length := by
        rw [hcontinued hfirst]
        rfl
      rw [hlength]
      exact .continues (hstream.carries (hstarts.symm.trans hfirst)) hfirst
        (hcontinued hfirst)

/-- Once a chunk is taken, the chunk stream remembers its header and at most what the
chunks up to it carry. -/
theorem append (hstream : stream.Reassembles maximum chunks)
    (hknown : chunk.change.format = 0 ∨ stream.header.isSome = true)
    (hlength : stream.lengthAfter chunk.change ≤ maximum) {collected : Collected}
    (hcollected : collected.isEmpty = false →
      Carries (stream.lengthAfter chunk.change) (chunks ++ [chunk]) collected.bytes) :
    Reassembles maximum (chunks ++ [chunk])
      ⟨some ((stream.header.getD {}).apply chunk.starts chunk.change), collected⟩ := by
  have hafter : ((stream.header.getD {}).apply chunk.starts chunk.change).length =
      stream.lengthAfter chunk.change := LastHeader.length_apply _ _ _
  constructor
  · rw [hstream.declaredLength?_append chunk hknown, Option.map_some, hafter]
  · rw [Option.getD_some, hafter]
    exact hlength
  · intro _
    rcases hknown with hfull | hheader
    · exact ⟨chunk, List.mem_append_right _ (List.mem_singleton_self chunk), hfull⟩
    · obtain ⟨full, hmem, hfull⟩ := hstream.full_of_isSome hheader
      exact ⟨full, List.mem_append_left _ hmem, hfull⟩
  · rw [Option.getD_some, hafter]
    exact hcollected

end Append

end InboundChunks.Reassembles

/-! ## One chunk -/

theorem ChunkHeader.known_of_read {last : UInt32 → Option LastHeader} {buffer rest : Bytes}
    {chunkStream : UInt32} {change : HeaderChange}
    (hread : read last buffer = .ok (some (chunkStream, change, rest))) :
    change.format = 0 ∨ (last chunkStream).isSome = true := by
  unfold read at hread
  split at hread
  · cases hread
  · split at hread
    · cases hread
    · rename_i format named behind _ hknown
      simp only [Except.ok.injEq, Option.map_eq_some_iff, Prod.exists, Prod.mk.injEq] at hread
      obtain ⟨found, _, hchange, rfl, rfl, -⟩ := hread
      by_cases hfull : format = 0
      · left
        subst hfull
        simp only [change?, bind, Option.bind_eq_some_iff, Prod.exists, pure,
          Option.some.injEq, Prod.mk.injEq] at hchange
        obtain ⟨_, _, -, _, _, -, rfl, -⟩ := hchange
        rfl
      · right
        rw [Option.isSome_iff_ne_none, ne_eq, ← Option.isNone_iff_eq_none]
        exact fun hnone => hknown ⟨hfull, hnone⟩

namespace ChunkDecoder

/-- The record of a chunk with this header and this piece of payload. -/
def chunkWith (decoder : ChunkDecoder) (chunkStream : UInt32) (change : HeaderChange)
    (piece : Bytes) : TakenChunk where
  chunkStream := chunkStream
  change := change
  starts := ((decoder.afterHeader chunkStream change).stream chunkStream).collected.isEmpty
  piece := piece

/-- The chunk that is taken from the front of a buffer. -/
def chunk? (decoder : ChunkDecoder) (buffer : Bytes) : Option TakenChunk :=
  match ChunkHeader.read decoder.lastHeader buffer, (decoder.takeChunk buffer).1 with
  | .ok (some (chunkStream, change, behind)), .taken _ rest =>
      some (decoder.chunkWith chunkStream change
        (behind.take (behind.length - rest.length)))
  | _, _ => none

/-- The chunks that are taken from a buffer for one message or in search of it. -/
def chunksTaken (decoder : ChunkDecoder) (buffer : Bytes) : List TakenChunk :=
  (decoder.chunk? buffer).toList ++
    match _htaken : decoder.takeChunk buffer with
    | (.taken none rest, next) => next.chunksTaken rest
    | _ => []
termination_by buffer.length
decreasing_by exact length_takeChunk _htaken

section OneChunk

variable {decoder next : ChunkDecoder} {buffer rest : Bytes} {message : Option WireMessage}
  {chunkStream : UInt32} {change : HeaderChange}

/-- What becomes of a chunk that is taken: its piece is collected, and if the message is
then complete it is handed out. -/
inductive Collects (decoder : ChunkDecoder) (chunkStream : UInt32) (change : HeaderChange)
    (piece : Bytes) : Option WireMessage → ChunkDecoder → Prop
  | more
      (hshort : ((decoder.stream chunkStream).collected.append piece).size <
        (decoder.headerAfter chunkStream change).length.toNat) :
      Collects decoder chunkStream change piece none
        (decoder.setStream chunkStream
          ⟨some (decoder.headerAfter chunkStream change),
            (decoder.stream chunkStream).collected.append piece⟩)
  | whole
      (hcomplete : (decoder.headerAfter chunkStream change).length.toNat ≤
        ((decoder.stream chunkStream).collected.append piece).size) :
      Collects decoder chunkStream change piece
        (some
          { chunkStream := chunkStream,
            timestamp := (decoder.headerAfter chunkStream change).timestamp,
            typeId := (decoder.headerAfter chunkStream change).typeId,
            streamId := (decoder.headerAfter chunkStream change).streamId,
            payload := ((decoder.stream chunkStream).collected.append piece).bytes })
        (decoder.setStream chunkStream ⟨some (decoder.headerAfter chunkStream change), {}⟩)

theorem takePiece_taken {bytes : Bytes}
    (htake : decoder.takePiece chunkStream change bytes = (.taken message rest, next)) :
    ∃ piece, bytes = piece ++ rest ∧
      decoder.pieceSize chunkStream change = .ok piece.length ∧
      Collects decoder chunkStream change piece message next := by
  cases hsize : decoder.pieceSize chunkStream change with
  | error error => simp [takePiece, hsize] at htake
  | ok size =>
      cases hsplit : bytes.split? size with
      | none => simp [takePiece, hsize, hsplit] at htake
      | some pair =>
          obtain ⟨piece, behind⟩ := pair
          obtain ⟨hbytes, hlength⟩ := Bytes.split?_eq_some_iff.mp hsplit
          simp only [takePiece, hsize, hsplit] at htake
          split at htake
          · rename_i hcomplete
            simp only [Prod.mk.injEq, ChunkOutcome.taken.injEq] at htake
            obtain ⟨⟨rfl, rfl⟩, rfl⟩ := htake
            exact ⟨piece, hbytes, by rw [hlength], .whole hcomplete⟩
          · rename_i hincomplete
            simp only [Prod.mk.injEq, ChunkOutcome.taken.injEq] at htake
            obtain ⟨⟨rfl, rfl⟩, rfl⟩ := htake
            exact ⟨piece, hbytes, by rw [hlength], .more (Nat.lt_of_not_le hincomplete)⟩

/-- A chunk that is taken has a full header, or its chunk stream has had one, and its
piece is collected once its header has been seen. -/
theorem takeChunk_taken (htake : decoder.takeChunk buffer = (.taken message rest, next)) :
    ∃ chunkStream change piece,
      decoder.chunk? buffer = some (decoder.chunkWith chunkStream change piece) ∧
        let seen := decoder.afterHeader chunkStream change
        (change.format = 0 ∨ (seen.stream chunkStream).header.isSome = true) ∧
          seen.pieceSize chunkStream change = .ok piece.length ∧
          Collects seen chunkStream change piece message next := by
  cases hread : ChunkHeader.read decoder.lastHeader buffer with
  | error error => simp [takeChunk, hread] at htake
  | ok found =>
      cases found with
      | none => simp [takeChunk, hread] at htake
      | some front =>
          obtain ⟨chunkStream, change, behind⟩ := front
          have hpiece := htake
          rw [takeChunk_of_read hread] at hpiece
          obtain ⟨piece, rfl, hsize, hcollects⟩ := takePiece_taken hpiece
          refine ⟨chunkStream, change, piece, ?_, ?_, hsize, hcollects⟩
          · simp [chunk?, hread, htake]
          · have hheader := congrFun (lastHeader_afterHeader decoder chunkStream change)
              chunkStream
            rw [lastHeader] at hheader
            rw [hheader]
            exact ChunkHeader.known_of_read hread

theorem length_le_of_pieceSize {size : Nat}
    (hsize : decoder.pieceSize chunkStream change = .ok size) :
    (decoder.stream chunkStream).lengthAfter change ≤ decoder.maximum := by
  simp only [pieceSize] at hsize
  split at hsize
  · cases hsize
  · rename_i hfits
    exact UInt32.not_lt.mp hfits

theorem maximum_afterHeader (decoder : ChunkDecoder) (chunkStream : UInt32)
    (change : HeaderChange) :
    (decoder.afterHeader chunkStream change).maximum = decoder.maximum := by
  unfold afterHeader
  split
  · rfl
  · exact maximum_abort decoder chunkStream

/-- Payload that a header finds collected is continued by it. -/
theorem continued_of_collected
    (hcollected :
      ((decoder.afterHeader chunkStream change).stream
        chunkStream).collected.isEmpty = false) :
    change = .continued := by
  cases change with
  | continued => rfl
  | _ => exact absurd (isEmpty_abort decoder chunkStream) (Bool.eq_false_iff.mp hcollected)

end OneChunk

/-! ## All chunk streams -/

/-- What is remembered is what the record of the chunks says, chunk stream by chunk
stream. -/
structure IsReassembling (decoder : ChunkDecoder) (chunks : List TakenChunk) : Prop where
  isUnfinished : decoder.IsUnfinished
  reassembles : ∀ chunkStream,
    (decoder.stream chunkStream).Reassembles decoder.maximum
      (TakenChunk.on chunkStream chunks)

/-- The last of the chunks on its chunk stream carry the message, which is as long as
they declare. -/
def CarriesMessage (maximum : UInt32) (chunks : List TakenChunk)
    (message : WireMessage) : Prop :=
  ∃ length, TakenChunk.Carries length (TakenChunk.on message.chunkStream chunks)
      message.payload ∧
    message.payload.length = length.toNat ∧ length ≤ maximum

namespace IsReassembling

variable {decoder : ChunkDecoder} {chunks : List TakenChunk}

theorem start (chunkSize maximum : UInt32) :
    IsReassembling { chunkSize := chunkSize, maximum := maximum } [] where
  isUnfinished := isUnfinished_of_streams rfl
  reassembles _ := .start maximum

theorem setChunkSize (hdecoder : decoder.IsReassembling chunks) (size : UInt32) :
    IsReassembling { decoder with chunkSize := size } chunks :=
  ⟨hdecoder.isUnfinished, hdecoder.reassembles⟩

theorem abort (hdecoder : decoder.IsReassembling chunks) (chunkStream : UInt32) :
    (decoder.abort chunkStream).IsReassembling chunks where
  isUnfinished := hdecoder.isUnfinished.abort chunkStream
  reassembles other := by
    rw [maximum_abort]
    by_cases hsame : chunkStream = other
    · subst hsame
      rw [stream_abort]
      exact (hdecoder.reassembles chunkStream).giveUp
    · rw [(AgreesOn.abort_of_ne hsame decoder).stream_eq]
      exact hdecoder.reassembles other

theorem afterHeader (hdecoder : decoder.IsReassembling chunks) (chunkStream : UInt32)
    (change : HeaderChange) :
    (decoder.afterHeader chunkStream change).IsReassembling chunks := by
  unfold ChunkDecoder.afterHeader
  split
  · exact hdecoder
  · exact hdecoder.abort chunkStream

/-- A chunk changes what is remembered of its own chunk stream only. -/
theorem setStream (hdecoder : decoder.IsReassembling chunks) (chunk : TakenChunk)
    {stream : InboundChunks} (hunfinished : stream.IsUnfinished)
    (hstream : stream.Reassembles decoder.maximum
      (TakenChunk.on chunk.chunkStream chunks ++ [chunk])) :
    (decoder.setStream chunk.chunkStream stream).IsReassembling (chunks ++ [chunk]) where
  isUnfinished := hdecoder.isUnfinished.setStream chunk.chunkStream hunfinished
  reassembles other := by
    rw [stream_setStream, maximum_setStream]
    by_cases hsame : chunk.chunkStream = other
    · subst hsame
      rw [if_pos rfl, TakenChunk.on_append_self]
      exact hstream
    · rw [if_neg hsame, TakenChunk.on_append_of_ne hsame]
      exact hdecoder.reassembles other

/-- A chunk that is taken goes into the record, and a message that it completes is
carried by the last chunks there. -/
theorem takeChunk (hdecoder : decoder.IsReassembling chunks)
    {buffer rest : Bytes} {message : Option WireMessage} {next : ChunkDecoder}
    (htake : decoder.takeChunk buffer = (.taken message rest, next)) :
    ∃ chunk, decoder.chunk? buffer = some chunk ∧
      next.IsReassembling (chunks ++ [chunk]) ∧ next.maximum = decoder.maximum ∧
      ∀ wire, message = some wire →
        CarriesMessage decoder.maximum (chunks ++ [chunk]) wire := by
  obtain ⟨chunkStream, change, piece, hchunk, hknown, hsize, hcollects⟩ :=
    takeChunk_taken htake
  have hseen := hdecoder.afterHeader chunkStream change
  have hmaximum := maximum_afterHeader decoder chunkStream change
  have hstream := hseen.reassembles chunkStream
  have hlength := length_le_of_pieceSize hsize
  let chunk := decoder.chunkWith chunkStream change piece
  have hcarries := hstream.carries_append chunk hknown rfl continued_of_collected
  refine ⟨chunk, hchunk, ?_⟩
  cases hcollects with
  | more hshort =>
      have hnext := hstream.append chunk hknown hlength fun _ => hcarries
      exact ⟨hseen.setStream chunk (.inr hshort) hnext, hmaximum, nofun⟩
  | whole hcomplete =>
      refine ⟨hseen.setStream chunk (.inl rfl) ?_, hmaximum, ?_⟩
      · exact hstream.append chunk hknown hlength nofun
      · rintro wire ⟨rfl⟩
        have hrecord : TakenChunk.on chunkStream (chunks ++ [chunk]) =
            TakenChunk.on chunkStream chunks ++ [chunk] :=
          TakenChunk.on_append_self chunks chunk
        have hlonger := size_add_le_of_pieceSize
          (hdecoder.isUnfinished.size_le chunkStream change) hsize
        rw [headerAfter, LastHeader.length_apply] at hcomplete
        refine ⟨_, hrecord.symm ▸ hcarries, ?_, hmaximum ▸ hlength⟩
        rw [Collected.length_bytes]
        exact Nat.le_antisymm hlonger hcomplete

/-- A chunk that is not taken leaves the record as it is. -/
theorem of_heldUp (hdecoder : decoder.IsReassembling chunks) {buffer : Bytes}
    {outcome : ChunkOutcome} {next : ChunkDecoder}
    (htake : decoder.takeChunk buffer = (outcome, next)) (hheld : outcome.isTaken = false) :
    next.IsReassembling chunks ∧ next.maximum = decoder.maximum := by
  have hnext := takeChunk_of_heldUp ((congrArg (·.1.isTaken) htake).trans hheld)
  rw [htake] at hnext
  obtain rfl := hnext
  cases decoder.givenUp? buffer with
  | none => exact ⟨hdecoder, rfl⟩
  | some chunkStream => exact ⟨hdecoder.abort chunkStream, maximum_abort decoder chunkStream⟩

end IsReassembling

/-! ## Calls -/

section Decode

variable {decoder next : ChunkDecoder} {buffer rest : Bytes} {chunk : TakenChunk}

theorem chunksTaken_of_none (hchunk : decoder.chunk? buffer = some chunk)
    (htake : decoder.takeChunk buffer = (.taken none rest, next)) :
    decoder.chunksTaken buffer = chunk :: next.chunksTaken rest := by
  rw [chunksTaken, hchunk]
  split <;> simp_all

theorem chunksTaken_of_some {message : WireMessage}
    (hchunk : decoder.chunk? buffer = some chunk)
    (htake : decoder.takeChunk buffer = (.taken (some message) rest, next)) :
    decoder.chunksTaken buffer = [chunk] := by
  rw [chunksTaken, hchunk]
  split <;> simp_all

theorem chunksTaken_of_heldUp {outcome : ChunkOutcome}
    (htake : decoder.takeChunk buffer = (outcome, next)) (hheld : outcome.isTaken = false) :
    decoder.chunksTaken buffer = [] := by
  have hchunk : decoder.chunk? buffer = none := by
    unfold chunk?
    rw [htake]
    cases outcome with
    | taken message rest => cases hheld
    | starved => split <;> simp_all
    | refused error => split <;> simp_all
  rw [chunksTaken, hchunk]
  split
  · rename_i htaken
    rw [htake] at htaken
    obtain ⟨rfl, -⟩ := Prod.mk.inj htaken
    cases hheld
  · rfl

/-- Chunks go into the record one by one, until the last of them carry the message
that is handed out. -/
theorem IsReassembling.decode {chunks : List TakenChunk}
    (hdecoder : decoder.IsReassembling chunks) (buffer : Bytes) :
    (decoder.decode buffer).2.1.IsReassembling (chunks ++ decoder.chunksTaken buffer) ∧
      (decoder.decode buffer).2.1.maximum = decoder.maximum ∧
      ∀ message, (decoder.decode buffer).1 = .ok (some message) →
        CarriesMessage decoder.maximum (chunks ++ decoder.chunksTaken buffer) message := by
  fun_induction ChunkDecoder.decode decoder buffer generalizing chunks with
  | case1 decoder buffer rest next htake ih =>
      obtain ⟨chunk, hchunk, hnext, hmaximum, -⟩ := hdecoder.takeChunk htake
      have hrest := ih hnext
      rw [chunksTaken_of_none hchunk htake, List.append_cons, ← hmaximum]
      exact hrest
  | case2 decoder buffer message rest next htake =>
      obtain ⟨chunk, hchunk, hnext, hmaximum, hcarries⟩ := hdecoder.takeChunk htake
      rw [chunksTaken_of_some hchunk htake]
      refine ⟨hnext, hmaximum, ?_⟩
      rintro _ ⟨rfl⟩
      exact hcarries message rfl
  | case3 decoder buffer next htake =>
      obtain ⟨hnext, hmaximum⟩ := hdecoder.of_heldUp htake rfl
      rw [chunksTaken_of_heldUp htake rfl, List.append_nil]
      exact ⟨hnext, hmaximum, fun _ hmessage => by cases hmessage⟩
  | case4 decoder buffer error next htake =>
      obtain ⟨hnext, hmaximum⟩ := hdecoder.of_heldUp htake rfl
      rw [chunksTaken_of_heldUp htake rfl, List.append_nil]
      exact ⟨hnext, hmaximum, fun _ hmessage => by cases hmessage⟩

end Decode

/-- What is done with a decoder. -/
inductive Call where
  | decode (buffer : Bytes)
  | abort (chunkStream : UInt32)
  | setChunkSize (size : UInt32)
  deriving DecidableEq, Repr

/-- A decoder, and all chunks that it has taken. -/
structure Reception where
  decoder : ChunkDecoder
  chunks : List TakenChunk := []

namespace Reception

/-- Nothing has come in yet. -/
def start (chunkSize maximum : UInt32) : Reception where
  decoder := { chunkSize := chunkSize, maximum := maximum }

def serve (reception : Reception) : Call → Reception
  | .decode buffer =>
      { decoder := (reception.decoder.decode buffer).2.1,
        chunks := reception.chunks ++ reception.decoder.chunksTaken buffer }
  | .abort chunkStream =>
      { reception with decoder := reception.decoder.abort chunkStream }
  | .setChunkSize size =>
      { reception with decoder := { reception.decoder with chunkSize := size } }

def serveAll (reception : Reception) (calls : List Call) : Reception :=
  calls.foldl serve reception

/-- The chunks that were taken on a chunk stream. -/
def chunksOn (reception : Reception) (chunkStream : UInt32) : List TakenChunk :=
  TakenChunk.on chunkStream reception.chunks

variable {reception : Reception}

theorem isReassembling_serve
    (hreception : reception.decoder.IsReassembling reception.chunks) (call : Call) :
    (reception.serve call).decoder.IsReassembling (reception.serve call).chunks ∧
      (reception.serve call).decoder.maximum = reception.decoder.maximum := by
  cases call with
  | decode buffer =>
      obtain ⟨hnext, hmaximum, -⟩ := hreception.decode buffer
      exact ⟨hnext, hmaximum⟩
  | abort chunkStream =>
      exact ⟨hreception.abort chunkStream, maximum_abort reception.decoder chunkStream⟩
  | setChunkSize size => exact ⟨hreception.setChunkSize size, rfl⟩

theorem isReassembling_serveAll
    (hreception : reception.decoder.IsReassembling reception.chunks) (calls : List Call) :
    (reception.serveAll calls).decoder.IsReassembling (reception.serveAll calls).chunks ∧
      (reception.serveAll calls).decoder.maximum = reception.decoder.maximum := by
  induction calls generalizing reception with
  | nil => exact ⟨hreception, rfl⟩
  | cons call calls ih =>
      obtain ⟨hnext, hmaximum⟩ := isReassembling_serve hreception call
      obtain ⟨hlast, hkept⟩ := ih hnext
      exact ⟨hlast, hkept.trans hmaximum⟩

/-- Whatever a new decoder is asked to decode, and whatever is aborted or becomes the
chunk size in between: the length that a chunk stream remembers is within the maximum,
and the payload that waits there is shorter and has a full header before it.  The next
message is carried by the last chunks taken on its chunk stream, the first of which
found nothing collected while the others continue it, and it is as long as the headers
up to that first chunk declare. -/
theorem serveAll_reassembles (chunkSize maximum : UInt32) (calls : List Call) :
    let reached := (start chunkSize maximum).serveAll calls
    (∀ chunkStream,
      let stream := reached.decoder.stream chunkStream
      let length := (stream.header.getD {}).length
      length ≤ maximum ∧
        (stream.collected.bytes = [] ∨
          stream.collected.bytes.length < length.toNat ∧
            ∃ chunk ∈ reached.chunksOn chunkStream, chunk.change.format = 0)) ∧
      ∀ buffer message,
        (reached.decoder.decode buffer).1 = .ok (some message) →
        ∃ length,
          TakenChunk.Carries length
            ((reached.serve (.decode buffer)).chunksOn message.chunkStream)
            message.payload ∧
          message.payload.length = length.toNat ∧ length ≤ maximum := by
  intro reached
  have hstart : (start chunkSize maximum).decoder.IsReassembling
      (start chunkSize maximum).chunks := .start chunkSize maximum
  obtain ⟨hreached, hmaximum⟩ := isReassembling_serveAll hstart calls
  change reached.decoder.maximum = maximum at hmaximum
  refine ⟨fun chunkStream => ?_, fun buffer message hmessage => ?_⟩
  · have hstream := hreached.reassembles chunkStream
    refine ⟨hmaximum ▸ hstream.length_le, ?_⟩
    rw [Collected.length_bytes]
    rcases hreached.isUnfinished chunkStream with hempty | hshort
    · left
      rw [Collected.eq_empty (beq_iff_eq.mpr hempty), Collected.bytes_empty]
    · refine .inr ⟨hshort, hstream.full_of_isSome ?_⟩
      rw [Option.isSome_iff_ne_none]
      intro hnone
      rw [hnone] at hshort
      exact Nat.not_lt_zero _ hshort
  · obtain ⟨-, -, hcarries⟩ := hreached.decode buffer
    rw [← hmaximum]
    exact hcarries message hmessage

/-- A header gives up two of three bytes, and what follows it is aborted.  The length
that it declared still holds for the next message, which starts with a chunk without
payload. -/
theorem serveAll_reassembles_of_aborted :
    let calls : List Call :=
      [.decode [3, 0, 0, 5, 0, 0, 3, 8, 1, 0, 0, 0, 0xAA, 0xBB],
        .decode [0x43, 0, 0, 6, 0, 0, 4, 9, 1, 2], .abort 3, .setChunkSize 0,
        .decode [0xC3], .setChunkSize 4]
    let reached := (start 2 4).serveAll calls
    let buffer : Bytes := [0xC3, 1, 2, 3, 4, 0xC3]
    let message : WireMessage := ⟨3, 23, 9, 1, [1, 2, 3, 4]⟩
    (reached.decoder.decode buffer).1 = .ok (some message) ∧
      ∃ length,
        TakenChunk.Carries length ((reached.serve (.decode buffer)).chunksOn 3)
          [1, 2, 3, 4] ∧
        4 = length.toNat ∧ length ≤ 4 := by
  intro calls reached buffer message
  have hunfinished :
      (ChunkDecoder.mk 2 4 []).decode
          [3, 0, 0, 5, 0, 0, 3, 8, 1, 0, 0, 0, 0xAA, 0xBB] =
        (.ok none,
          ⟨2, 4, [(3, ⟨some ⟨5, 5, 3, 8, 1, false⟩, .ofBytes [0xAA, 0xBB]⟩)]⟩, []) :=
    (decode_of_taken_none rfl).trans (decode_of_starved rfl)
  have hsuperseded :
      (ChunkDecoder.mk 2 4
          [(3, ⟨some ⟨5, 5, 3, 8, 1, false⟩, .ofBytes [0xAA, 0xBB]⟩)]).decode
          [0x43, 0, 0, 6, 0, 0, 4, 9, 1, 2] =
        (.ok none, ⟨2, 4, [(3, ⟨some ⟨11, 6, 4, 9, 1, false⟩, .ofBytes [1, 2]⟩)]⟩, []) :=
    (decode_of_taken_none rfl).trans (decode_of_starved rfl)
  have haborted :
      (ChunkDecoder.mk 2 4
          [(3, ⟨some ⟨11, 6, 4, 9, 1, false⟩, .ofBytes [1, 2]⟩)]).abort 3 =
        ⟨2, 4, [(3, ⟨some ⟨11, 6, 4, 9, 1, false⟩, {}⟩)]⟩ := rfl
  have hwithout :
      (ChunkDecoder.mk 0 4 [(3, ⟨some ⟨11, 6, 4, 9, 1, false⟩, {}⟩)]).decode [0xC3] =
        (.ok none, ⟨0, 4, [(3, ⟨some ⟨17, 6, 4, 9, 1, false⟩, {}⟩)]⟩, []) :=
    (decode_of_taken_none rfl).trans (decode_of_starved rfl)
  have hreached : reached.decoder =
      ⟨4, 4, [(3, ⟨some ⟨17, 6, 4, 9, 1, false⟩, {}⟩)]⟩ := by
    simp only [reached, calls, serveAll, List.foldl_cons, List.foldl_nil, serve, start,
      hunfinished, hsuperseded, haborted, hwithout]
  have hmessage : (reached.decoder.decode buffer).1 = .ok (some message) := by
    rw [hreached]
    exact congrArg Prod.fst (decode_of_taken_some rfl)
  exact ⟨hmessage, (serveAll_reassembles 2 4 calls).2 buffer message hmessage⟩

end Reception

end ChunkDecoder

end LiveRelay
