import LiveRelay.ChunkFeed
import LiveRelay.Proofs.ChunkHeaderRoundTrip

/-!
# Messages come back from their chunks

Encoder and decoder remember the same header for each chunk stream, and between
two messages the decoder has collected nothing.  Both facts survive a message:
its first chunk moves both headers in the same way, the continued ones leave
them alone, and the piece that completes the payload empties the collection.
So any number of messages comes back, on any mixture of chunk streams and with
any chunk sizes, as long as both sides change the size between the same two
messages.
-/

namespace LiveRelay

/-! ## Pieces -/

namespace ChunkEncoder

theorem cutOnto_of_le {less : Nat} {bytes : Bytes} (hle : bytes.length ≤ less + 1)
    (done : List Bytes) :
    cutOnto less bytes done = (bytes :: done).reverse := by
  rw [cutOnto]
  split
  · rfl
  · rename_i hrest
    have hlength := congrArg List.length hrest
    simp only [List.length_drop, List.length_cons] at hlength
    omega

theorem cutOnto_of_lt {less : Nat} {bytes : Bytes} (hlt : less + 1 < bytes.length)
    (done : List Bytes) :
    cutOnto less bytes done =
      cutOnto less (bytes.drop (less + 1)) (bytes.take (less + 1) :: done) := by
  conv => lhs; rw [cutOnto]
  split
  · rename_i hrest
    have hlength := congrArg List.length hrest
    simp only [List.length_drop, List.length_nil] at hlength
    omega
  · rename_i hrest
    rw [hrest]

theorem cutOnto_eq_append (less : Nat) (bytes : Bytes) (done : List Bytes) :
    cutOnto less bytes done = done.reverse ++ cutOnto less bytes [] := by
  induction hlength : bytes.length using Nat.strongRecOn
    generalizing bytes done with
  | ind length ih =>
      by_cases hle : bytes.length ≤ less + 1
      · simp [cutOnto_of_le hle]
      · have hlt : less + 1 < bytes.length := Nat.lt_of_not_le hle
        have hshorter : (bytes.drop (less + 1)).length < length := by
          rw [List.length_drop]
          omega
        rw [cutOnto_of_lt hlt, cutOnto_of_lt hlt,
          ih _ hshorter _ (bytes.take (less + 1) :: done) rfl,
          ih _ hshorter _ [bytes.take (less + 1)] rfl]
        simp

theorem pieces_of_le {size : Nat} {bytes : Bytes} (hpos : 0 < size)
    (hle : bytes.length ≤ size) : pieces size bytes = [bytes] := by
  have hsize : size - 1 + 1 = size := Nat.sub_add_cancel hpos
  exact cutOnto_of_le (by omega) []

theorem pieces_of_lt {size : Nat} {bytes : Bytes} (hpos : 0 < size)
    (hlt : size < bytes.length) :
    pieces size bytes = bytes.take size :: pieces size (bytes.drop size) := by
  have hsize : size - 1 + 1 = size := Nat.sub_add_cancel hpos
  have hcut : cutOnto (size - 1) bytes [] = _ := cutOnto_of_lt (by omega) []
  rw [hsize, cutOnto_eq_append _ _ [bytes.take size]] at hcut
  exact hcut

end ChunkEncoder

/-! ## One chunk -/

namespace Collected

@[simp] theorem size_append (collected : Collected) (piece : Bytes) :
    (collected.append piece).size = collected.size + piece.length := rfl

theorem isEmpty_append {collected : Collected} {piece : Bytes}
    (hpiece : piece ≠ []) : (collected.append piece).isEmpty = false := by
  have hpos := List.length_pos_iff.mpr hpiece
  simp only [isEmpty, size_append, beq_eq_false_iff_ne, ne_eq]
  omega

end Collected

/-- The header is that of the message, whose length fits it. -/
structure LastHeader.Describes (header : LastHeader) (message : WireMessage) : Prop where
  timestamp_eq : header.timestamp = message.timestamp
  length_eq : header.length.toNat = message.payload.length
  typeId_eq : header.typeId = message.typeId
  streamId_eq : header.streamId = message.streamId

namespace ChunkDecoder

theorem setStream_setStream (decoder : ChunkDecoder) (chunkStream : UInt32)
    (first second : InboundChunks) :
    (decoder.setStream chunkStream first).setStream chunkStream second =
      decoder.setStream chunkStream second := by
  simp only [setStream, Table.put_put]

@[simp] theorem chunkSize_setStream (decoder : ChunkDecoder) (chunkStream : UInt32)
    (chunks : InboundChunks) :
    (decoder.setStream chunkStream chunks).chunkSize = decoder.chunkSize := rfl

@[simp] theorem maximum_setStream (decoder : ChunkDecoder) (chunkStream : UInt32)
    (chunks : InboundChunks) :
    (decoder.setStream chunkStream chunks).maximum = decoder.maximum := rfl

theorem chunkSize_afterHeader (decoder : ChunkDecoder) (chunkStream : UInt32)
    (change : HeaderChange) :
    (decoder.afterHeader chunkStream change).chunkSize = decoder.chunkSize := by
  unfold afterHeader abort
  split
  · rfl
  · split <;> rfl

/-- The header of a chunk stream once a chunk with this change is taken. -/
def headerAfter (decoder : ChunkDecoder) (chunkStream : UInt32)
    (change : HeaderChange) : LastHeader :=
  ((decoder.stream chunkStream).header.getD {}).apply
    (decoder.stream chunkStream).collected.isEmpty change

/-- What the decoder has of a message when it has taken the header of one of
its chunks and the payload before that chunk. -/
structure Expects (decoder : ChunkDecoder) (chunkStream : UInt32)
    (change : HeaderChange) (message : WireMessage) (before : Bytes) : Prop where
  bytes_eq : (decoder.stream chunkStream).collected.bytes = before
  describes : (decoder.headerAfter chunkStream change).Describes message
  length_le : message.payload.length ≤ decoder.maximum.toNat

theorem Expects.pieceSize_eq {decoder : ChunkDecoder} {chunkStream : UInt32}
    {change : HeaderChange} {message : WireMessage} {before : Bytes}
    (hexpects : decoder.Expects chunkStream change message before) :
    decoder.pieceSize chunkStream change =
      .ok (min (message.payload.length - before.length) decoder.chunkSize.toNat) := by
  have hlength := hexpects.describes.length_eq
  rw [headerAfter, LastHeader.length_apply] at hlength
  have hfits : ¬ decoder.maximum <
      change.length?.getD ((decoder.stream chunkStream).header.getD {}).length := by
    rw [UInt32.lt_iff_toNat_lt, hlength]
    exact Nat.not_lt_of_le hexpects.length_le
  have hsize : (decoder.stream chunkStream).collected.size = before.length := by
    rw [← Collected.length_bytes, hexpects.bytes_eq]
  simp only [pieceSize, if_neg hfits, hlength, hsize]

theorem collected_of_expects {decoder : ChunkDecoder} {chunkStream : UInt32}
    {change : HeaderChange} {message : WireMessage} {before : Bytes}
    (hexpects : decoder.Expects chunkStream change message before) (piece : Bytes) :
    ((decoder.stream chunkStream).collected.append piece).size =
      (before ++ piece).length := by
  rw [← Collected.length_bytes, Collected.bytes_append, hexpects.bytes_eq]

theorem takePiece_of_last {decoder : ChunkDecoder} {change : HeaderChange}
    {message : WireMessage} {before piece : Bytes}
    (hexpects : decoder.Expects message.chunkStream change message before)
    (hpayload : before ++ piece = message.payload)
    (hfits : piece.length ≤ decoder.chunkSize.toNat) (more : Bytes) :
    decoder.takePiece message.chunkStream change (piece ++ more) =
      (.taken (some message) more,
        decoder.setStream message.chunkStream
          ⟨some (decoder.headerAfter message.chunkStream change), {}⟩) := by
  have hlength := congrArg List.length hpayload
  rw [List.length_append] at hlength
  have hsize : decoder.pieceSize message.chunkStream change = .ok piece.length := by
    rw [hexpects.pieceSize_eq]
    congr 1
    omega
  have hheader := hexpects.describes
  have hcomplete :
      (decoder.headerAfter message.chunkStream change).length.toNat ≤
        ((decoder.stream message.chunkStream).collected.append piece).size := by
    rw [collected_of_expects hexpects, hpayload]
    exact Nat.le_of_eq hheader.length_eq
  have hmessage :
      ({ chunkStream := message.chunkStream
         timestamp := (decoder.headerAfter message.chunkStream change).timestamp
         typeId := (decoder.headerAfter message.chunkStream change).typeId
         streamId := (decoder.headerAfter message.chunkStream change).streamId
         payload :=
          ((decoder.stream message.chunkStream).collected.append piece).bytes } :
            WireMessage) = message := by
    rw [Collected.bytes_append, hexpects.bytes_eq, hpayload]
    rw [hheader.timestamp_eq, hheader.typeId_eq, hheader.streamId_eq]
  simp only [takePiece, hsize, Bytes.split?_append]
  unfold headerAfter at hcomplete hmessage ⊢
  rw [if_pos hcomplete, hmessage]

theorem takePiece_of_full {decoder : ChunkDecoder} {chunkStream : UInt32}
    {change : HeaderChange} {message : WireMessage} {before piece behind : Bytes}
    (hexpects : decoder.Expects chunkStream change message before)
    (hpayload : before ++ piece ++ behind = message.payload)
    (hfull : piece.length = decoder.chunkSize.toNat) (hbehind : behind ≠ [])
    (more : Bytes) :
    decoder.takePiece chunkStream change (piece ++ more) =
      (.taken none more,
        decoder.setStream chunkStream
          ⟨some (decoder.headerAfter chunkStream change),
            (decoder.stream chunkStream).collected.append piece⟩) := by
  have hlength := congrArg List.length hpayload
  simp only [List.length_append] at hlength
  have hrest := List.length_pos_iff.mpr hbehind
  have hsize : decoder.pieceSize chunkStream change = .ok piece.length := by
    rw [hexpects.pieceSize_eq]
    congr 1
    omega
  have hincomplete :
      ¬ (decoder.headerAfter chunkStream change).length.toNat ≤
        ((decoder.stream chunkStream).collected.append piece).size := by
    rw [collected_of_expects hexpects, hexpects.describes.length_eq,
      List.length_append]
    omega
  simp only [takePiece, hsize, Bytes.split?_append]
  unfold headerAfter at hincomplete ⊢
  rw [if_neg hincomplete]

theorem Expects.afterPiece {decoder : ChunkDecoder} {chunkStream : UInt32}
    {change : HeaderChange} {message : WireMessage} {before piece : Bytes}
    (hexpects : decoder.Expects chunkStream change message before)
    (hpiece : piece ≠ []) :
    let next :=
      decoder.setStream chunkStream
        ⟨some (decoder.headerAfter chunkStream change),
          (decoder.stream chunkStream).collected.append piece⟩
    next.Expects chunkStream .continued message (before ++ piece) ∧
      next.headerAfter chunkStream .continued =
        decoder.headerAfter chunkStream change := by
  intro next
  have hstream : next.stream chunkStream =
      ⟨some (decoder.headerAfter chunkStream change),
        (decoder.stream chunkStream).collected.append piece⟩ := by
    rw [stream_setStream, if_pos rfl]
  have hheader : next.headerAfter chunkStream .continued =
      decoder.headerAfter chunkStream change := by
    simp [headerAfter, hstream, Collected.isEmpty_append hpiece, LastHeader.apply]
  refine ⟨⟨?_, ?_, hexpects.length_le⟩, hheader⟩
  · rw [hstream, Collected.bytes_append, hexpects.bytes_eq]
  · rw [hheader]
    exact hexpects.describes

/-! ## The chunks of one message -/

theorem takePiece_append {decoder next : ChunkDecoder} {chunkStream : UInt32}
    {change : HeaderChange} {bytes rest : Bytes} {message : Option WireMessage}
    (htake : decoder.takePiece chunkStream change bytes = (.taken message rest, next))
    (more : Bytes) :
    decoder.takePiece chunkStream change (bytes ++ more) =
      (.taken message (rest ++ more), next) := by
  cases hsize : decoder.pieceSize chunkStream change with
  | error error => simp [takePiece, hsize] at htake
  | ok size =>
      cases hsplit : bytes.split? size with
      | none => simp [takePiece, hsize, hsplit] at htake
      | some pair =>
          obtain ⟨piece, behind⟩ := pair
          have hlonger := Bytes.split?_append_of_some hsplit more
          simp only [takePiece, hsize, hsplit] at htake
          simp only [takePiece, hsize, hlonger]
          split at htake
          · rename_i hcomplete
            rw [if_pos hcomplete]
            simp only [Prod.mk.injEq, ChunkOutcome.taken.injEq] at htake ⊢
            exact ⟨⟨htake.1.1, by rw [htake.1.2]⟩, htake.2⟩
          · rename_i hincomplete
            rw [if_neg hincomplete]
            simp only [Prod.mk.injEq, ChunkOutcome.taken.injEq] at htake ⊢
            exact ⟨⟨htake.1.1, by rw [htake.1.2]⟩, htake.2⟩

/-- A chunk that can be taken is taken, whatever follows it. -/
theorem takeChunk_append_of_taken {decoder next : ChunkDecoder} {buffer rest : Bytes}
    {message : Option WireMessage}
    (htake : decoder.takeChunk buffer = (.taken message rest, next)) (more : Bytes) :
    decoder.takeChunk (buffer ++ more) = (.taken message (rest ++ more), next) := by
  cases hread : ChunkHeader.read decoder.lastHeader buffer with
  | error error => simp [takeChunk, hread] at htake
  | ok found =>
      cases found with
      | none => simp [takeChunk, hread] at htake
      | some found =>
          obtain ⟨chunkStream, change, behind⟩ := found
          rw [takeChunk_of_read hread] at htake
          rw [takeChunk_of_read (ChunkHeader.read_append hread more)]
          exact takePiece_append htake more

theorem decode_of_taken_none {decoder next : ChunkDecoder} {buffer rest : Bytes}
    (htake : decoder.takeChunk buffer = (.taken none rest, next)) :
    decoder.decode buffer = next.decode rest := by
  conv => lhs; rw [decode]
  split <;> simp_all

theorem decode_of_taken_some {decoder next : ChunkDecoder} {buffer rest : Bytes}
    {message : WireMessage}
    (htake : decoder.takeChunk buffer = (.taken (some message) rest, next)) :
    decoder.decode buffer = (.ok (some message), next, rest) := by
  rw [decode]
  split <;> simp_all

/-- Chunks that are taken one after the other, of which the last one completes
the message. -/
inductive Completes (message : WireMessage) :
    ChunkDecoder → List Bytes → ChunkDecoder → Prop
  | last {decoder next : ChunkDecoder} {chunk : Bytes}
      (htake : decoder.takeChunk chunk = (.taken (some message) [], next)) :
      Completes message decoder [chunk] next
  | more {decoder middle next : ChunkDecoder} {chunk : Bytes} {chunks : List Bytes}
      (htake : decoder.takeChunk chunk = (.taken none [], middle))
      (hothers : Completes message middle chunks next) :
      Completes message decoder (chunk :: chunks) next

/-- Where its chunks are taken, the message is decoded. -/
theorem Completes.decode_eq {message : WireMessage} {decoder next : ChunkDecoder}
    {chunks : List Bytes} (hcompletes : Completes message decoder chunks next)
    (more : Bytes) :
    decoder.decode (chunks.flatten ++ more) = (.ok (some message), next, more) := by
  induction hcompletes with
  | last htake =>
      rw [List.flatten_singleton]
      exact decode_of_taken_some (takeChunk_append_of_taken htake more)
  | more htake hothers ih =>
      rw [List.flatten_cons, List.append_assoc]
      exact (decode_of_taken_none (takeChunk_append_of_taken htake _)).trans ih

end ChunkDecoder

namespace ChunkEncoder

/-- Pieces behind their headers, the first one behind a header of its own. -/
def writeChunks (chunkStream : UInt32) (change : HeaderChange) (extension : Bytes) :
    List Bytes → List Bytes
  | [] => []
  | first :: others =>
      (writeHeader chunkStream change extension ++ first) ::
        others.map fun piece => writeHeader chunkStream .continued extension ++ piece

theorem writeChunks_cons (chunkStream : UInt32) (change : HeaderChange)
    (extension first : Bytes) (others : List Bytes) :
    writeChunks chunkStream change extension (first :: others) =
      (writeHeader chunkStream change extension ++ first) ::
        writeChunks chunkStream .continued extension others := by
  cases others <;> rfl

end ChunkEncoder

namespace ChunkDecoder

/-- A header that the decoder reads whatever follows it. -/
def Reads (decoder : ChunkDecoder) (chunkStream : UInt32) (change : HeaderChange)
    (extension : Bytes) : Prop :=
  ∀ rest,
    ChunkHeader.read decoder.lastHeader
        (ChunkEncoder.writeHeader chunkStream change extension ++ rest) =
      .ok (some (chunkStream, change, rest))

theorem reads_continued {decoder : ChunkDecoder} {chunkStream : UInt32}
    {extension : Bytes} {header : LastHeader}
    (hname : ChunkHeader.CanName chunkStream)
    (hlast : decoder.lastHeader chunkStream = some header)
    (hextension : extension.length = if header.isExtended then 4 else 0) :
    decoder.Reads chunkStream .continued extension := by
  have hwritable : HeaderChange.continued.IsWritable := trivial
  have hextended : HeaderChange.continued.ExtendedBy
      ((decoder.lastHeader chunkStream).getD {}).isExtended extension := by
    rw [hlast]
    exact hextension
  intro rest
  exact ChunkHeader.read_writeHeader hname hwritable hextended
    (.inr (by simp [hlast])) rest

/-- From a chunk of a message on the chunks of what is left of it complete it. -/
theorem completes_writeChunks {decoder : ChunkDecoder} {change : HeaderChange}
    {message : WireMessage} {extension before left : Bytes}
    (hname : ChunkHeader.CanName message.chunkStream)
    (hpos : 0 < decoder.chunkSize.toNat)
    (hreads : decoder.Reads message.chunkStream change extension)
    (hexpects :
      (decoder.afterHeader message.chunkStream change).Expects message.chunkStream
        change message before)
    (hextension :
      extension.length =
        if ((decoder.afterHeader message.chunkStream change).headerAfter
          message.chunkStream change).isExtended then 4 else 0)
    (hpayload : before ++ left = message.payload) :
    Completes message decoder
      (ChunkEncoder.writeChunks message.chunkStream change extension
        (ChunkEncoder.pieces decoder.chunkSize.toNat left))
      ((decoder.afterHeader message.chunkStream change).setStream message.chunkStream
        ⟨some ((decoder.afterHeader message.chunkStream change).headerAfter
          message.chunkStream change), {}⟩) := by
  -- every chunk but the last leaves less of the payload
  induction hlength : left.length using Nat.strongRecOn
    generalizing decoder change before left with
  | ind length ih =>
      have hsize := chunkSize_afterHeader decoder message.chunkStream change
      rcases Nat.lt_or_ge decoder.chunkSize.toNat left.length with hlt | hle
      · have hfull : (left.take decoder.chunkSize.toNat).length =
            decoder.chunkSize.toNat :=
          List.length_take_of_le (Nat.le_of_lt hlt)
        have hbehind : left.drop decoder.chunkSize.toNat ≠ [] := by
          rw [← List.length_pos_iff, List.length_drop]
          omega
        have hpiece : left.take decoder.chunkSize.toNat ≠ [] := by
          rw [← List.length_pos_iff, hfull]
          exact hpos
        have hwhole : before ++ left.take decoder.chunkSize.toNat ++
            left.drop decoder.chunkSize.toNat = message.payload := by
          rw [List.append_assoc, List.take_append_drop, hpayload]
        obtain ⟨hnext, hheader⟩ := hexpects.afterPiece hpiece
        have htake := takePiece_of_full hexpects hwhole (by rw [hsize, hfull]) hbehind []
        generalize hafter :
          (decoder.afterHeader message.chunkStream change).setStream
            message.chunkStream _ = next at htake hnext hheader
        have hlast : next.lastHeader message.chunkStream =
            some ((decoder.afterHeader message.chunkStream change).headerAfter
              message.chunkStream change) := by
          rw [← hafter, lastHeader, stream_setStream, if_pos rfl]
        have hnextSize : next.chunkSize = decoder.chunkSize := by
          rw [← hafter, chunkSize_setStream, hsize]
        have hshorter : (left.drop decoder.chunkSize.toNat).length < length := by
          rw [List.length_drop]
          omega
        have hsame : next.afterHeader message.chunkStream .continued = next := rfl
        have hnextReads : next.Reads message.chunkStream .continued extension :=
          reads_continued hname hlast hextension
        have hnextExtension :
            extension.length =
              if ((next.afterHeader message.chunkStream .continued).headerAfter
                message.chunkStream .continued).isExtended then 4 else 0 := by
          rw [hsame, hheader]
          exact hextension
        have hrest := ih _ hshorter (by rw [hnextSize]; exact hpos) hnextReads hnext
          hnextExtension hwhole rfl
        rw [hnextSize, hsame, hheader, ← hafter, setStream_setStream, hafter] at hrest
        rw [List.append_nil] at htake
        rw [ChunkEncoder.pieces_of_lt hpos hlt, ChunkEncoder.writeChunks_cons]
        exact .more ((takeChunk_of_read (hreads _)).trans htake) hrest
      · rw [ChunkEncoder.pieces_of_le hpos hle]
        have htake := takePiece_of_last hexpects hpayload (by rw [hsize]; exact hle) []
        rw [List.append_nil] at htake
        exact .last ((takeChunk_of_read (hreads _)).trans htake)

end ChunkDecoder

/-! ## One message -/

/-- What an encoder can be given: its chunk stream has a name, and three bytes
hold its length. -/
structure WireMessage.IsSendable (message : WireMessage) : Prop where
  canName : ChunkHeader.CanName message.chunkStream
  length_le : message.payload.length ≤ 0xFFFFFF

namespace ChunkEncoder

theorem toNat_length {message : WireMessage} (hsendable : message.IsSendable) :
    (UInt32.ofNat message.payload.length).toNat = message.payload.length := by
  have hle := hsendable.length_le
  rw [UInt32.toNat_ofNat']
  omega

theorem isWritable_changeFor {message : WireMessage} (hsendable : message.IsSendable)
    (last : Option LastHeader) : (changeFor last message).IsWritable := by
  have hlength :
      (UInt32.ofNat message.payload.length).toNat < Bytes.capacity 3 := by
    rw [toNat_length hsendable]
    exact Nat.lt_succ_of_le hsendable.length_le
  cases last with
  | none => exact ⟨rfl, hlength⟩
  | some last =>
      simp only [changeFor]
      split
      · exact ⟨rfl, hlength⟩
      · split
        · exact ⟨rfl, hlength⟩
        · split
          · trivial
          · rfl

theorem format_changeFor (last : Option LastHeader) (message : WireMessage) :
    (changeFor last message).format = 0 ∨ last.isSome := by
  cases last with
  | none => exact .inl rfl
  | some last => exact .inr rfl

theorem describes_changeFor {message : WireMessage} (hsendable : message.IsSendable)
    (last : Option LastHeader) :
    ((last.getD {}).apply true (changeFor last message)).Describes message := by
  have hlength := toNat_length hsendable
  cases last with
  | none => exact ⟨rfl, hlength, rfl, rfl⟩
  | some last =>
      have hforward :
          last.timestamp + (message.timestamp - last.timestamp) = message.timestamp := by
        rw [UInt32.add_comm, UInt32.sub_add_cancel]
      simp only [changeFor, Option.getD_some]
      split
      · exact ⟨rfl, hlength, rfl, rfl⟩
      · rename_i hsame
        simp only [not_or, Decidable.not_not] at hsame
        split
        · exact ⟨hforward, hlength, rfl, hsame.1.symm⟩
        · rename_i hkind
          simp only [not_or, Decidable.not_not] at hkind
          have hkept : last.length.toNat = message.payload.length := by
            rw [← hkind.2, hlength]
          split
          · rename_i hdelta
            refine ⟨?_, hkept, hkind.1.symm, hsame.1.symm⟩
            show last.timestamp + last.delta = message.timestamp
            rw [← hdelta, hforward]
          · exact ⟨hforward, hkept, hkind.1.symm, hsame.1.symm⟩

theorem extendedBy_extensionFor (last : Option LastHeader) (change : HeaderChange) :
    change.ExtendedBy (last.getD {}).isExtended (extensionFor last change) := by
  cases change with
  | continued => exact TimeField.length_extension _
  | _ => rfl

theorem length_extensionFor (last : Option LastHeader) (change : HeaderChange) :
    (extensionFor last change).length =
      if ((last.getD {}).apply true change).isExtended then 4 else 0 := by
  cases change <;> exact TimeField.length_extension _

/-- The chunks in which a message goes out. -/
def chunksOf (encoder : ChunkEncoder) (message : WireMessage) : List Bytes :=
  let last := encoder.streams.get? message.chunkStream
  let change := changeFor last message
  writeChunks message.chunkStream change (extensionFor last change)
    (pieces encoder.chunkSize.toNat message.payload)

theorem encode_eq (encoder : ChunkEncoder) (message : WireMessage) :
    let last := encoder.streams.get? message.chunkStream
    let header := (last.getD {}).apply true (changeFor last message)
    encoder.encode message =
      ((encoder.chunksOf message).flatten,
        { encoder with streams := encoder.streams.put message.chunkStream header }) := by
  simp only [encode, chunksOf]
  cases pieces encoder.chunkSize.toNat message.payload <;> rfl

end ChunkEncoder

/-- Between two messages both ends remember the same, and the decoder waits for
nothing. -/
structure InStep (encoder : ChunkEncoder) (decoder : ChunkDecoder) : Prop where
  chunkSize_eq : decoder.chunkSize = encoder.chunkSize
  stream_eq : ∀ chunkStream,
    decoder.stream chunkStream = ⟨encoder.streams.get? chunkStream, {}⟩

namespace InStep

theorem start (chunkSize maximum : UInt32) :
    InStep { chunkSize := chunkSize }
      { chunkSize := chunkSize, maximum := maximum } where
  chunkSize_eq := rfl
  stream_eq _ := rfl

theorem lastHeader_eq {encoder : ChunkEncoder} {decoder : ChunkDecoder}
    (hstep : InStep encoder decoder) (chunkStream : UInt32) :
    decoder.lastHeader chunkStream = encoder.streams.get? chunkStream := by
  rw [ChunkDecoder.lastHeader, hstep.stream_eq]

theorem afterHeader_eq {encoder : ChunkEncoder} {decoder : ChunkDecoder}
    (hstep : InStep encoder decoder) (chunkStream : UInt32) (change : HeaderChange) :
    decoder.afterHeader chunkStream change = decoder := by
  unfold ChunkDecoder.afterHeader
  split
  · rfl
  · apply ChunkDecoder.abort_of_isEmpty
    rw [hstep.stream_eq]
    rfl

/-- The chunks of a message complete it, and both ends are in step behind it. -/
theorem completes_chunksOf {encoder : ChunkEncoder} {decoder : ChunkDecoder}
    (hstep : InStep encoder decoder) {message : WireMessage}
    (hsendable : message.IsSendable) (hpos : 0 < encoder.chunkSize.toNat)
    (hmaximum : message.payload.length ≤ decoder.maximum.toNat) :
    ∃ next,
      ChunkDecoder.Completes message decoder (encoder.chunksOf message) next ∧
      InStep (encoder.encode message).2 next ∧ next.maximum = decoder.maximum := by
  have hencode := encoder.encode_eq message
  simp only at hencode
  rw [hencode]
  simp only [ChunkEncoder.chunksOf]
  generalize hlast : encoder.streams.get? message.chunkStream = last
  generalize hchange : ChunkEncoder.changeFor last message = change
  have hlastHeader : decoder.lastHeader message.chunkStream = last := by
    rw [hstep.lastHeader_eq, hlast]
  have hstream := hstep.stream_eq message.chunkStream
  rw [hlast] at hstream
  have hafter := hstep.afterHeader_eq message.chunkStream change
  have hheader : decoder.headerAfter message.chunkStream change =
      (last.getD {}).apply true change := by
    rw [ChunkDecoder.headerAfter, hstream]
    rfl
  have hreads : decoder.Reads message.chunkStream change
      (ChunkEncoder.extensionFor last change) := by
    intro rest
    apply ChunkHeader.read_writeHeader hsendable.canName
    · rw [← hchange]
      exact ChunkEncoder.isWritable_changeFor hsendable last
    · rw [hlastHeader]
      exact ChunkEncoder.extendedBy_extensionFor last change
    · rw [hlastHeader, ← hchange]
      exact ChunkEncoder.format_changeFor last message
  have hexpects : (decoder.afterHeader message.chunkStream change).Expects
      message.chunkStream change message [] := by
    rw [hafter]
    refine ⟨by rw [hstream]; rfl, ?_, hmaximum⟩
    rw [hheader, ← hchange]
    exact ChunkEncoder.describes_changeFor hsendable last
  have hextension :
      (ChunkEncoder.extensionFor last change).length =
        if ((decoder.afterHeader message.chunkStream change).headerAfter
          message.chunkStream change).isExtended then 4 else 0 := by
    rw [hafter, hheader]
    exact ChunkEncoder.length_extensionFor last change
  have hcompletes := ChunkDecoder.completes_writeChunks hsendable.canName
    (by rw [hstep.chunkSize_eq]; exact hpos) hreads hexpects hextension
    (List.nil_append message.payload)
  rw [hafter, hheader, hstep.chunkSize_eq] at hcompletes
  refine ⟨_, hcompletes, ⟨hstep.chunkSize_eq, ?_⟩, rfl⟩
  intro other
  rw [ChunkDecoder.stream_setStream, hstep.stream_eq other, Table.get?_put]
  split <;> rfl

/-- A message comes back, and both ends are in step behind it. -/
theorem decode_encode {encoder : ChunkEncoder} {decoder : ChunkDecoder}
    (hstep : InStep encoder decoder) {message : WireMessage}
    (hsendable : message.IsSendable) (hpos : 0 < encoder.chunkSize.toNat)
    (hmaximum : message.payload.length ≤ decoder.maximum.toNat) (more : Bytes) :
    ∃ next,
      decoder.decode ((encoder.encode message).1 ++ more) =
        (.ok (some message), next, more) ∧
      InStep (encoder.encode message).2 next ∧ next.maximum = decoder.maximum := by
  obtain ⟨next, hcompletes, hnext, hkept⟩ :=
    hstep.completes_chunksOf hsendable hpos hmaximum
  refine ⟨next, ?_, hnext, hkept⟩
  rw [encoder.encode_eq message]
  exact hcompletes.decode_eq more

end InStep

/-! ## Any number of messages -/

namespace ChunkDecoder

theorem drainOnto_of_some {decoder next : ChunkDecoder} {buffer rest : Bytes}
    {message : WireMessage}
    (htake : decoder.takeChunk buffer = (.taken (some message) rest, next))
    (done : List DecodedMessage) :
    decoder.drainOnto buffer done = next.drainOnto rest (⟨message, rest⟩ :: done) := by
  conv => lhs; rw [drainOnto]
  split <;> simp_all

theorem drainOnto_of_none {decoder next : ChunkDecoder} {buffer rest : Bytes}
    (htake : decoder.takeChunk buffer = (.taken none rest, next))
    (done : List DecodedMessage) :
    decoder.drainOnto buffer done = next.drainOnto rest done := by
  conv => lhs; rw [drainOnto]
  split <;> simp_all

theorem drainOnto_of_starved {decoder next : ChunkDecoder} {buffer : Bytes}
    (htake : decoder.takeChunk buffer = (.starved, next))
    (done : List DecodedMessage) :
    decoder.drainOnto buffer done = ⟨⟨done.reverse, none⟩, next, buffer⟩ := by
  rw [drainOnto]
  split <;> simp_all

theorem drainOnto_of_refused {decoder next : ChunkDecoder} {buffer : Bytes}
    {error : ProtocolError}
    (htake : decoder.takeChunk buffer = (.refused error, next))
    (done : List DecodedMessage) :
    decoder.drainOnto buffer done = ⟨⟨done.reverse, some error⟩, next, buffer⟩ := by
  rw [drainOnto]
  split <;> simp_all

/-- Messages put before what else a buffer holds. -/
def Drained.precededBy (drained : Drained) (decoded : List DecodedMessage) : Drained :=
  { drained with decoded := decoded ++ drained.decoded }

theorem drainOnto_append (decoder : ChunkDecoder) (buffer : Bytes)
    (done earlier : List DecodedMessage) :
    decoder.drainOnto buffer (done ++ earlier) =
      (decoder.drainOnto buffer done).precededBy earlier.reverse := by
  fun_induction drainOnto decoder buffer done with
  | case1 decoder buffer done message rest next htake ih =>
      rw [drainOnto_of_some htake]
      exact ih
  | case2 decoder buffer done rest next htake ih =>
      rw [drainOnto_of_none htake]
      exact ih
  | case3 decoder buffer done next htake =>
      rw [drainOnto_of_starved htake]
      simp [Drained.precededBy]
  | case4 decoder buffer done error next htake =>
      rw [drainOnto_of_refused htake]
      simp [Drained.precededBy]

/-- These messages and nothing else. -/
structure Drained.Holds (drained : Drained) (messages : List WireMessage) : Prop where
  messages_eq : drained.messages = messages
  error_eq : drained.error = none
  rest_eq : drained.rest = []

theorem drain_eq_of_decode (decoder : ChunkDecoder) (buffer : Bytes) :
    decoder.drain buffer =
      match decoder.decode buffer with
      | (.ok (some message), next, rest) => (next.drain rest).precededBy [⟨message, rest⟩]
      | (.ok none, next, rest) => ⟨⟨[], none⟩, next, rest⟩
      | (.error error, next, rest) => ⟨⟨[], some error⟩, next, rest⟩ := by
  fun_induction decode decoder buffer with
  | case1 decoder buffer rest next htake ih =>
      rw [drain, drainOnto_of_none htake]
      exact ih
  | case2 decoder buffer message rest next htake =>
      rw [drain, drainOnto_of_some htake]
      exact drainOnto_append next rest [] [⟨message, rest⟩]
  | case3 decoder buffer next htake =>
      rw [drain, drainOnto_of_starved htake]
      rfl
  | case4 decoder buffer error next htake =>
      rw [drain, drainOnto_of_refused htake]
      rfl

/-- All messages of a buffer, the chunk size being set to the next of the given
sizes before each message, as long as there are sizes. -/
def drainResizing (decoder : ChunkDecoder) (buffer : Bytes) :
    (sizes : List UInt32) → Drained
  | [] => decoder.drain buffer
  | size :: sizes =>
      match ({ decoder with chunkSize := size } : ChunkDecoder).decode buffer with
      | (.ok (some message), next, rest) =>
          (next.drainResizing rest sizes).precededBy [⟨message, rest⟩]
      | (.ok none, next, rest) => ⟨⟨[], none⟩, next, rest⟩
      | (.error error, next, rest) => ⟨⟨[], some error⟩, next, rest⟩

end ChunkDecoder

namespace ChunkEncoder

/-- The bytes of messages, the chunk size being set to the one beside it before
each message. -/
def encodeResizing (encoder : ChunkEncoder) : List (UInt32 × WireMessage) → Bytes
  | [] => []
  | (size, message) :: plan =>
      let (written, encoder) := (encoder.setChunkSize size).encode message
      written ++ encoder.encodeResizing plan

theorem setChunkSize_of_mem {size : UInt32} (hlow : 1 ≤ size)
    (hhigh : size ≤ largestChunkSize) (encoder : ChunkEncoder) :
    encoder.setChunkSize size = { encoder with chunkSize := size } := by
  have hmax : max size 1 = size := by
    show (if size ≤ 1 then 1 else size) = size
    split
    · rename_i hone
      exact UInt32.le_antisymm hlow hone
    · rfl
  have hmin : min size largestChunkSize = size := if_pos hhigh
  rw [setChunkSize, hmax, hmin]

end ChunkEncoder

namespace InStep

theorem resize {encoder : ChunkEncoder} {decoder : ChunkDecoder}
    (hstep : InStep encoder decoder) {size : UInt32} (hlow : 1 ≤ size)
    (hhigh : size ≤ ChunkEncoder.largestChunkSize) :
    InStep (encoder.setChunkSize size) { decoder with chunkSize := size } := by
  rw [ChunkEncoder.setChunkSize_of_mem hlow hhigh]
  exact ⟨rfl, hstep.stream_eq⟩

/-- From ends in step on, a whole sequence comes back and leaves nothing. -/
theorem holds_drainResizing {encoder : ChunkEncoder} {decoder : ChunkDecoder}
    (hstep : InStep encoder decoder) {plan : List (UInt32 × WireMessage)}
    (hsizes : ∀ entry ∈ plan, 1 ≤ entry.1 ∧ entry.1 ≤ ChunkEncoder.largestChunkSize)
    (hsendable : ∀ entry ∈ plan, entry.2.IsSendable)
    (hmaximum : ∀ entry ∈ plan, entry.2.payload.length ≤ decoder.maximum.toNat) :
    (decoder.drainResizing (encoder.encodeResizing plan) (plan.map Prod.fst)).Holds
      (plan.map Prod.snd) := by
  induction plan generalizing encoder decoder with
  | nil =>
      have hdrain : decoder.drain [] = ⟨⟨[], none⟩, decoder, []⟩ :=
        ChunkDecoder.drainOnto_of_starved rfl []
      simp only [List.map_nil, ChunkDecoder.drainResizing, ChunkEncoder.encodeResizing]
      rw [hdrain]
      exact ⟨rfl, rfl, rfl⟩
  | cons entry plan ih =>
      obtain ⟨size, message⟩ := entry
      obtain ⟨hlow, hhigh⟩ := hsizes (size, message) List.mem_cons_self
      have hresized := hstep.resize hlow hhigh
      have hpos : 0 < (encoder.setChunkSize size).chunkSize.toNat := by
        rw [ChunkEncoder.setChunkSize_of_mem hlow hhigh]
        exact UInt32.le_iff_toNat_le.mp hlow
      obtain ⟨next, hdecode, hnext, hnextMaximum⟩ :=
        hresized.decode_encode (hsendable (size, message) List.mem_cons_self) hpos
          (hmaximum (size, message) List.mem_cons_self)
          (((encoder.setChunkSize size).encode message).2.encodeResizing plan)
      have hothers := ih hnext
        (fun other hother => hsizes other (List.mem_cons_of_mem _ hother))
        (fun other hother => hsendable other (List.mem_cons_of_mem _ hother))
        (fun other hother => by
          rw [hnextMaximum]
          exact hmaximum other (List.mem_cons_of_mem _ hother))
      simp only [List.map_cons, ChunkDecoder.drainResizing, ChunkEncoder.encodeResizing,
        hdecode]
      refine ⟨?_, hothers.error_eq, hothers.rest_eq⟩
      rw [← hothers.messages_eq]
      rfl

end InStep

/-! ## One chunk size throughout -/

namespace ChunkDecoder

theorem chunkSize_takePiece (decoder : ChunkDecoder) (chunkStream : UInt32)
    (change : HeaderChange) (rest : Bytes) :
    (decoder.takePiece chunkStream change rest).2.chunkSize = decoder.chunkSize := by
  unfold takePiece
  split
  · rfl
  · split
    · rfl
    · simp only
      split <;> rfl

theorem chunkSize_takeChunk (decoder : ChunkDecoder) (buffer : Bytes) :
    (decoder.takeChunk buffer).2.chunkSize = decoder.chunkSize := by
  unfold takeChunk
  split
  · rfl
  · rfl
  · rw [chunkSize_takePiece, chunkSize_afterHeader]

theorem chunkSize_decode (decoder : ChunkDecoder) (buffer : Bytes) :
    (decoder.decode buffer).2.1.chunkSize = decoder.chunkSize := by
  fun_induction decode decoder buffer with
  | case1 decoder buffer rest next htake ih =>
      rw [ih, ← chunkSize_takeChunk decoder buffer, htake]
  | case2 decoder buffer message rest next htake =>
      rw [← chunkSize_takeChunk decoder buffer, htake]
  | case3 decoder buffer next htake =>
      rw [← chunkSize_takeChunk decoder buffer, htake]
  | case4 decoder buffer error next htake =>
      rw [← chunkSize_takeChunk decoder buffer, htake]

theorem drainResizing_replicate (decoder : ChunkDecoder) (buffer : Bytes)
    (count : Nat) :
    decoder.drainResizing buffer (List.replicate count decoder.chunkSize) =
      decoder.drain buffer := by
  induction count generalizing decoder buffer with
  | zero => rfl
  | succ count ih =>
      have hkept := chunkSize_decode decoder buffer
      rw [List.replicate_succ, drainResizing, drain_eq_of_decode]
      generalize decoder.decode buffer = decoded at hkept
      obtain ⟨taken, next, rest⟩ := decoded
      match taken with
      | .error error => rfl
      | .ok none => rfl
      | .ok (some message) =>
          have hothers := ih next rest
          rw [show next.chunkSize = decoder.chunkSize from hkept] at hothers
          simp only [hothers]

end ChunkDecoder

theorem ChunkEncoder.encodeResizing_of_chunkSize (encoder : ChunkEncoder) (size : UInt32)
    (plan : List (UInt32 × WireMessage)) :
    ({ encoder with chunkSize := size } : ChunkEncoder).encodeResizing plan =
      encoder.encodeResizing plan := by
  cases plan <;> rfl

/-- What one fresh encoder writes for any sequence of messages, one fresh
decoder reads back, when both set the same chunk sizes before the same
messages.  With one chunk size throughout, draining the bytes is enough. -/
theorem holds_drain_encodeResizing (plan : List (UInt32 × WireMessage))
    (maximum : UInt32)
    (hsizes : ∀ entry ∈ plan, 1 ≤ entry.1 ∧ entry.1 ≤ ChunkEncoder.largestChunkSize)
    (hsendable : ∀ entry ∈ plan, entry.2.IsSendable)
    (hmaximum : ∀ entry ∈ plan, entry.2.payload.length ≤ maximum.toNat) :
    let written := ({} : ChunkEncoder).encodeResizing plan
    (({ maximum := maximum } : ChunkDecoder).drainResizing written
        (plan.map Prod.fst)).Holds (plan.map Prod.snd) ∧
      ∀ size, (∀ entry ∈ plan, entry.1 = size) →
        (({ chunkSize := size, maximum := maximum } : ChunkDecoder).drain
          written).Holds (plan.map Prod.snd) := by
  intro written
  refine ⟨(InStep.start 128 maximum).holds_drainResizing hsizes hsendable hmaximum, ?_⟩
  intro size hsize
  have hequal : plan.map Prod.fst = List.replicate plan.length size := by
    rw [List.eq_replicate_iff]
    refine ⟨List.length_map _, ?_⟩
    intro other hother
    obtain ⟨entry, hentry, rfl⟩ := List.mem_map.mp hother
    exact hsize entry hentry
  have hholds :=
    (InStep.start size maximum).holds_drainResizing hsizes hsendable hmaximum
  have hwritten : ({ chunkSize := size } : ChunkEncoder).encodeResizing plan = written :=
    ChunkEncoder.encodeResizing_of_chunkSize {} size plan
  rw [hequal, hwritten, ChunkDecoder.drainResizing_replicate] at hholds
  exact hholds

/-- Times that go back and need the extension, an empty payload, the last chunk
stream, and a chunk size that drops to one byte. -/
theorem holds_drain_encodeResizing_of_three :
    let plan : List (UInt32 × WireMessage) :=
      [(128, ⟨65599, 0xFFFFFF, 9, 1, [1, 2, 3]⟩), (1, ⟨65599, 0xFFFFFFFF, 9, 1, [4, 5]⟩),
        (1, ⟨65599, 7, 9, 1, []⟩)]
    (({ maximum := 3 } : ChunkDecoder).drainResizing
      (({} : ChunkEncoder).encodeResizing plan) (plan.map Prod.fst)).Holds
        (plan.map Prod.snd) := by
  intro plan
  refine (holds_drain_encodeResizing plan 3 ?_ ?_ ?_).1
  · decide
  · intro entry hentry
    simp only [plan, List.mem_cons, List.not_mem_nil, or_false] at hentry
    rcases hentry with rfl | rfl | rfl <;> exact ⟨by decide, by decide⟩
  · decide

end LiveRelay
