import LiveRelay.Proofs.ChunkInterleaving
import LiveRelay.Proofs.InboundPieces

/-!
# A full header starts over

A decoder may be in the middle of a message on a chunk stream, the message may
just have been given up, and the last header may have had an extension or a
difference of times that no longer holds.  A full header gives up what is
unfinished and says everything anew.  So any decoder reads what a fresh encoder
with its chunk size writes, is in step with that encoder on this chunk stream
afterwards, and remembers of all others what it did before.
-/

namespace LiveRelay

theorem Collected.eq_empty {collected : Collected} (hempty : collected.isEmpty = true) :
    collected = {} := by
  obtain ⟨reversed, size, hsize⟩ := collected
  obtain rfl : size = 0 := beq_iff_eq.mp hempty
  obtain rfl := List.eq_nil_of_length_eq_zero hsize
  rfl

namespace ChunkDecoder

/-! ## Giving up -/

theorem maximum_abort (decoder : ChunkDecoder) (chunkStream : UInt32) :
    (decoder.abort chunkStream).maximum = decoder.maximum := by
  unfold abort
  split <;> rfl

theorem chunkSize_abort (decoder : ChunkDecoder) (chunkStream : UInt32) :
    (decoder.abort chunkStream).chunkSize = decoder.chunkSize := by
  unfold abort
  split <;> rfl

/-- Only unfinished payload is given up. -/
theorem stream_abort (decoder : ChunkDecoder) (chunkStream : UInt32) :
    (decoder.abort chunkStream).stream chunkStream =
      ⟨decoder.lastHeader chunkStream, {}⟩ := by
  have hheader := congrFun (lastHeader_abort decoder chunkStream) chunkStream
  have hcollected := Collected.eq_empty (isEmpty_abort decoder chunkStream)
  rw [← hheader, ← hcollected]
  rfl

theorem AgreesOn.abort_of_ne {chunkStream changed : UInt32} (hne : changed ≠ chunkStream)
    (decoder : ChunkDecoder) :
    AgreesOn chunkStream decoder (decoder.abort changed) := by
  unfold abort
  split
  · exact refl chunkStream decoder
  · exact setStream_of_ne hne decoder _

/-! ## Starting over -/

variable {decoder : ChunkDecoder} {message : WireMessage}

/-- A full header asks for the whole of its message, whatever has been collected. -/
theorem expects_abort (hsendable : message.IsSendable)
    (hmaximum : message.payload.length ≤ decoder.maximum.toNat) :
    (decoder.abort message.chunkStream).Expects message.chunkStream
      (ChunkEncoder.changeFor none message) message [] where
  bytes_eq := by
    rw [stream_abort]
    rfl
  describes := ChunkEncoder.describes_changeFor hsendable none
  length_le := by
    rw [maximum_abort]
    exact hmaximum

/-- The chunks of a message behind a full header complete it in any decoder. -/
theorem completes_of_full (hsendable : message.IsSendable)
    (hpos : 0 < decoder.chunkSize.toNat)
    (hmaximum : message.payload.length ≤ decoder.maximum.toNat) :
    let change := ChunkEncoder.changeFor none message
    Completes message decoder
      (ChunkEncoder.writeChunks message.chunkStream change
        (ChunkEncoder.extensionFor none change)
        (ChunkEncoder.pieces decoder.chunkSize.toNat message.payload))
      ((decoder.abort message.chunkStream).setStream message.chunkStream
        ⟨some (({} : LastHeader).apply true change), {}⟩) := by
  intro change
  have hreads : decoder.Reads message.chunkStream change
      (ChunkEncoder.extensionFor none change) := by
    intro rest
    exact ChunkHeader.read_writeHeader hsendable.canName
      (ChunkEncoder.isWritable_changeFor hsendable none) rfl (.inl rfl) rest
  exact completes_writeChunks hsendable.canName hpos hreads
    (expects_abort hsendable hmaximum) (ChunkEncoder.length_extensionFor none change)
    (List.nil_append message.payload)

end ChunkDecoder

namespace ChunkEncoder

theorem setChunkSize_of_lt {size : UInt32} (hlarge : largestChunkSize < size)
    (encoder : ChunkEncoder) :
    encoder.setChunkSize size = { encoder with chunkSize := largestChunkSize } := by
  have hbeyond : ¬ max size 1 ≤ largestChunkSize := by
    show ¬ (if size ≤ 1 then 1 else size) ≤ largestChunkSize
    split
    · rename_i hone
      exact fun hle => UInt32.not_le.mpr hlarge (UInt32.le_trans hone hle)
    · exact UInt32.not_le.mpr hlarge
  have hmin : min (max size 1) largestChunkSize = largestChunkSize := if_neg hbeyond
  rw [setChunkSize, hmin]

/-- Beyond the largest chunk size, sendable messages are one piece anyway. -/
theorem pieces_setChunkSize {message : WireMessage} (hsendable : message.IsSendable)
    {size : UInt32} (hpos : 1 ≤ size) (encoder : ChunkEncoder) :
    pieces (encoder.setChunkSize size).chunkSize.toNat message.payload =
      pieces size.toNat message.payload := by
  rcases UInt32.lt_or_le largestChunkSize size with hlarge | hhigh
  · have hlargest : largestChunkSize.toNat = 0x7FFFFFFF := rfl
    have hsize := UInt32.lt_iff_toNat_lt.mp hlarge
    have hlength := hsendable.length_le
    have hclamped : (encoder.setChunkSize size).chunkSize = largestChunkSize := by
      rw [setChunkSize_of_lt hlarge]
    rw [hclamped, pieces_of_le (by omega) (by omega), pieces_of_le (by omega) (by omega)]
  · rw [setChunkSize_of_mem hpos hhigh]

end ChunkEncoder

/-- Any decoder with a chunk size, whatever it has been through, reads what a
fresh encoder with this chunk size writes for a message, byte for byte, and
nothing behind it.  Of the chunk stream it then remembers what the encoder
remembers, and no unfinished payload; of every other chunk stream it remembers
what it did before, as it does when the message on this one is given up. -/
theorem decode_encode_of_any_decoder (decoder : ChunkDecoder) {message : WireMessage}
    (hpos : 1 ≤ decoder.chunkSize) (hsendable : message.IsSendable)
    (hmaximum : message.payload.length ≤ decoder.maximum.toNat) (more : Bytes) :
    let (written, encoder) :=
      (({} : ChunkEncoder).setChunkSize decoder.chunkSize).encode message
    let (answer, next, rest) := decoder.decode (written ++ more)
    answer = .ok (some message) ∧ rest = more ∧
      next.stream message.chunkStream =
        ⟨encoder.streams.get? message.chunkStream, {}⟩ ∧
      ∀ other, other ≠ message.chunkStream →
        ChunkDecoder.AgreesOn other decoder next ∧
          ChunkDecoder.AgreesOn other decoder (decoder.abort message.chunkStream) := by
  have hcompletes := ChunkDecoder.completes_of_full hsendable
    (UInt32.le_iff_toNat_le.mp hpos) hmaximum
  have hdecode := hcompletes.decode_eq more
  have hencode :=
    (({} : ChunkEncoder).setChunkSize decoder.chunkSize).encode_eq message
  have hnew : (({} : ChunkEncoder).setChunkSize decoder.chunkSize).streams.get?
      message.chunkStream = none := rfl
  simp only [ChunkEncoder.chunksOf, hnew,
    ChunkEncoder.pieces_setChunkSize hsendable hpos] at hencode
  simp only [hencode, hdecode]
  refine ⟨trivial, trivial, ?_, fun other hother => ⟨?_, ?_⟩⟩
  · rw [ChunkDecoder.stream_setStream, if_pos rfl, Table.get?_put, if_pos rfl]
    rfl
  · exact (ChunkDecoder.AgreesOn.abort_of_ne hother.symm decoder).trans
      (ChunkDecoder.AgreesOn.setStream_of_ne hother.symm _ _)
  · exact ChunkDecoder.AgreesOn.abort_of_ne hother.symm decoder

/-- Two of four bytes have been collected behind a header with an extension. -/
theorem decode_encode_of_any_decoder_of_unfinished :
    let decoder : ChunkDecoder :=
      { chunkSize := 2,
        streams :=
          [(3, ⟨some ⟨0xFFFFFFFF, 0xFFFFFFFF, 4, 8, 1, true⟩, .ofBytes [0xAA, 0xBB]⟩)] }
    let message : WireMessage := ⟨3, 5, 9, 1, [1, 2, 3]⟩
    let unfinished : Bytes :=
      [3, 0xFF, 0xFF, 0xFF, 0, 0, 4, 8, 1, 0, 0, 0, 0xFF, 0xFF, 0xFF, 0xFF, 0xAA, 0xBB]
    let written : Bytes := [3, 0, 0, 5, 0, 0, 3, 9, 1, 0, 0, 0, 1, 2, 0xC3, 3]
    ({ chunkSize := 2 } : ChunkDecoder).decode unfinished = (.ok none, decoder, []) ∧
      ((({} : ChunkEncoder).setChunkSize 2).encode message).1 = written ∧
      (decoder.decode (written ++ [0xC3])).1 = .ok (some message) ∧
      (decoder.decode (written ++ [0xC3])).2.2 = [0xC3] := by
  have hpieces : ChunkEncoder.pieces 2 [1, 2, 3] = [[1, 2], [3]] := by
    rw [ChunkEncoder.pieces_of_lt (by decide) (by decide),
      ChunkEncoder.pieces_of_le (by decide) (by decide)]
    rfl
  have hencode : (({} : ChunkEncoder).setChunkSize 2).encode ⟨3, 5, 9, 1, [1, 2, 3]⟩ =
      ([3, 0, 0, 5, 0, 0, 3, 9, 1, 0, 0, 0, 1, 2, 0xC3, 3],
        { chunkSize := 2, streams := [(3, ⟨5, 5, 3, 9, 1, false⟩)] }) := by
    rw [ChunkEncoder.encode_eq, ChunkEncoder.chunksOf]
    change ((ChunkEncoder.writeChunks _ _ _ (ChunkEncoder.pieces 2 [1, 2, 3])).flatten, _) = _
    rw [hpieces]
    exact Prod.ext rfl rfl
  intro decoder message unfinished written
  have hunfinished : ({ chunkSize := 2 } : ChunkDecoder).decode unfinished =
      (.ok none, decoder, []) :=
    (ChunkDecoder.decode_of_taken_none rfl).trans (ChunkDecoder.decode_of_starved rfl)
  have hsendable : message.IsSendable :=
    ⟨(by decide : ChunkHeader.CanName 3), (by decide : ([1, 2, 3] : Bytes).length ≤ 0xFFFFFF)⟩
  have hmaximum : message.payload.length ≤ decoder.maximum.toNat :=
    (by decide : 3 ≤ (16777216 : UInt32).toNat)
  have hall := decode_encode_of_any_decoder decoder (by decide : (1 : UInt32) ≤ 2)
    hsendable hmaximum [0xC3]
  have hwritten : (({} : ChunkEncoder).setChunkSize decoder.chunkSize).encode message = _ :=
    hencode
  rw [hwritten] at hall
  obtain ⟨hanswer, hrest, -, -⟩ := hall
  exact ⟨hunfinished, congrArg Prod.fst hencode, hanswer, hrest⟩

end LiveRelay
