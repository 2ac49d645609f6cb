import LiveRelay.Inbound
import LiveRelay.Proofs.ChunkRoundTrip
import LiveRelay.Proofs.Faults

/-!
# Chunks without faults

The chunk reader again, with every cut where it is made.  A header is looked at in
place, its size is known from the first byte on, and only then header and payload are
taken.  The payload that is missing is the length of the message less what has been
collected, and this is where the reader relies on what it did before: nothing on a
chunk stream is ever longer than its header says, whether the message before it was
aborted, superseded or cut short by a new chunk size.
-/

namespace LiveRelay

open Partial

/-! ## Headers -/

namespace ChunkHeader

theorem suffix_basic? {buffer rest : Bytes} {format : Nat} {chunkStream : UInt32}
    (hbasic : basic? buffer = some (format, chunkStream, rest)) : rest <:+ buffer := by
  unfold basic? at hbasic
  repeat' split at hbasic
  all_goals simp only [Option.some.injEq, Prod.mk.injEq, reduceCtorEq] at hbasic
  all_goals
    obtain ⟨-, -, rfl⟩ := hbasic
    simp [List.suffix_cons_iff]

theorem suffix_split? {count : Nat} {bytes taken rest : Bytes}
    (hsplit : bytes.split? count = some (taken, rest)) : rest <:+ bytes :=
  ⟨taken, (Bytes.split?_eq_some_iff.mp hsplit).1.symm⟩

theorem suffix_time? {short bytes rest : Bytes} {time : TimeField}
    (htime : time? short bytes = some (time, rest)) : rest <:+ bytes := by
  simp only [time?] at htime
  split at htime
  · simp only [Option.map_eq_some_iff, Prod.exists, Prod.mk.injEq] at htime
    obtain ⟨_, behind, hsplit, -, rfl⟩ := htime
    exact suffix_split? hsplit
  · obtain ⟨-, rfl⟩ := Prod.mk.inj (Option.some.inj htime)
    exact List.suffix_refl bytes

theorem suffix_change? {format : Nat} {lastExtended : Bool} {bytes rest : Bytes}
    {change : HeaderChange}
    (hchange : change? format lastExtended bytes = some (change, rest)) : rest <:+ bytes := by
  unfold change? at hchange
  split at hchange
  all_goals
    simp only [bind, Option.bind_eq_some_iff, Prod.exists, pure, Option.some.injEq,
      Prod.mk.injEq] at hchange
  · obtain ⟨_, _, hsplit, _, _, htime, -, rfl⟩ := hchange
    exact (suffix_time? htime).trans (suffix_split? hsplit)
  · obtain ⟨_, _, hsplit, _, _, htime, -, rfl⟩ := hchange
    exact (suffix_time? htime).trans (suffix_split? hsplit)
  · obtain ⟨_, _, hsplit, _, _, htime, -, rfl⟩ := hchange
    exact (suffix_time? htime).trans (suffix_split? hsplit)
  · obtain ⟨_, _, hsplit, -, rfl⟩ := hchange
    exact suffix_split? hsplit

theorem suffix_read {last : UInt32 → Option LastHeader} {buffer rest : Bytes}
    {chunkStream : UInt32} {change : HeaderChange}
    (hread : read last buffer = .ok (some (chunkStream, change, rest))) :
    rest <:+ buffer := by
  unfold read at hread
  split at hread
  · cases hread
  · rename_i hbasic
    split at hread
    · cases hread
    · simp only [Except.ok.injEq, Option.map_eq_some_iff, Prod.exists, Prod.mk.injEq] at hread
      obtain ⟨_, _, hchange, -, -, rfl⟩ := hread
      exact (suffix_change? hchange).trans (suffix_basic? hbasic)

/-- The size of the fields between the basic header and the extension. -/
def fieldsSize : (format : Nat) → Nat
  | 0 => 11
  | 1 => 7
  | 2 => 3
  | _ => 0

/-- The fields of a header; those that a format leaves out are zero. -/
structure Fields where
  time : Nat
  length : UInt32
  typeId : UInt8
  streamId : UInt32

namespace Fields

def ofBytes (bytes : Bytes) : Fields where
  time := Bytes.number (bytes.take 3)
  length := Bytes.word32 ((bytes.drop 3).take 3)
  typeId := UInt8.ofNat (Bytes.number ((bytes.drop 6).take 1))
  streamId := Bytes.word32 ((bytes.drop 7).take 4).reverse

/-- What a header of the given format says with these fields. -/
def change (fields : Fields) (time : TimeField) : (format : Nat) → HeaderChange
  | 0 => .full time fields.length fields.typeId fields.streamId
  | 1 => .sameStream time fields.length fields.typeId
  | 2 => .sameLength time
  | _ => .continued

end Fields

def guardedFields (format : Nat) (bytes : Bytes) : Partial Fields := do
  let (time, bytes) ← if format < 3 then splitAt 3 bytes else pure ([], bytes)
  let (length, bytes) ← if format < 2 then splitAt 3 bytes else pure ([], bytes)
  let (typeId, bytes) ← if format < 2 then splitAt 1 bytes else pure ([], bytes)
  let (streamId, _) ← if format < 1 then splitAt 4 bytes else pure ([], bytes)
  return ⟨Bytes.number time, Bytes.word32 length, UInt8.ofNat (Bytes.number typeId),
    Bytes.word32 streamId.reverse⟩

theorem guardedFields_eq {format : Nat} {bytes : Bytes}
    (hsize : bytes.length = fieldsSize format) :
    guardedFields format bytes = .ok (.ofBytes bytes) := by
  match format with
  | 0 =>
      change bytes.length = 11 at hsize
      simp [guardedFields, splitAt, hsize, Fields.ofBytes]
  | 1 =>
      change bytes.length = 7 at hsize
      have hlast : bytes.drop 7 = [] := List.drop_of_length_le (by omega)
      simp [guardedFields, splitAt, hsize, Fields.ofBytes, hlast]
  | 2 =>
      change bytes.length = 3 at hsize
      have hlater : ∀ start, 3 ≤ start → bytes.drop start = [] := fun start hstart =>
        List.drop_of_length_le (by omega)
      simp [guardedFields, splitAt, hsize, Fields.ofBytes, hlater]
  | format + 3 =>
      obtain rfl := List.eq_nil_of_length_eq_zero hsize
      have hlarge : ∀ count, count ≤ 3 → ¬format + 3 < count := by omega
      simp [guardedFields, Fields.ofBytes, hlarge]

/-- A header that was looked at in place, and its size with the extension. -/
structure Peeked where
  chunkStream : UInt32
  change : HeaderChange
  size : Nat

/-- The value of the extension at `stop`, and where it ends. -/
def guardedExtension? (buffer : Bytes) (stop : Nat) : Partial (Option (UInt32 × Nat)) :=
  if buffer.length < stop + 4 then return none
  else do
    let extension ← slice buffer stop (stop + 4)
    let (extension, _) ← splitAt 4 extension
    return some (Bytes.word32 extension, stop + 4)

/-- The header of the given format whose basic header ends at `start`. -/
def guardedChange? (format : Nat) (lastExtended : Bool) (buffer : Bytes) (start : Nat) :
    Partial (Option (HeaderChange × Nat)) :=
  let stop := start + fieldsSize format
  if buffer.length < stop then return none
  else do
    let fields ← slice buffer start stop
    let fields ← guardedFields format fields
    let isExtended :=
      if format < 3 then decide (TimeField.threshold ≤ fields.time) else lastExtended
    if isExtended then
      let extension ← guardedExtension? buffer stop
      return extension.map fun found => (fields.change ⟨found.1, true⟩ format, found.2)
    else
      return some (fields.change ⟨UInt32.ofNat fields.time, false⟩ format, stop)

def guardedRead (last : UInt32 → Option LastHeader) (buffer : Bytes) :
    Partial (Except ProtocolError (Option Peeked)) :=
  match basic? buffer with
  | none => return .ok none
  | some (format, chunkStream, rest) =>
      if format ≠ 0 ∧ (last chunkStream).isNone then
        return .error (.missingChunkHeader chunkStream)
      else do
        let lastExtended := ((last chunkStream).getD {}).isExtended
        let change ←
          guardedChange? format lastExtended buffer (buffer.length - rest.length)
        return .ok (change.map fun found => ⟨chunkStream, found.1, found.2⟩)

/-- The headers that have a time are read alike. -/
theorem change?_of_timed {format : Nat} (hformat : format < 3) (lastExtended : Bool)
    {bytes : Bytes} (hfits : fieldsSize format ≤ bytes.length) :
    let fields := bytes.take (fieldsSize format)
    change? format lastExtended bytes =
      (time? (fields.take 3) (bytes.drop (fieldsSize format))).map fun (time, rest) =>
        ((Fields.ofBytes fields).change time format, rest) := by
  have hlength := List.length_take_of_le hfits
  match format, hformat with
  | 0, _ =>
      simp only [fieldsSize] at hfits hlength ⊢
      simp only [change?, Bytes.split?_eq, if_pos hfits, bind, pure, Option.bind_some]
      have hlast : ((bytes.take 11).drop 7).take 4 = (bytes.take 11).drop 7 :=
        List.take_of_length_le (Nat.le_of_eq (by rw [List.length_drop, hlength]))
      cases time? ((bytes.take 11).take 3) (bytes.drop 11) with
      | none => rfl
      | some found =>
          simp only [Option.bind_some, Option.map_some, Fields.change, Fields.ofBytes, hlast]
  | 1, _ =>
      simp only [fieldsSize] at hfits hlength ⊢
      simp only [change?, Bytes.split?_eq, if_pos hfits, bind, pure, Option.bind_some]
      have hlast : ((bytes.take 7).drop 6).take 1 = (bytes.take 7).drop 6 :=
        List.take_of_length_le (Nat.le_of_eq (by rw [List.length_drop, hlength]))
      cases time? ((bytes.take 7).take 3) (bytes.drop 7) with
      | none => rfl
      | some found =>
          simp only [Option.bind_some, Option.map_some, Fields.change, Fields.ofBytes, hlast]
  | 2, _ =>
      simp only [fieldsSize] at hfits hlength ⊢
      simp only [change?, Bytes.split?_eq, if_pos hfits, bind, pure, Option.bind_some]
      have hlast : (bytes.take 3).take 3 = bytes.take 3 :=
        List.take_of_length_le (Nat.le_of_eq hlength)
      rw [hlast]
      cases time? (bytes.take 3) (bytes.drop 3) <;> rfl

theorem change?_of_short {format : Nat} (lastExtended : Bool) {bytes : Bytes}
    (hshort : bytes.length < fieldsSize format) :
    change? format lastExtended bytes = none := by
  have hsplit : bytes.split? (fieldsSize format) = none := by
    rw [Bytes.split?_eq, if_neg (Nat.not_le_of_lt hshort)]
  match format with
  | 0 => exact congrArg (Option.bind · _) hsplit
  | 1 => exact congrArg (Option.bind · _) hsplit
  | 2 => exact congrArg (Option.bind · _) hsplit
  | format + 3 => exact absurd hshort (Nat.not_lt_zero _)

theorem guardedExtension?_eq {buffer : Bytes} {stop : Nat} (hstop : stop ≤ buffer.length) :
    guardedExtension? buffer stop =
      .ok ((Bytes.split? 4 (buffer.drop stop)).map fun found =>
        (Bytes.word32 found.1, buffer.length - found.2.length)) := by
  have hlength : (buffer.drop stop).length = buffer.length - stop := List.length_drop
  unfold guardedExtension?
  rw [Bytes.split?_eq]
  by_cases hshort : buffer.length < stop + 4
  · rw [if_pos hshort, if_neg (by omega)]
    rfl
  · have htaken : ((buffer.drop stop).take 4).length = 4 :=
      List.length_take_of_le (by omega)
    have hend : buffer.length - ((buffer.drop stop).drop 4).length = stop + 4 := by
      rw [List.length_drop, hlength]
      omega
    rw [if_neg hshort, slice_of_le (Nat.le_add_right stop 4) (by omega), ok_bind,
      Nat.add_sub_cancel_left, splitAt_of_le (Nat.le_of_eq htaken.symm), ok_bind,
      if_pos (by omega), List.take_of_length_le (Nat.le_of_eq htaken)]
    simp only [Option.map_some, hend]
    rfl

theorem guardedChange?_eq (format : Nat) (lastExtended : Bool) {buffer : Bytes}
    {start : Nat} (hstart : start ≤ buffer.length) :
    guardedChange? format lastExtended buffer start =
      .ok ((change? format lastExtended (buffer.drop start)).map fun found =>
        (found.1, buffer.length - found.2.length)) := by
  have hlength : (buffer.drop start).length = buffer.length - start := List.length_drop
  unfold guardedChange?
  by_cases hshort : buffer.length < start + fieldsSize format
  · rw [if_pos hshort, change?_of_short lastExtended (by omega)]
    rfl
  · have hbehind : fieldsSize format ≤ (buffer.drop start).length := by omega
    have hstop : buffer.length - (buffer.drop (start + fieldsSize format)).length =
        start + fieldsSize format := by
      rw [List.length_drop]
      omega
    rw [if_neg hshort, slice_of_le (Nat.le_add_right _ _) (by omega), ok_bind,
      Nat.add_sub_cancel_left, guardedFields_eq (List.length_take_of_le hbehind), ok_bind,
      guardedExtension?_eq (by omega)]
    by_cases hformat : format < 3
    · rw [change?_of_timed hformat lastExtended hbehind, List.drop_drop]
      simp only [if_pos hformat, Fields.ofBytes, time?]
      by_cases hlarge : TimeField.threshold ≤
          Bytes.number (((buffer.drop start).take (fieldsSize format)).take 3)
      · simp only [hlarge, decide_true, if_true]
        cases Bytes.split? 4 (buffer.drop (start + fieldsSize format)) <;> rfl
      · simp only [hlarge, decide_false, if_false, Option.map_some, hstop]
        rfl
    · obtain ⟨format, rfl⟩ := Nat.exists_eq_add_of_le' (Nat.le_of_not_lt hformat)
      have hsize : fieldsSize (format + 3) = 0 := rfl
      rw [hsize, Nat.add_zero] at hstop ⊢
      simp only [if_neg hformat, change?]
      cases lastExtended with
      | true =>
          simp only [if_true]
          cases Bytes.split? 4 (buffer.drop start) <;> rfl
      | false =>
          simp only [Bool.false_eq_true, if_false, Bytes.split?_eq, Nat.zero_le, if_true,
            List.drop_zero]
          simp only [bind, Option.bind_some, pure, Option.map_some, hstop]
          rfl

/-- A header is looked at inside the buffer only, and its size is what it takes off
the buffer. -/
theorem guardedRead_eq (last : UInt32 → Option LastHeader) (buffer : Bytes) :
    guardedRead last buffer =
      .ok ((read last buffer).map fun found =>
        found.map fun (chunkStream, change, rest) =>
          ⟨chunkStream, change, buffer.length - rest.length⟩) := by
  unfold guardedRead read
  cases hbasic : basic? buffer with
  | none => rfl
  | some found =>
      obtain ⟨format, chunkStream, rest⟩ := found
      have hrest : buffer.drop (buffer.length - rest.length) = rest :=
        (List.suffix_iff_eq_drop.mp (suffix_basic? hbasic)).symm
      simp only
      split
      · rfl
      · rw [guardedChange?_eq _ _ (Nat.sub_le ..), hrest, ok_bind]
        cases change? format ((last chunkStream).getD {}).isExtended rest <;> rfl

end ChunkHeader

/-! ## Collected payload -/

/-- What waits is not as long as its header says, or it would not wait. -/
def InboundChunks.IsUnfinished (chunks : InboundChunks) : Prop :=
  chunks.collected.size = 0 ∨
    chunks.collected.size < (chunks.header.getD {}).length.toNat

/-- How long the message is that a chunk with this header belongs to. -/
def InboundChunks.lengthAfter (chunks : InboundChunks) (change : HeaderChange) : UInt32 :=
  change.length?.getD (chunks.header.getD {}).length

namespace ChunkDecoder

def IsUnfinished (decoder : ChunkDecoder) : Prop :=
  ∀ chunkStream, (decoder.stream chunkStream).IsUnfinished

variable {decoder : ChunkDecoder}

theorem isUnfinished_of_streams (hstreams : decoder.streams = []) :
    decoder.IsUnfinished := by
  intro chunkStream
  simp [stream, hstreams, InboundChunks.IsUnfinished]

theorem IsUnfinished.setStream (hunfinished : decoder.IsUnfinished) (chunkStream : UInt32)
    {chunks : InboundChunks} (hchunks : chunks.IsUnfinished) :
    (decoder.setStream chunkStream chunks).IsUnfinished := by
  intro other
  rw [stream_setStream]
  split
  · exact hchunks
  · exact hunfinished other

theorem IsUnfinished.abort (hunfinished : decoder.IsUnfinished) (chunkStream : UInt32) :
    (decoder.abort chunkStream).IsUnfinished := by
  unfold ChunkDecoder.abort
  split
  · exact hunfinished
  · exact hunfinished.setStream chunkStream (.inl rfl)

theorem IsUnfinished.afterHeader (hunfinished : decoder.IsUnfinished) (chunkStream : UInt32)
    (change : HeaderChange) : (decoder.afterHeader chunkStream change).IsUnfinished := by
  unfold ChunkDecoder.afterHeader
  split
  · exact hunfinished
  · exact hunfinished.abort chunkStream

theorem IsUnfinished.takePiece (hunfinished : decoder.IsUnfinished) (chunkStream : UInt32)
    (change : HeaderChange) (bytes : Bytes) :
    (decoder.takePiece chunkStream change bytes).2.IsUnfinished := by
  simp only [ChunkDecoder.takePiece]
  split
  · exact hunfinished
  · split
    · exact hunfinished
    · split
      · exact hunfinished.setStream chunkStream (.inl rfl)
      · rename_i hlonger
        exact hunfinished.setStream chunkStream (.inr (Nat.lt_of_not_le hlonger))

theorem IsUnfinished.takeChunk (hunfinished : decoder.IsUnfinished) (buffer : Bytes) :
    (decoder.takeChunk buffer).2.IsUnfinished := by
  unfold ChunkDecoder.takeChunk
  split
  · exact hunfinished
  · exact hunfinished
  · rename_i chunkStream change rest _
    have hseen := hunfinished.afterHeader chunkStream change
    exact hseen.takePiece chunkStream change rest

theorem IsUnfinished.decode (hunfinished : decoder.IsUnfinished) (buffer : Bytes) :
    (decoder.decode buffer).2.1.IsUnfinished := by
  fun_induction ChunkDecoder.decode decoder buffer with
  | case1 decoder buffer rest next htaken ih =>
      have hnext := hunfinished.takeChunk buffer
      rw [htaken] at hnext
      exact ih hnext
  | case2 decoder buffer message rest next htaken =>
      have hnext := hunfinished.takeChunk buffer
      rwa [htaken] at hnext
  | case3 decoder buffer next htaken =>
      have hnext := hunfinished.takeChunk buffer
      rwa [htaken] at hnext
  | case4 decoder buffer error next htaken =>
      have hnext := hunfinished.takeChunk buffer
      rwa [htaken] at hnext

/-- Once a header has been seen, no more has been collected than it asks for. -/
theorem IsUnfinished.size_le (hunfinished : decoder.IsUnfinished) (chunkStream : UInt32)
    (change : HeaderChange) :
    ((decoder.afterHeader chunkStream change).stream chunkStream).collected.size ≤
      (((decoder.afterHeader chunkStream change).stream chunkStream).lengthAfter
        change).toNat := by
  cases change with
  | continued =>
      rcases hunfinished chunkStream with hempty | hshort
      · exact Nat.le_trans (Nat.le_of_eq hempty) (Nat.zero_le _)
      · exact Nat.le_of_lt hshort
  | _ =>
      have hempty := isEmpty_abort decoder chunkStream
      simp only [Collected.isEmpty, beq_iff_eq] at hempty
      exact Nat.le_trans (Nat.le_of_eq hempty) (Nat.zero_le _)

/-! ## One chunk -/

def guardedPieceSize (decoder : ChunkDecoder) (chunkStream : UInt32)
    (change : HeaderChange) : Partial (Except ProtocolError Nat) :=
  let chunks := decoder.stream chunkStream
  let length := chunks.lengthAfter change
  if decoder.maximum < length then
    return .error (.messageTooLarge length decoder.maximum)
  else do
    let missing ← subtract length (UInt32.ofNat chunks.collected.size)
    return .ok (min missing decoder.chunkSize).toNat

def guardedTakePiece (decoder : ChunkDecoder) (peeked : ChunkHeader.Peeked)
    (buffer : Bytes) : Partial (ChunkOutcome × ChunkDecoder) := do
  let chunkStream := peeked.chunkStream
  match ← decoder.guardedPieceSize chunkStream peeked.change with
  | .error error => return (.refused error, decoder)
  | .ok size =>
      if buffer.length < peeked.size + size then return (.starved, decoder)
      else
        let (_, rest) ← splitAt peeked.size buffer
        let chunks := decoder.stream chunkStream
        let header := (chunks.header.getD {}).apply chunks.collected.isEmpty peeked.change
        let piece ← slice rest 0 size
        let collected := chunks.collected.append piece
        let (_, rest) ← splitAt size rest
        if header.length ≤ UInt32.ofNat collected.size then
          let message : WireMessage :=
            { chunkStream := chunkStream, timestamp := header.timestamp,
              typeId := header.typeId, streamId := header.streamId,
              payload := collected.bytes }
          return (.taken (some message) rest,
            decoder.setStream chunkStream ⟨some header, .ofBytes []⟩)
        else
          return (.taken none rest,
            decoder.setStream chunkStream ⟨some header, collected⟩)

def guardedTakeChunk (decoder : ChunkDecoder) (buffer : Bytes) :
    Partial (ChunkOutcome × ChunkDecoder) := do
  match ← ChunkHeader.guardedRead decoder.lastHeader buffer with
  | .error error => return (.refused error, decoder)
  | .ok none => return (.starved, decoder)
  | .ok (some peeked) =>
      (decoder.afterHeader peeked.chunkStream peeked.change).guardedTakePiece peeked buffer

section OneChunk

variable {chunkStream : UInt32} {change : HeaderChange}

theorem toNat_min_word (left right : UInt32) :
    (min left right).toNat = min left.toNat right.toNat := by
  rw [show min left right = if left ≤ right then left else right from rfl, Nat.min_def]
  simp only [UInt32.le_iff_toNat_le]
  split <;> rfl

theorem guardedPieceSize_eq
    (hsize : (decoder.stream chunkStream).collected.size ≤
      ((decoder.stream chunkStream).lengthAfter change).toNat) :
    decoder.guardedPieceSize chunkStream change =
      .ok (decoder.pieceSize chunkStream change) := by
  simp only [guardedPieceSize, pieceSize]
  generalize decoder.stream chunkStream = chunks at hsize ⊢
  have hword : (UInt32.ofNat chunks.collected.size).toNat = chunks.collected.size :=
    UInt32.toNat_ofNat_of_lt'
      (Nat.lt_of_le_of_lt hsize (chunks.lengthAfter change).toNat_lt)
  have hle : UInt32.ofNat chunks.collected.size ≤ chunks.lengthAfter change := by
    rw [UInt32.le_iff_toNat_le, hword]
    exact hsize
  rw [subtract_of_le hle, ok_bind, toNat_min_word, UInt32.toNat_sub_of_le _ _ hle, hword,
    InboundChunks.lengthAfter]
  split <;> rfl

/-- A chunk stream that has collected too much would take it from a smaller number. -/
example :
    guardedPieceSize { streams := [(3, ⟨some { length := 1 }, .ofBytes [0, 0]⟩)] } 3
      .continued = .error .underflow := rfl

/-- With the next piece, what has been collected is still no longer than the
message. -/
theorem size_add_le_of_pieceSize {size : Nat}
    (hsize : (decoder.stream chunkStream).collected.size ≤
      ((decoder.stream chunkStream).lengthAfter change).toNat)
    (hpiece : decoder.pieceSize chunkStream change = .ok size) :
    (decoder.stream chunkStream).collected.size + size ≤
      ((decoder.stream chunkStream).lengthAfter change).toNat := by
  simp only [pieceSize] at hpiece
  split at hpiece
  · cases hpiece
  · obtain rfl := Except.ok.inj hpiece
    rw [InboundChunks.lengthAfter] at hsize ⊢
    omega

/-- What is cut off a buffer and copied is the chunk that is taken. -/
theorem guardedTakePiece_eq {buffer rest : Bytes} (hrest : rest <:+ buffer)
    (hsize : (decoder.stream chunkStream).collected.size ≤
      ((decoder.stream chunkStream).lengthAfter change).toNat) :
    decoder.guardedTakePiece ⟨chunkStream, change, buffer.length - rest.length⟩ buffer =
      .ok (decoder.takePiece chunkStream change rest) := by
  have hdrop : buffer.drop (buffer.length - rest.length) = rest :=
    (List.suffix_iff_eq_drop.mp hrest).symm
  have hlength := hrest.length_le
  simp only [guardedTakePiece, takePiece, guardedPieceSize_eq hsize, ok_bind]
  cases hpiece : decoder.pieceSize chunkStream change with
  | error error => rfl
  | ok size =>
      have hcollected := size_add_le_of_pieceSize hsize hpiece
      simp only [Bytes.split?_eq]
      by_cases hshort : rest.length < size
      · rw [if_pos (by omega), if_neg (by omega)]
        rfl
      · have hwhole := Nat.le_of_not_lt hshort
        have hword : (UInt32.ofNat ((decoder.stream chunkStream).collected.append
            (rest.take size)).size).toNat =
              ((decoder.stream chunkStream).collected.append (rest.take size)).size := by
          refine UInt32.toNat_ofNat_of_lt' (Nat.lt_of_le_of_lt ?_
            ((decoder.stream chunkStream).lengthAfter change).toNat_lt)
          rw [Collected.size_append, List.length_take_of_le hwhole]
          exact hcollected
        rw [if_neg (by omega), if_pos hwhole, splitAt_of_le (Nat.sub_le ..), ok_bind, hdrop,
          slice_of_le (Nat.zero_le _) hwhole, ok_bind, splitAt_of_le hwhole, ok_bind]
        simp only [List.drop_zero, Nat.sub_zero, UInt32.le_iff_toNat_le, hword]
        split <;> rfl

/-- Whatever a buffer holds, a chunk is looked at and taken inside it. -/
theorem guardedTakeChunk_eq (hunfinished : decoder.IsUnfinished) (buffer : Bytes) :
    decoder.guardedTakeChunk buffer = .ok (decoder.takeChunk buffer) := by
  unfold guardedTakeChunk takeChunk
  rw [ChunkHeader.guardedRead_eq, ok_bind]
  cases hread : ChunkHeader.read decoder.lastHeader buffer with
  | error error => rfl
  | ok found =>
      cases found with
      | none => rfl
      | some found =>
          obtain ⟨chunkStream, change, rest⟩ := found
          exact guardedTakePiece_eq (ChunkHeader.suffix_read hread)
            (hunfinished.size_le chunkStream change)

end OneChunk

/-! ## Messages -/

def guardedDecode (decoder : ChunkDecoder) (buffer : Bytes) :
    Partial (Except ProtocolError (Option WireMessage) × ChunkDecoder × Bytes) :=
  match decoder.guardedTakeChunk buffer with
  | .error fault => .error fault
  | .ok (.taken none rest, next) =>
      if rest.length < buffer.length then next.guardedDecode rest else .error .noProgress
  | .ok (.taken (some message) rest, next) => .ok (.ok (some message), next, rest)
  | .ok (.starved, next) => .ok (.ok none, next, buffer)
  | .ok (.refused error, next) => .ok (.error error, next, buffer)
termination_by buffer.length

theorem guardedDecode_eq (hunfinished : decoder.IsUnfinished) (buffer : Bytes) :
    decoder.guardedDecode buffer = .ok (decoder.decode buffer) := by
  fun_induction ChunkDecoder.decode decoder buffer with
  | case1 decoder buffer rest next htaken ih =>
      have hnext := hunfinished.takeChunk buffer
      rw [htaken] at hnext
      rw [guardedDecode, guardedTakeChunk_eq hunfinished, htaken]
      simp only [if_pos (length_takeChunk htaken), ih hnext]
  | case2 decoder buffer message rest next htaken =>
      rw [guardedDecode, guardedTakeChunk_eq hunfinished, htaken]
  | case3 decoder buffer next htaken =>
      rw [guardedDecode, guardedTakeChunk_eq hunfinished, htaken]
  | case4 decoder buffer error next htaken =>
      rw [guardedDecode, guardedTakeChunk_eq hunfinished, htaken]

end ChunkDecoder

end LiveRelay
