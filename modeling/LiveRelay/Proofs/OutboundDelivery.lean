import LiveRelay.Outbound
import LiveRelay.Inbound
import LiveRelay.Proofs.ChunkRoundTrip
import LiveRelay.Proofs.ControlMessages

/-!
# What a connection writes

The writer takes messages off the queue while others are put into it.  How
they fall into batches depends on when they come, on how much a batch may hold
and on how the writing ends.  The bytes do not: together the batches are the
accepted messages, each written once and in order.

A chunk size that a message announces holds for what is written behind it.
The other end sets the size when it has read the message, so both change
between the same two messages, and everything is read back.
-/

namespace LiveRelay

/-! ## Batches -/

namespace OutboundWriter

theorem writeAll_append (writer : OutboundWriter) (first second : List OutboundMessage) :
    writer.writeAll (first ++ second) =
      ((writer.writeAll first).1 ++ ((writer.writeAll first).2.writeAll second).1,
        ((writer.writeAll first).2.writeAll second).2) := by
  induction first generalizing writer with
  | nil => rfl
  | cons message first ih => simp [writeAll, ih]

/-- A batch is filled with the messages that come first. -/
theorem exists_fill (limit : Nat) (writer : OutboundWriter) (collected : Bytes)
    (messages : List OutboundMessage) :
    ∃ taken left, messages = taken ++ left ∧
      fill limit writer collected messages =
        (collected ++ (writer.writeAll taken).1, (writer.writeAll taken).2, left) := by
  induction messages generalizing writer collected with
  | nil => exact ⟨[], [], rfl, by simp [fill, writeAll]⟩
  | cons message messages ih =>
      by_cases hfull : collected.reaches limit = true
      · refine ⟨[], message :: messages, rfl, ?_⟩
        simp [fill, hfull, writeAll]
      · obtain ⟨taken, left, hsplit, hfill⟩ :=
          ih (writer.write message).2 (collected ++ (writer.write message).1)
        refine ⟨message :: taken, left, by rw [hsplit, List.cons_append], ?_⟩
        simp only [fill, if_neg hfull, hfill, writeAll, List.append_assoc]

theorem exists_batch (limit : Nat) (writer : OutboundWriter)
    (messages : List OutboundMessage) :
    ∃ taken left, messages = taken ++ left ∧
      batch limit writer messages =
        ((writer.writeAll taken).1, (writer.writeAll taken).2, left) := by
  cases messages with
  | nil => exact ⟨[], [], rfl, rfl⟩
  | cons message messages =>
      obtain ⟨taken, left, hsplit, hfill⟩ :=
        exists_fill limit (writer.write message).2 (writer.write message).1 messages
      exact ⟨message :: taken, left, by rw [hsplit, List.cons_append], hfill⟩

theorem flatten_batches (limit : Nat) (writer : OutboundWriter)
    (messages : List OutboundMessage) :
    (batches limit writer messages).flatten = (writer.writeAll messages).1 := by
  fun_induction batches limit writer messages with
  | case1 => rfl
  | case2 writer message messages batched ih =>
      obtain ⟨taken, left, hsplit, hbatch⟩ :=
        exists_batch limit writer (message :: messages)
      simp only [batched, hbatch] at ih ⊢
      rw [List.flatten_cons, ih, hsplit, writeAll_append]

/-- Whenever the messages of a run arrive, its batches are the messages in
order. -/
theorem flatten_run (limit : Nat) (ending : WriterEnd) (writer : OutboundWriter)
    (waiting : List OutboundMessage) (arrivals : List (List OutboundMessage)) :
    (run limit ending writer waiting arrivals).flatten =
      (writer.writeAll (waiting ++ arrivals.flatten)).1 := by
  induction arrivals generalizing writer waiting with
  | nil =>
      cases ending with
      | queueClosed => simp [run, flatten_batches]
      | shutdown => simp [run]
  | cons group groups ih =>
      obtain ⟨taken, left, hsplit, hbatch⟩ := exists_batch limit writer (waiting ++ group)
      simp only [run, hbatch, List.flatten_cons, ih]
      rw [← List.append_assoc waiting, hsplit, List.append_assoc taken,
        writeAll_append writer taken]

end OutboundWriter

/-! ## The writer at work -/

/-- The writer of a connection while messages are put into its queue. -/
structure Dispatch where
  queue : OutboundQueue := {}
  pool : BufferPool := {}
  writer : OutboundWriter := {}
  /-- The batch that is being put together. -/
  batch : Option Bytes := none
  /-- What was written, a batch at a time. -/
  written : List Bytes := []
  /-- What the queue has accepted, oldest first. -/
  accepted : List OutboundMessage := []

inductive DispatchTurn where
  | sent (message : OutboundMessage)
  /-- The writer takes the next message, into a new batch or into one that has
  room left. -/
  | taken
  /-- The batch is written, because it is full or because nothing waits. -/
  | flushed

namespace DispatchTurn

def message? : DispatchTurn → Option OutboundMessage
  | .sent message => some message
  | _ => none

end DispatchTurn

namespace Dispatch

def hasRoom (limit : Nat) (dispatch : Dispatch) : Bool :=
  match dispatch.batch with
  | some collected => !collected.reaches limit
  | none => true

def send (dispatch : Dispatch) (message : OutboundMessage) : Dispatch :=
  let (isAccepted, queue, pool) := dispatch.queue.send dispatch.pool message
  { dispatch with
    queue := queue
    pool := pool
    accepted :=
      if isAccepted then dispatch.accepted ++ [message] else dispatch.accepted }

/-- The claim of a message is given up once its chunks have been copied. -/
def take (limit : Nat) (dispatch : Dispatch) : Dispatch :=
  if dispatch.hasRoom limit then
    match dispatch.queue.receive? with
    | none => dispatch
    | some (message, queue) =>
        let (bytes, writer) := dispatch.writer.write message
        { dispatch with
          queue := queue
          pool := dispatch.pool.releaseAll message.payload.buffer?.toList
          writer := writer
          batch := some (dispatch.batch.getD [] ++ bytes) }
  else dispatch

def flush (limit : Nat) (dispatch : Dispatch) : Dispatch :=
  match dispatch.batch with
  | none => dispatch
  | some collected =>
      if dispatch.hasRoom limit && !dispatch.queue.messages.isEmpty then dispatch
      else { dispatch with batch := none, written := dispatch.written ++ [collected] }

/-- A turn that the writer cannot take changes nothing. -/
def after (limit : Nat) (dispatch : Dispatch) : DispatchTurn → Dispatch
  | .sent message => dispatch.send message
  | .taken => dispatch.take limit
  | .flushed => dispatch.flush limit

def run (limit : Nat) (dispatch : Dispatch) (turns : List DispatchTurn) : Dispatch :=
  turns.foldl (after limit) dispatch

/-- All that is written when the writing ends.  A batch that has been begun is
filled and written first. -/
def finish (limit : Nat) (ending : WriterEnd) (dispatch : Dispatch) : List Bytes :=
  let waiting := dispatch.queue.messages
  match dispatch.batch with
  | none =>
      dispatch.written ++ OutboundWriter.run limit ending dispatch.writer waiting []
  | some collected =>
      let (bytes, writer, waiting) :=
        OutboundWriter.fill limit dispatch.writer collected waiting
      dispatch.written ++ bytes :: OutboundWriter.run limit ending writer waiting []

/-- What was accepted has been taken or waits, and what was taken has been
written or is in the batch. -/
structure Delivers (dispatch : Dispatch) (taken : List OutboundMessage) : Prop where
  accepted_eq : dispatch.accepted = taken ++ dispatch.queue.messages
  writeAll_eq : ({} : OutboundWriter).writeAll taken =
    (dispatch.written.flatten ++ dispatch.batch.getD [], dispatch.writer)

variable {dispatch : Dispatch} {taken : List OutboundMessage}

theorem delivers_start (pool : BufferPool) : Delivers { pool := pool } [] :=
  ⟨rfl, rfl⟩

theorem Delivers.afterSend (hdelivers : dispatch.Delivers taken)
    (message : OutboundMessage) : (dispatch.send message).Delivers taken := by
  cases hopen : dispatch.queue.isOpen with
  | true =>
      refine ⟨?_, hdelivers.writeAll_eq⟩
      simp [send, OutboundQueue.send, hopen, hdelivers.accepted_eq]
  | false =>
      refine ⟨?_, hdelivers.writeAll_eq⟩
      simp [send, OutboundQueue.send, hopen, hdelivers.accepted_eq]

theorem Delivers.afterTake (hdelivers : dispatch.Delivers taken) (limit : Nat) :
    ∃ next, (dispatch.take limit).Delivers next := by
  unfold take
  split
  · cases hmessages : dispatch.queue.messages with
    | nil =>
        refine ⟨taken, ?_⟩
        simp only [OutboundQueue.receive?, hmessages]
        exact hdelivers
    | cons message messages =>
        refine ⟨taken ++ [message], ?_, ?_⟩
        · simp [OutboundQueue.receive?, hmessages, hdelivers.accepted_eq]
        · simp [OutboundQueue.receive?, hmessages, OutboundWriter.writeAll_append,
            hdelivers.writeAll_eq, OutboundWriter.writeAll]
  · exact ⟨taken, hdelivers⟩

theorem Delivers.afterFlush (hdelivers : dispatch.Delivers taken) (limit : Nat) :
    (dispatch.flush limit).Delivers taken := by
  unfold flush
  cases hbatch : dispatch.batch with
  | none => exact hdelivers
  | some collected =>
      simp only
      split
      · exact hdelivers
      · refine ⟨hdelivers.accepted_eq, ?_⟩
        rw [hdelivers.writeAll_eq, hbatch]
        simp

theorem Delivers.afterTurn (hdelivers : dispatch.Delivers taken) (limit : Nat)
    (turn : DispatchTurn) : ∃ next, (dispatch.after limit turn).Delivers next := by
  cases turn with
  | sent message => exact ⟨taken, hdelivers.afterSend message⟩
  | taken => exact hdelivers.afterTake limit
  | flushed => exact ⟨taken, hdelivers.afterFlush limit⟩

theorem Delivers.afterRun (hdelivers : dispatch.Delivers taken) (limit : Nat)
    (turns : List DispatchTurn) : ∃ next, (dispatch.run limit turns).Delivers next := by
  induction turns generalizing dispatch taken with
  | nil => exact ⟨taken, hdelivers⟩
  | cons turn turns ih =>
      obtain ⟨next, hnext⟩ := hdelivers.afterTurn limit turn
      exact ih hnext

theorem Delivers.flatten_finish (hdelivers : dispatch.Delivers taken) (limit : Nat)
    (ending : WriterEnd) :
    (dispatch.finish limit ending).flatten =
      (({} : OutboundWriter).writeAll dispatch.accepted).1 := by
  rw [hdelivers.accepted_eq, OutboundWriter.writeAll_append, hdelivers.writeAll_eq]
  unfold finish
  cases hbatch : dispatch.batch with
  | none =>
      simp only [List.flatten_append, OutboundWriter.flatten_run]
      simp
  | some collected =>
      obtain ⟨first, left, hsplit, hfill⟩ :=
        OutboundWriter.exists_fill limit dispatch.writer collected dispatch.queue.messages
      simp only [hfill, List.flatten_append, List.flatten_cons,
        OutboundWriter.flatten_run]
      rw [hsplit, List.flatten_nil, List.append_nil, OutboundWriter.writeAll_append]
      simp

/-! ## What is accepted -/

theorem isOpen_after (limit : Nat) (dispatch : Dispatch) (turn : DispatchTurn) :
    (dispatch.after limit turn).queue.isOpen = dispatch.queue.isOpen := by
  cases turn with
  | sent message =>
      simp only [after, send, OutboundQueue.send]
      split <;> rfl
  | taken =>
      simp only [after, take, OutboundQueue.receive?]
      split
      · cases dispatch.queue.messages <;> rfl
      · rfl
  | flushed =>
      simp only [after, flush]
      split
      · rfl
      · split <;> rfl

theorem accepted_after {limit : Nat} (hopen : dispatch.queue.isOpen = true)
    (turn : DispatchTurn) :
    (dispatch.after limit turn).accepted =
      dispatch.accepted ++ turn.message?.toList := by
  cases turn with
  | sent message => simp [after, send, OutboundQueue.send, hopen, DispatchTurn.message?]
  | taken =>
      simp only [after, take, OutboundQueue.receive?, DispatchTurn.message?]
      split
      · cases dispatch.queue.messages <;> simp
      · simp
  | flushed =>
      simp only [after, flush, DispatchTurn.message?]
      split
      · simp
      · split <;> simp

/-- An open queue accepts whatever is sent. -/
theorem accepted_run {limit : Nat} (hopen : dispatch.queue.isOpen = true)
    (turns : List DispatchTurn) :
    (dispatch.run limit turns).accepted =
      dispatch.accepted ++ turns.filterMap DispatchTurn.message? := by
  induction turns generalizing dispatch with
  | nil => simp [run]
  | cons turn turns ih =>
      have hnext := (isOpen_after limit dispatch turn).trans hopen
      have hothers := ih hnext
      simp only [run, List.foldl_cons] at hothers ⊢
      rw [hothers, accepted_after hopen, List.append_assoc]
      cases hmessage : turn.message? with
      | none => simp [hmessage]
      | some message => simp [hmessage]

end Dispatch

/-! ## The other end -/

namespace OutboundMessage

/-- What the queue may be given: chunks can carry it, and only an announced
chunk size, of at least one byte, has the type of one. -/
structure IsSendable (message : OutboundMessage) : Prop where
  wire : message.toWire.IsSendable
  announces : message.typeId = 1 →
    ∃ size, 1 ≤ size ∧ size ≤ ChunkEncoder.largestChunkSize ∧
      message = .control (.setChunkSize size)

theorem isSendable_setChunkSize {size : UInt32} (hlow : 1 ≤ size)
    (hhigh : size ≤ ChunkEncoder.largestChunkSize) :
    (control (.setChunkSize size)).IsSendable where
  wire :=
    { canName := (by decide : ChunkHeader.CanName 2)
      length_le := by
        show (Bytes.ofWord32 size).length ≤ 0xFFFFFF
        rw [Bytes.ofWord32, Bytes.length_ofNumber]
        decide }
  announces := fun _ => ⟨size, hlow, hhigh, rfl⟩

end OutboundMessage

namespace Message

theorem masked_of_le {size : UInt32} (hsize : size ≤ ChunkEncoder.largestChunkSize) :
    masked size = size := by
  have hlt : size.toNat < 0x80000000 :=
    Nat.lt_succ_of_le (UInt32.le_iff_toNat_le.mp hsize)
  rw [masked, Nat.mod_eq_of_lt hlt, UInt32.ofNat_toNat]

theorem read_setChunkSize {size : UInt32} (hsize : size ≤ ChunkEncoder.largestChunkSize) :
    read (OutboundMessage.control (.setChunkSize size)).toWire =
      .ok (.setChunkSize size) := by
  have hwire : (OutboundMessage.control (.setChunkSize size)).toWire =
      ⟨2, 0, 1, 0, Bytes.ofWord32 size⟩ := rfl
  simp only [hwire, read, argument_ofWord32, Except.map, masked_of_le hsize]
  rfl

/-- Only messages of type 1 set the chunk size. -/
theorem typeId_of_read {wire : WireMessage} {size : UInt32}
    (hread : read wire = .ok (.setChunkSize size)) : wire.typeId = 1 := by
  simp only [read, ofProtocol] at hread
  split at hread
  case h_1 htype => exact htype
  case h_6 =>
    simp only [mapError_eq_ok, readBandwidth] at hread
    split at hread <;> cases hread
  all_goals simp [mapError_eq_ok, map_eq_ok] at hread

end Message

namespace ChunkDecoder

/-- A chunk size that a message announces is set. -/
def obey (decoder : ChunkDecoder) (wire : WireMessage) : ChunkDecoder :=
  match Message.read wire with
  | .ok (.setChunkSize size) => { decoder with chunkSize := size }
  | _ => decoder

theorem obey_setChunkSize {size : UInt32} (hsize : size ≤ ChunkEncoder.largestChunkSize)
    (decoder : ChunkDecoder) :
    decoder.obey (OutboundMessage.control (.setChunkSize size)).toWire =
      { decoder with chunkSize := size } := by
  simp only [obey, Message.read_setChunkSize hsize]

theorem obey_of_typeId {wire : WireMessage} (htype : wire.typeId ≠ 1)
    (decoder : ChunkDecoder) : decoder.obey wire = decoder := by
  unfold obey
  split
  · rename_i hread
    exact absurd (Message.typeId_of_read hread) htype
  · rfl

/-- All messages of a buffer; each one is obeyed before the next is decoded. -/
def drainObeying (decoder : ChunkDecoder) (buffer : Bytes) : Drained :=
  match _hdecode : decoder.decode buffer with
  | (.ok (some message), next, rest) =>
      ((next.obey message).drainObeying rest).precededBy [⟨message, rest⟩]
  | (.ok none, next, rest) => ⟨⟨[], none⟩, next, rest⟩
  | (.error error, next, rest) => ⟨⟨[], some error⟩, next, rest⟩
termination_by buffer.length
decreasing_by exact Inbound.length_decode _hdecode

theorem drainObeying_of_some {decoder next : ChunkDecoder} {buffer rest : Bytes}
    {message : WireMessage}
    (hdecode : decoder.decode buffer = (.ok (some message), next, rest)) :
    decoder.drainObeying buffer =
      ((next.obey message).drainObeying rest).precededBy [⟨message, rest⟩] := by
  conv => lhs; rw [drainObeying]
  split <;> simp_all

theorem drainObeying_nil (decoder : ChunkDecoder) :
    decoder.drainObeying [] = ⟨⟨[], none⟩, decoder, []⟩ := by
  have hdecode : decoder.decode [] = (.ok none, decoder, []) := by
    rw [decode]
    rfl
  rw [drainObeying]
  split <;> simp_all

end ChunkDecoder

namespace OutboundWriter

theorem write_setChunkSize {size : UInt32} (hsize : size ≤ ChunkEncoder.largestChunkSize)
    (writer : OutboundWriter) :
    let message := OutboundMessage.control (.setChunkSize size)
    let (bytes, encoder) := writer.encoder.encode message.toWire
    writer.write message = (bytes, ⟨encoder.setChunkSize size⟩) := by
  intro message
  have hchange : message.chunkSizeChange? = some size := by
    rw [OutboundMessage.chunkSizeChange?, if_pos ⟨rfl, rfl⟩]
    show ((Bytes.ofWord32 size).split? 4).map _ = some size
    simp only [Bytes.split?_of_length (Bytes.length_ofWord32 size), Option.map_some,
      Bytes.word32_ofWord32, Message.masked_of_le hsize]
  simp only [write, hchange]

theorem write_of_typeId {message : OutboundMessage} (htype : message.typeId ≠ 1)
    (writer : OutboundWriter) :
    let (bytes, encoder) := writer.encoder.encode message.toWire
    writer.write message = (bytes, ⟨encoder⟩) := by
  have hchange : message.chunkSizeChange? = none :=
    if_neg fun hannounces => htype hannounces.1
  simp only [write, hchange]

end OutboundWriter

namespace InStep

variable {writer : OutboundWriter} {decoder : ChunkDecoder}

/-- A message comes back, and behind it both ends have the same chunk size. -/
theorem decode_write (hstep : InStep writer.encoder decoder)
    (hpos : 0 < writer.encoder.chunkSize.toNat)
    (hmaximum : 0xFFFFFF ≤ decoder.maximum.toNat)
    {message : OutboundMessage} (hsendable : message.IsSendable) (more : Bytes) :
    ∃ next,
      decoder.decode ((writer.write message).1 ++ more) =
        (.ok (some message.toWire), next, more) ∧
      InStep (writer.write message).2.encoder (next.obey message.toWire) ∧
      0 < (writer.write message).2.encoder.chunkSize.toNat ∧
      (next.obey message.toWire).maximum = decoder.maximum := by
  have hlength := Nat.le_trans hsendable.wire.length_le hmaximum
  obtain ⟨next, hdecode, hnext, hnextMaximum⟩ :=
    hstep.decode_encode hsendable.wire hpos hlength more
  by_cases htype : message.typeId = 1
  · obtain ⟨size, hlow, hhigh, rfl⟩ := hsendable.announces htype
    have hresized := hnext.resize hlow hhigh
    simp only [OutboundWriter.write_setChunkSize hhigh]
    refine ⟨next, hdecode, ?_⟩
    rw [ChunkDecoder.obey_setChunkSize hhigh]
    refine ⟨hresized, ?_, hnextMaximum⟩
    rw [ChunkEncoder.setChunkSize_of_mem hlow hhigh]
    exact UInt32.le_iff_toNat_le.mp hlow
  · simp only [OutboundWriter.write_of_typeId htype]
    refine ⟨next, hdecode, ?_⟩
    rw [ChunkDecoder.obey_of_typeId htype]
    exact ⟨hnext, hpos, hnextMaximum⟩

/-- From ends in step on, whatever is written is read back and nothing else. -/
theorem holds_drainObeying (hstep : InStep writer.encoder decoder)
    (hpos : 0 < writer.encoder.chunkSize.toNat)
    (hmaximum : 0xFFFFFF ≤ decoder.maximum.toNat)
    {messages : List OutboundMessage}
    (hsendable : ∀ message ∈ messages, message.IsSendable) :
    (decoder.drainObeying (writer.writeAll messages).1).Holds
      (messages.map OutboundMessage.toWire) := by
  induction messages generalizing writer decoder with
  | nil =>
      rw [OutboundWriter.writeAll, ChunkDecoder.drainObeying_nil]
      exact ⟨rfl, rfl, rfl⟩
  | cons message messages ih =>
      obtain ⟨next, hdecode, hnext, hnextPos, hnextMaximum⟩ :=
        hstep.decode_write hpos hmaximum (hsendable message List.mem_cons_self)
          ((writer.write message).2.writeAll messages).1
      have hothers := ih hnext hnextPos (by rw [hnextMaximum]; exact hmaximum)
        fun other hother => hsendable other (List.mem_cons_of_mem _ hother)
      rw [OutboundWriter.writeAll, ChunkDecoder.drainObeying_of_some hdecode]
      refine ⟨?_, hothers.error_eq, hothers.rest_eq⟩
      rw [List.map_cons, ← hothers.messages_eq]
      rfl

end InStep

/-- Whenever messages are sent, whenever the writer takes them and writes a
batch, and however the writing ends: the queue accepts every message, what is
written is the written form of the accepted messages, and a fresh decoder that
sets each chunk size when it is announced reads exactly these messages. -/
theorem holds_drainObeying_finish (limit : Nat) (ending : WriterEnd) (pool : BufferPool)
    (turns : List DispatchTurn)
    (hsendable : ∀ message, .sent message ∈ turns → message.IsSendable) :
    let accepted := turns.filterMap DispatchTurn.message?
    let last := ({ pool := pool } : Dispatch).run limit turns
    let written := (last.finish limit ending).flatten
    last.accepted = accepted ∧
      written = (({} : OutboundWriter).writeAll accepted).1 ∧
      (({} : ChunkDecoder).drainObeying written).Holds
        (accepted.map OutboundMessage.toWire) := by
  intro accepted last written
  have haccepted : last.accepted = accepted := Dispatch.accepted_run rfl turns
  obtain ⟨taken, hdelivers⟩ := (Dispatch.delivers_start pool).afterRun limit turns
  have hwritten : written = (({} : OutboundWriter).writeAll accepted).1 := by
    rw [← haccepted]
    exact hdelivers.flatten_finish limit ending
  have hall : ∀ message ∈ accepted, message.IsSendable := by
    intro message hmessage
    obtain ⟨turn, hturn, hsent⟩ := List.mem_filterMap.mp hmessage
    cases turn with
    | sent other =>
        rw [← Option.some.inj hsent]
        exact hsendable other hturn
    | taken => cases hsent
    | flushed => cases hsent
  refine ⟨haccepted, hwritten, ?_⟩
  rw [hwritten]
  exact (InStep.start 128 16777216).holds_drainObeying (by decide) (by decide) hall

/-- A chunk size of one byte is announced in the middle of a batch, and what
comes last waits when the writing is ended. -/
theorem holds_drainObeying_finish_of_resizing :
    let frame : OutboundMessage := ⟨65599, 0xFFFFFFFF, 9, 1, .shared [1, 2, 3]⟩
    let turns : List DispatchTurn :=
      [.sent frame, .taken, .sent (.control (.setChunkSize 1)), .taken, .sent frame,
        .taken, .flushed, .sent (.control (.setChunkSize 4096)), .sent frame]
    let written := (({} : Dispatch).run 32 turns).finish 32 .shutdown
    (({} : ChunkDecoder).drainObeying written.flatten).Holds
      ([frame, .control (.setChunkSize 1), frame, .control (.setChunkSize 4096),
        frame].map OutboundMessage.toWire) := by
  intro frame turns written
  refine (holds_drainObeying_finish 32 .shutdown {} turns ?_).2.2
  have hframe : frame.IsSendable := ⟨⟨by decide, by decide⟩, fun htype => by cases htype⟩
  intro message hmessage
  simp only [turns, List.mem_cons, DispatchTurn.sent.injEq, reduceCtorEq,
    List.not_mem_nil, or_false, false_or] at hmessage
  rcases hmessage with rfl | rfl | rfl | rfl | rfl
  · exact hframe
  · exact OutboundMessage.isSendable_setChunkSize (by decide) (by decide)
  · exact hframe
  · exact OutboundMessage.isSendable_setChunkSize (by decide) (by decide)
  · exact hframe

end LiveRelay
