import LiveRelay.Proofs.ChunkRoundTrip

/-!
# Messages of any length

A header has three bytes for the length of its message, and an encoder that is
given a longer message writes the low three bytes of its length.  What goes out
then is the front of the message that these bytes announce, cut into chunks as
it would be on its own, and behind it the rest of the payload.  The decoder
completes the front and takes what follows for chunks.  So a message comes back
exactly if three bytes hold its length.
-/

namespace LiveRelay

/-! ## The length that is announced -/

namespace Bytes

theorem ofNumber_mod (width value : Nat) :
    ofNumber width (value % capacity width) = ofNumber width value := by
  induction width generalizing value with
  | zero => rfl
  | succ width ih =>
      have hfirst : value % (capacity width * 256) / capacity width =
          value / capacity width % 256 := Nat.mod_mul_right_div_self ..
      have hothers : value % (capacity width * 256) % capacity width =
          value % capacity width := Nat.mod_mul_right_mod ..
      simp only [ofNumber, capacity, hfirst]
      rw [← ih (value % (capacity width * 256)), hothers, ih]
      congr 1
      exact UInt8.ofNat_mod_size

/-- Three bytes say no more of a length than its remainder. -/
theorem ofWord24_ofNat_mod (value : Nat) :
    ofWord24 (UInt32.ofNat (value % capacity 3)) = ofWord24 (UInt32.ofNat value) := by
  have hwhole : value % 2 ^ 32 % capacity 3 = value % capacity 3 :=
    Nat.mod_mod_of_dvd value (by decide)
  have hpart : value % capacity 3 % 2 ^ 32 = value % capacity 3 :=
    Nat.mod_eq_of_lt (Nat.lt_trans (Nat.mod_lt value (by decide)) (by decide))
  simp only [ofWord24, UInt32.toNat_ofNat', hpart]
  rw [← ofNumber_mod 3 (value % 2 ^ 32), hwhole]

end Bytes

namespace WireMessage

/-- The front of a message, of the length that three bytes announce for it. -/
def front (message : WireMessage) : WireMessage :=
  { message with
    payload := message.payload.take (message.payload.length % Bytes.capacity 3) }

theorem length_front (message : WireMessage) :
    message.front.payload.length = message.payload.length % Bytes.capacity 3 :=
  List.length_take_of_le (Nat.mod_le ..)

theorem isSendable_front {message : WireMessage}
    (hname : ChunkHeader.CanName message.chunkStream) : message.front.IsSendable where
  canName := hname
  length_le := by
    rw [length_front]
    exact Nat.le_of_lt_succ (Nat.mod_lt _ (by decide))

theorem front_eq_self_iff (message : WireMessage) :
    message.front = message ↔ message.payload.length ≤ 0xFFFFFF := by
  have hcapacity : Bytes.capacity 3 = 0xFFFFFF + 1 := rfl
  constructor
  · intro hsame
    rw [← hsame, length_front, hcapacity]
    exact Nat.le_of_lt_succ (Nat.mod_lt _ (Nat.succ_pos _))
  · intro hshort
    have hkept : message.payload.length % Bytes.capacity 3 = message.payload.length := by
      rw [hcapacity]
      exact Nat.mod_eq_of_lt (Nat.lt_succ_of_le hshort)
    simp only [front, hkept, List.take_length]

end WireMessage

/-! ## The bytes that are written -/

namespace ChunkEncoder

section Written

variable (chunkStream : UInt32) (change : HeaderChange) (extension : Bytes) {size : Nat}

theorem flatten_writeChunks_of_le (hpos : 0 < size) {bytes : Bytes}
    (hle : bytes.length ≤ size) :
    (writeChunks chunkStream change extension (pieces size bytes)).flatten =
      writeHeader chunkStream change extension ++ bytes := by
  rw [pieces_of_le hpos hle]
  exact List.flatten_singleton

theorem flatten_writeChunks_of_lt (hpos : 0 < size) {bytes : Bytes}
    (hlt : size < bytes.length) :
    (writeChunks chunkStream change extension (pieces size bytes)).flatten =
      writeHeader chunkStream change extension ++ bytes.take size ++
        (writeChunks chunkStream .continued extension
          (pieces size (bytes.drop size))).flatten := by
  rw [pieces_of_lt hpos hlt, writeChunks_cons, List.flatten_cons]

theorem length_le_flatten_writeChunks (hpos : 0 < size) (bytes : Bytes) :
    bytes.length ≤
      (writeChunks chunkStream change extension (pieces size bytes)).flatten.length := by
  induction hlength : bytes.length using Nat.strongRecOn generalizing bytes change with
  | ind length ih =>
      rcases Nat.lt_or_ge size bytes.length with hlt | hle
      · have hshorter : (bytes.drop size).length < length := by
          rw [List.length_drop]
          omega
        have hothers := ih _ hshorter .continued (bytes.drop size) rfl
        rw [flatten_writeChunks_of_lt chunkStream change extension hpos hlt]
        simp only [List.length_append, List.length_take, List.length_drop] at hothers ⊢
        omega
      · rw [flatten_writeChunks_of_le chunkStream change extension hpos hle,
          List.length_append]
        omega

/-- A front that ends in the first chunk. -/
theorem flatten_writeChunks_take_of_le (hpos : 0 < size) {bytes : Bytes} {kept : Nat}
    (hkept : kept ≤ bytes.length) (hshort : kept ≤ size) :
    ∃ rest,
      (writeChunks chunkStream change extension (pieces size bytes)).flatten =
          (writeChunks chunkStream change extension
            (pieces size (bytes.take kept))).flatten ++ rest ∧
        bytes.length - kept ≤ rest.length := by
  have hwithin : (bytes.take kept).length ≤ size := by
    rw [List.length_take_of_le hkept]
    exact hshort
  rw [flatten_writeChunks_of_le chunkStream change extension hpos hwithin]
  rcases Nat.lt_or_ge size bytes.length with hlt | hle
  · have hcut : bytes.take size = bytes.take kept ++ (bytes.take size).drop kept := by
      conv => lhs; rw [← List.take_append_drop kept (bytes.take size)]
      rw [List.take_take, Nat.min_eq_left hshort]
    refine ⟨(bytes.take size).drop kept ++
      (writeChunks chunkStream .continued extension
        (pieces size (bytes.drop size))).flatten, ?_, ?_⟩
    · rw [flatten_writeChunks_of_lt chunkStream change extension hpos hlt]
      conv => lhs; rw [hcut]
      simp only [List.append_assoc]
    · have hothers :=
        length_le_flatten_writeChunks chunkStream .continued extension hpos (bytes.drop size)
      simp only [List.length_append, List.length_drop, List.length_take] at hothers ⊢
      omega
  · refine ⟨bytes.drop kept, ?_, Nat.le_of_eq List.length_drop.symm⟩
    rw [flatten_writeChunks_of_le chunkStream change extension hpos hle, List.append_assoc,
      List.take_append_drop]

/-- The chunks of the front of a payload stand at the front of its chunks, and
what follows them has room for the rest of the payload. -/
theorem flatten_writeChunks_take (hpos : 0 < size) (bytes : Bytes) {kept : Nat}
    (hkept : kept ≤ bytes.length) :
    ∃ rest,
      (writeChunks chunkStream change extension (pieces size bytes)).flatten =
          (writeChunks chunkStream change extension
            (pieces size (bytes.take kept))).flatten ++ rest ∧
        bytes.length - kept ≤ rest.length := by
  induction hlength : bytes.length using Nat.strongRecOn
    generalizing bytes kept change with
  | ind length ih =>
      subst hlength
      rcases Nat.lt_or_ge size kept with hlong | hshort
      · -- the front goes on behind the first chunk
        have hshorter : (bytes.drop size).length < bytes.length := by
          rw [List.length_drop]
          omega
        have hbehind : kept - size ≤ (bytes.drop size).length := by
          rw [List.length_drop]
          omega
        have hbeyond : size < (bytes.take kept).length := by
          rw [List.length_take_of_le hkept]
          exact hlong
        have hfirst : (bytes.take kept).take size = bytes.take size := by
          rw [List.take_take, Nat.min_eq_left (Nat.le_of_lt hlong)]
        obtain ⟨rest, hrest, hroom⟩ :=
          ih _ hshorter .continued (bytes.drop size) hbehind rfl
        refine ⟨rest, ?_, ?_⟩
        · rw [flatten_writeChunks_of_lt chunkStream change extension hpos
              (Nat.lt_of_lt_of_le hlong hkept),
            flatten_writeChunks_of_lt chunkStream change extension hpos hbeyond,
            hrest, hfirst, List.drop_take]
          simp only [List.append_assoc]
        · rw [List.length_drop] at hroom
          omega
      · exact flatten_writeChunks_take_of_le chunkStream change extension hpos hkept hshort

end Written

/-- On a new chunk stream a message is written as its front is, and the rest of
it is written behind that. -/
theorem encode_front {encoder : ChunkEncoder} {message : WireMessage}
    (hnew : encoder.streams.get? message.chunkStream = none)
    (hpos : 0 < encoder.chunkSize.toNat) :
    ∃ rest,
      (encoder.encode message).1 = (encoder.encode message.front).1 ++ rest ∧
        message.payload.length - message.front.payload.length ≤ rest.length := by
  have hheader : ∀ extension,
      writeHeader message.chunkStream (changeFor none message) extension =
        writeHeader message.chunkStream (changeFor none message.front) extension := by
    intro extension
    simp only [writeHeader, changeFor, ChunkHeader.writeFields, HeaderChange.format,
      WireMessage.length_front, Bytes.ofWord24_ofNat_mod]
    rfl
  have hchunks : ∀ payload,
      writeChunks message.chunkStream (changeFor none message)
          (extensionFor none (changeFor none message))
          (pieces encoder.chunkSize.toNat payload) =
        writeChunks message.chunkStream (changeFor none message.front)
          (extensionFor none (changeFor none message.front))
          (pieces encoder.chunkSize.toNat payload) := by
    intro payload
    cases pieces encoder.chunkSize.toNat payload with
    | nil => rfl
    | cons first others =>
        simp only [writeChunks, hheader]
        rfl
  have hfront : encoder.streams.get? message.front.chunkStream = none := hnew
  obtain ⟨rest, hrest, hroom⟩ :=
    flatten_writeChunks_take message.chunkStream (changeFor none message)
      (extensionFor none (changeFor none message)) hpos message.payload
      (Nat.mod_le message.payload.length (Bytes.capacity 3))
  refine ⟨rest, ?_, by rw [WireMessage.length_front]; exact hroom⟩
  rw [encoder.encode_eq message, encoder.encode_eq message.front]
  simp only [chunksOf, hnew, hfront, hrest]
  rw [hchunks (message.payload.take _)]
  rfl

end ChunkEncoder

/-! ## The message that comes back -/

/-- The front of a message comes back, and the rest of it stays in the buffer. -/
theorem InStep.decode_encode_front {encoder : ChunkEncoder} {decoder : ChunkDecoder}
    (hstep : InStep encoder decoder) {message : WireMessage}
    (hnew : encoder.streams.get? message.chunkStream = none)
    (hname : ChunkHeader.CanName message.chunkStream)
    (hpos : 0 < encoder.chunkSize.toNat)
    (hmaximum : message.payload.length ≤ decoder.maximum.toNat) :
    ∃ next rest,
      decoder.decode (encoder.encode message).1 = (.ok (some message.front), next, rest) ∧
        (encoder.encode message).1 = (encoder.encode message.front).1 ++ rest ∧
        message.payload.length - message.front.payload.length ≤ rest.length := by
  obtain ⟨rest, hwritten, hroom⟩ := ChunkEncoder.encode_front hnew hpos
  have hfits : message.front.payload.length ≤ decoder.maximum.toNat := by
    rw [WireMessage.length_front]
    exact Nat.le_trans (Nat.mod_le ..) hmaximum
  obtain ⟨next, hdecode, -, -⟩ :=
    hstep.decode_encode (WireMessage.isSendable_front hname) hpos hfits rest
  rw [← hwritten] at hdecode
  exact ⟨next, rest, hdecode, hwritten, hroom⟩

/-- Whatever the length of a message that the decoder admits, and whatever chunk
size a fresh encoder and a fresh decoder share, the front that three bytes
announce comes back, behind the bytes that the front alone would take.  It is the
whole message, and nothing is left of the bytes, exactly if three bytes hold the
length. -/
theorem decode_encode_iff_length_le {message : WireMessage} {size maximum : UInt32}
    (hname : ChunkHeader.CanName message.chunkStream) (hlow : 1 ≤ size)
    (hhigh : size ≤ ChunkEncoder.largestChunkSize)
    (hmaximum : message.payload.length ≤ maximum.toNat) :
    let encoder := ({} : ChunkEncoder).setChunkSize size
    let decoder : ChunkDecoder := { chunkSize := size, maximum := maximum }
    let (answer, _, rest) := decoder.decode (encoder.encode message).1
    answer = .ok (some message.front) ∧
      (encoder.encode message).1 = (encoder.encode message.front).1 ++ rest ∧
      (answer = .ok (some message) ↔ message.payload.length ≤ 0xFFFFFF) ∧
      (rest = [] ↔ message.payload.length ≤ 0xFFFFFF) := by
  intro encoder decoder
  have hencoder : encoder = { chunkSize := size } :=
    ChunkEncoder.setChunkSize_of_mem hlow hhigh {}
  have hstep : InStep encoder decoder := by
    rw [hencoder]
    exact InStep.start size maximum
  have hnew : encoder.streams.get? message.chunkStream = none := by
    rw [hencoder]
    rfl
  have hpos : 0 < encoder.chunkSize.toNat := by
    rw [hencoder]
    exact UInt32.le_iff_toNat_le.mp hlow
  obtain ⟨next, rest, hdecode, hwritten, hroom⟩ :=
    hstep.decode_encode_front hnew hname hpos hmaximum
  rw [hdecode]
  refine ⟨rfl, hwritten, ?_, ?_⟩
  · rw [← message.front_eq_self_iff]
    exact ⟨fun hsame => Option.some.inj (Except.ok.inj hsame),
      fun hsame => by rw [hsame]⟩
  · constructor
    · intro hnothing
      rw [hnothing, List.length_nil, message.length_front] at hroom
      have hless := Nat.mod_lt message.payload.length (by decide : 0 < Bytes.capacity 3)
      have hcapacity : Bytes.capacity 3 = 0xFFFFFF + 1 := rfl
      omega
    · intro hshort
      rw [message.front_eq_self_iff.mpr hshort] at hwritten
      exact List.self_eq_append_right.mp hwritten

/-- Of the last name and at the last time, in chunks of two bytes. -/
theorem decode_encode_iff_length_le_of_twoChunks :
    let message : WireMessage := ⟨65599, 0xFFFFFFFF, 9, 1, [1, 2, 3]⟩
    let encoder := ({} : ChunkEncoder).setChunkSize 2
    let decoder : ChunkDecoder := { chunkSize := 2, maximum := 3 }
    let (answer, _, rest) := decoder.decode (encoder.encode message).1
    answer = .ok (some message) ∧ rest = [] := by
  intro message
  have hname : ChunkHeader.CanName message.chunkStream :=
    (by decide : ChunkHeader.CanName 65599)
  have hmaximum : message.payload.length ≤ (3 : UInt32).toNat := Nat.le_refl 3
  obtain ⟨-, -, hmessage, hrest⟩ :=
    decode_encode_iff_length_le hname (by decide : (1 : UInt32) ≤ 2) (by decide) hmaximum
  exact ⟨hmessage.mpr (by decide), hrest.mpr (by decide)⟩

/-- A fresh decoder admits a message as long as its maximum, but of what a fresh
encoder writes for it, it hands out a message without payload. -/
theorem payload_lost_of_maximum :
    let message : WireMessage := ⟨6, 0, 9, 1, List.replicate 16777216 0xFF⟩
    let decoder : ChunkDecoder := {}
    let encoder : ChunkEncoder := {}
    let (answer, _, rest) := decoder.decode (encoder.encode message).1
    decoder.chunkSize = encoder.chunkSize ∧
      message.payload.length ≤ decoder.maximum.toNat ∧
      answer = .ok (some ⟨6, 0, 9, 1, []⟩) ∧ answer ≠ .ok (some message) ∧
      16777216 ≤ rest.length := by
  have hlength : (List.replicate 16777216 (0xFF : UInt8)).length = 16777216 :=
    List.length_replicate
  generalize List.replicate 16777216 (0xFF : UInt8) = payload at hlength ⊢
  intro message decoder encoder
  have hmaximum : message.payload.length ≤ decoder.maximum.toNat := by
    show payload.length ≤ 16777216
    omega
  have hfront : message.front = ⟨6, 0, 9, 1, []⟩ := by
    have hkept : payload.length % Bytes.capacity 3 = 0 := by
      rw [hlength]
      rfl
    show { message with payload := payload.take (payload.length % Bytes.capacity 3) } = _
    rw [hkept, List.take_zero]
  have hstep : InStep encoder decoder := .start 128 16777216
  have hname : ChunkHeader.CanName message.chunkStream :=
    (by decide : ChunkHeader.CanName 6)
  obtain ⟨next, rest, hdecode, -, hroom⟩ :=
    hstep.decode_encode_front rfl hname (by decide) hmaximum
  rw [hfront] at hdecode hroom
  rw [hdecode]
  refine ⟨rfl, hmaximum, rfl, fun hsame => ?_, ?_⟩
  · have hpayload : [] = payload :=
      congrArg WireMessage.payload (Option.some.inj (Except.ok.inj hsame))
    rw [← hpayload] at hlength
    cases hlength
  · change payload.length - 0 ≤ rest.length at hroom
    omega

end LiveRelay
