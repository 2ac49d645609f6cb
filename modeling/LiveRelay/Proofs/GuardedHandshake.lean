import LiveRelay.Proofs.Faults
import LiveRelay.Proofs.HandshakeBlocks

/-!
# A handshake without faults

The handshake again, with every cut and every copy at the place where it is made
and at the range that it is made at.  The places of the digest and of the key come
from bytes of the client's block, so none of these ranges is fixed.  Whatever the
client sends, all of them lie inside the blocks, and what is computed is what the
handshake is.
-/

namespace LiveRelay

open Partial

namespace HandshakeSchema

/-! ## Places -/

def guardedSum (block : Bytes) (start : Nat) : Partial Nat := do
  let places ← slice block start (start + 4)
  return places.foldl (fun total byte => total + byte.toNat) 0

def guardedDigestOffset (schema : HandshakeSchema) (block : Bytes) : Partial Nat := do
  let start := schema.digestBlockStart
  let sum ← guardedSum block start
  return sum % 728 + start + 4

def guardedKeyOffset (schema : HandshakeSchema) (block : Bytes) : Partial Nat := do
  let start := schema.keyBlockStart
  let sum ← guardedSum block (start + 760)
  return sum % 632 + start

theorem guardedSum_eq {block : Bytes} {start : Nat} (hfits : start + 4 ≤ block.length) :
    guardedSum block start = .ok (sumAt block start) := by
  rw [guardedSum, slice_of_le (Nat.le_add_right start 4) hfits, Nat.add_sub_cancel_left]
  rfl

variable {block : Bytes}

theorem guardedDigestOffset_eq (schema : HandshakeSchema) (hblock : block.length = blockSize) :
    schema.guardedDigestOffset block = .ok (schema.digestOffset block) := by
  have hfits : schema.digestBlockStart + 4 ≤ block.length := by
    rw [hblock]
    cases schema <;> decide
  simp only [guardedDigestOffset, guardedSum_eq hfits]
  rfl

theorem guardedKeyOffset_eq (schema : HandshakeSchema) (hblock : block.length = blockSize) :
    schema.guardedKeyOffset block = .ok (schema.keyOffset block) := by
  have hfits : schema.keyBlockStart + 760 + 4 ≤ block.length := by
    rw [hblock]
    cases schema <;> decide
  simp only [guardedKeyOffset, guardedSum_eq hfits]
  rfl

end HandshakeSchema

namespace Handshake

/-! ## Keys and digests -/

/-- A text and the common tail fill a key of the given size. -/
def guardedKey (text : String) (split size : Nat) : Partial Bytes := do
  let key ← copyInto (List.replicate size 0) 0 split (Bytes.ofText text)
  copyInto key split size keyTail

def guardedClientKey : Partial Bytes :=
  guardedKey "Genuine Adobe Flash Player 001" 30 62

def guardedServerKey : Partial Bytes :=
  guardedKey "Genuine Adobe Flash Media Server 001" 36 68

/-- The digest fills an array of 32 bytes. -/
def guardedDigest (keyed : KeyedDigest) (key message : Bytes) : Partial Bytes :=
  copyInto (List.replicate 32 0) 0 32 (keyed.digest key message)

def guardedDigestExcluding (keyed : KeyedDigest) (key block : Bytes) (offset : Nat) :
    Partial Bytes := do
  let front ← slice block 0 offset
  let behind ← slice block (offset + 32) block.length
  guardedDigest keyed key (front ++ behind)

theorem guardedKey_eq {text : String} {split : Nat}
    (htext : (Bytes.ofText text).length = split) :
    guardedKey text split (split + 32) = .ok (Bytes.ofText text ++ keyTail) := by
  have htail : keyTail.length = 32 := rfl
  rw [guardedKey, copyInto_of_length (by omega) (by simp), ok_bind,
    copyInto_of_length (by omega) (by simp; omega)]
  simp [← htext]

theorem guardedClientKey_eq : guardedClientKey = .ok clientKey :=
  guardedKey_eq (by decide +kernel)

theorem guardedServerKey_eq : guardedServerKey = .ok serverKey :=
  guardedKey_eq (by decide +kernel)

theorem length_clientKey : clientKey.length = 62 := by decide +kernel

theorem length_serverKey : serverKey.length = 68 := by decide +kernel

theorem guardedDigest_eq (keyed : KeyedDigest) (key message : Bytes) :
    guardedDigest keyed key message = .ok (keyed.digest key message) := by
  have hlength := keyed.length_digest key message
  rw [guardedDigest, copyInto_of_length (by omega) (by simp)]
  simp

theorem guardedDigestExcluding_eq (keyed : KeyedDigest) (key : Bytes) {block : Bytes}
    {offset : Nat} (hfits : offset + 32 ≤ block.length) :
    guardedDigestExcluding keyed key block offset =
      .ok (digestExcluding keyed key block offset) := by
  rw [guardedDigestExcluding, slice_of_le (Nat.zero_le _) (by omega), ok_bind,
    slice_of_le hfits (Nat.le_refl _), ok_bind, guardedDigest_eq, digestExcluding,
    ← List.length_drop, List.take_length]
  rfl

theorem slice_eq_sliceAt {block : Bytes} {offset size : Nat}
    (hfits : offset + size ≤ block.length) :
    slice block offset (offset + size) = .ok (sliceAt block offset size) := by
  rw [slice_of_le (Nat.le_add_right offset size) hfits, Nat.add_sub_cancel_left, sliceAt]

theorem copyInto_eq_overwrite {block piece : Bytes} {offset size : Nat}
    (hpiece : piece.length = size) (hfits : offset + size ≤ block.length) :
    copyInto block offset (offset + size) piece = .ok (overwrite block offset piece) := by
  rw [copyInto_of_length (by omega) hfits, overwrite, hpiece]

/-! ## The client's block -/

def guardedDigestUnder? (keyed : KeyedDigest) (key block : Bytes)
    (schema : HandshakeSchema) : Partial (Option (HandshakeSchema × Bytes)) := do
  let offset ← schema.guardedDigestOffset block
  let key ← slice key 0 30
  let expected ← guardedDigestExcluding keyed key block offset
  let carried ← slice block offset (offset + 32)
  return if carried = expected then some (schema, expected) else none

def guardedValidate? (keyed : KeyedDigest) (block : Bytes) :
    Partial (Option (HandshakeSchema × Bytes)) :=
  if block.length ≠ HandshakeSchema.blockSize then return none
  else do
    let key ← guardedClientKey
    [HandshakeSchema.keyFirst, .digestFirst].findSomeM?
      (guardedDigestUnder? keyed key block)

theorem guardedDigestUnder?_eq (keyed : KeyedDigest) {block : Bytes}
    (hblock : block.length = HandshakeSchema.blockSize) (schema : HandshakeSchema) :
    guardedDigestUnder? keyed clientKey block schema =
      .ok (digestUnder? keyed block schema) := by
  have hfits : schema.digestOffset block + 32 ≤ block.length :=
    hblock ▸ schema.digestOffset_add_le block
  have hkey : slice clientKey 0 30 = .ok (clientKey.take 30) :=
    slice_of_le (by omega) (by rw [length_clientKey]; omega)
  simp only [guardedDigestUnder?, schema.guardedDigestOffset_eq hblock, ok_bind, hkey,
    guardedDigestExcluding_eq keyed _ hfits, slice_eq_sliceAt hfits]
  rfl

theorem guardedValidate?_eq (keyed : KeyedDigest) (block : Bytes) :
    guardedValidate? keyed block = .ok (validate? keyed block) := by
  unfold guardedValidate? validate?
  by_cases hblock : block.length = HandshakeSchema.blockSize
  · have hunder : guardedDigestUnder? keyed clientKey block =
        fun schema => pure (digestUnder? keyed block schema) :=
      funext (guardedDigestUnder?_eq keyed hblock)
    rw [if_neg (not_not_intro hblock), if_pos hblock, guardedClientKey_eq, ok_bind, hunder,
      List.findSomeM?_pure]
    rfl
  · rw [if_pos hblock, if_neg hblock]
    rfl

/-! ## The server's blocks -/

/-- The random bytes and then the time are put into a block of zeros. -/
def guardedPlainFirst (fill : Fill) : Partial Bytes := do
  let block ← copyInto (List.replicate HandshakeSchema.blockSize 0) 8 HandshakeSchema.blockSize
    fill.first
  copyInto block 0 4 (Bytes.ofWord32 fill.time)

/-- A digest of the server's block is put into it. -/
def guardedSign (keyed : KeyedDigest) (schema : HandshakeSchema) (block : Bytes) :
    Partial Bytes := do
  let digestAt ← schema.guardedDigestOffset block
  let key ← guardedServerKey
  let key ← slice key 0 36
  let digest ← guardedDigestExcluding keyed key block digestAt
  copyInto block digestAt (digestAt + 32) digest

def guardedSignedFirst (keyed : KeyedDigest) (fill : Fill) (schema : HandshakeSchema)
    (clientBlock : Bytes) : Partial Bytes := do
  let block ← guardedPlainFirst fill
  let block ← copyInto block 4 8 [4, 5, 0, 1]
  let clientKeyAt ← schema.guardedKeyOffset clientBlock
  let ownKeyAt ← schema.guardedKeyOffset block
  let key ← slice clientBlock clientKeyAt (clientKeyAt + 128)
  let block ← copyInto block ownKeyAt (ownKeyAt + 128) key
  guardedSign keyed schema block

def guardedSignedSecond (keyed : KeyedDigest) (fill : Fill) (clientDigest : Bytes) :
    Partial Bytes := do
  let block ← copyInto (List.replicate HandshakeSchema.blockSize 0) 0
    HandshakeSchema.blockSize fill.second
  let key ← guardedServerKey
  let key ← guardedDigest keyed key clientDigest
  let body ← slice block 0 1504
  let digest ← guardedDigest keyed key body
  copyInto block 1504 HandshakeSchema.blockSize digest

def guardedRespond (keyed : KeyedDigest) (fill : Fill) (clientBlock : Bytes) :
    Partial (Except HandshakeError (HandshakeSchema × Bytes)) :=
  if clientBlock.length ≠ HandshakeSchema.blockSize then
    return .error (.invalidPacketSize HandshakeSchema.blockSize clientBlock.length)
  else do
    match ← guardedValidate? keyed clientBlock with
    | some (schema, digest) =>
        let first ← guardedSignedFirst keyed fill schema clientBlock
        let second ← guardedSignedSecond keyed fill digest
        return .ok (schema, version :: first ++ second)
    | none =>
        let first ← guardedPlainFirst fill
        return .ok (.plain, version :: first ++ clientBlock)

theorem guardedPlainFirst_eq (fill : Fill) :
    guardedPlainFirst fill = .ok (plainFirst fill) := by
  have htime : (Bytes.ofWord32 fill.time).length = 4 := Bytes.length_ofNumber _ _
  have hrandom : copyInto (List.replicate HandshakeSchema.blockSize 0) 8
      HandshakeSchema.blockSize fill.first = .ok ([0, 0, 0, 0, 0, 0, 0, 0] ++ fill.first) := by
    have hcopy := copyInto_between [0, 0, 0, 0, 0, 0, 0, 0] []
      (show fill.first.length = (List.replicate 1528 (0 : UInt8)).length by
        rw [fill.length_first, List.length_replicate])
    rwa [List.append_nil, List.append_nil, List.length_replicate] at hcopy
  rw [guardedPlainFirst, hrandom, ok_bind]
  exact copyInto_between [] ([0, 0, 0, 0] ++ fill.first)
    (show _ = [0, 0, 0, 0].length from htime)

theorem guardedSign_eq (keyed : KeyedDigest) (schema : HandshakeSchema) {block : Bytes}
    (hblock : block.length = HandshakeSchema.blockSize) :
    guardedSign keyed schema block =
      .ok (overwrite block (schema.digestOffset block)
        (digestExcluding keyed (serverKey.take 36) block (schema.digestOffset block))) := by
  have hfits : schema.digestOffset block + 32 ≤ block.length :=
    hblock ▸ schema.digestOffset_add_le block
  have hkey : slice serverKey 0 36 = .ok (serverKey.take 36) :=
    slice_of_le (by omega) (by rw [length_serverKey]; omega)
  simp only [guardedSign, schema.guardedDigestOffset_eq hblock, guardedServerKey_eq, ok_bind,
    hkey, guardedDigestExcluding_eq keyed _ hfits]
  exact copyInto_eq_overwrite (length_digestExcluding ..) hfits

theorem guardedSignedFirst_eq (keyed : KeyedDigest) (fill : Fill) (schema : HandshakeSchema)
    {clientBlock : Bytes} (hclient : clientBlock.length = HandshakeSchema.blockSize) :
    guardedSignedFirst keyed fill schema clientBlock =
      .ok (signedFirst keyed fill schema clientBlock) := by
  have htime : (Bytes.ofWord32 fill.time).length = 4 := Bytes.length_ofNumber _ _
  have hmarked : copyInto (plainFirst fill) 4 8 [4, 5, 0, 1] =
      .ok (Bytes.ofWord32 fill.time ++ [4, 5, 0, 1] ++ fill.first) := by
    have hcopy := copyInto_between (Bytes.ofWord32 fill.time) fill.first
      (show ([4, 5, 0, 1] : Bytes).length = ([0, 0, 0, 0] : Bytes).length from rfl)
    rwa [htime] at hcopy
  have hblock := length_marked fill
  have hkey : slice clientBlock (schema.keyOffset clientBlock)
      (schema.keyOffset clientBlock + 128) =
        .ok (sliceAt clientBlock (schema.keyOffset clientBlock) 128) :=
    slice_eq_sliceAt (hclient ▸ schema.keyOffset_add_le clientBlock)
  simp only [guardedSignedFirst, guardedPlainFirst_eq, ok_bind, hmarked,
    schema.guardedKeyOffset_eq hclient, schema.guardedKeyOffset_eq hblock, hkey]
  rw [copyInto_eq_overwrite (length_key schema hclient)
      (hblock.symm ▸ schema.keyOffset_add_le _),
    ok_bind, guardedSign_eq keyed schema (length_withKey schema hblock hclient)]
  rfl

theorem guardedSignedSecond_eq (keyed : KeyedDigest) (fill : Fill) (clientDigest : Bytes) :
    guardedSignedSecond keyed fill clientDigest =
      .ok (signedSecond keyed fill clientDigest) := by
  have hsecond : fill.second.length = HandshakeSchema.blockSize := fill.length_second
  have hrandom : copyInto (List.replicate HandshakeSchema.blockSize 0) 0
      HandshakeSchema.blockSize fill.second = .ok fill.second := by
    have hzeros : (List.replicate HandshakeSchema.blockSize (0 : UInt8)).length =
        HandshakeSchema.blockSize := List.length_replicate
    rw [copyInto_of_length (by omega) (Nat.le_of_eq hzeros.symm)]
    rw [List.drop_of_length_le (Nat.le_of_eq hzeros)]
    simp
  have hbody : slice fill.second 0 1504 = .ok (fill.second.take 1504) :=
    slice_of_le (Nat.zero_le _) (by rw [fill.length_second]; decide)
  simp only [guardedSignedSecond, hrandom, ok_bind, guardedServerKey_eq, guardedDigest_eq,
    hbody, signedSecond]
  generalize hdigest : keyed.digest _ _ = digest
  have hlength : 1504 + digest.length = HandshakeSchema.blockSize :=
    congrArg (1504 + ·) (hdigest ▸ keyed.length_digest _ _)
  rw [copyInto_of_length hlength (Nat.le_of_eq hsecond.symm),
    List.drop_of_length_le (Nat.le_of_eq hsecond), List.append_nil]

theorem guardedRespond_eq (keyed : KeyedDigest) (fill : Fill) (clientBlock : Bytes) :
    guardedRespond keyed fill clientBlock = .ok (respond keyed fill clientBlock) := by
  unfold guardedRespond respond
  by_cases hclient : clientBlock.length = HandshakeSchema.blockSize
  · rw [if_neg (not_not_intro hclient), if_neg (not_not_intro hclient), guardedValidate?_eq,
      ok_bind]
    cases validate? keyed clientBlock with
    | none =>
        simp only [guardedPlainFirst_eq, ok_bind]
        rfl
    | some found =>
        simp only [guardedSignedFirst_eq keyed fill found.1 hclient, ok_bind,
          guardedSignedSecond_eq]
        rfl
  · rw [if_pos hclient, if_pos hclient]
    rfl

/-! ## Progress -/

def guardedFromSecond (response : Option Bytes) (schema : Option HandshakeSchema)
    (buffer : Bytes) : Partial Outcome :=
  if buffer.length < HandshakeSchema.blockSize then
    return ⟨.ok response, ⟨.awaitSecond, schema⟩, buffer⟩
  else do
    let (_, rest) ← splitAt HandshakeSchema.blockSize buffer
    return ⟨.ok response, ⟨.done, schema⟩, rest⟩

def guardedFromFirst (keyed : KeyedDigest) (fill : Fill) (buffer : Bytes) :
    Partial Outcome :=
  if buffer.length < HandshakeSchema.blockSize then
    return ⟨.ok none, ⟨.awaitFirst, none⟩, buffer⟩
  else do
    let (block, rest) ← splitAt HandshakeSchema.blockSize buffer
    match ← guardedRespond keyed fill block with
    | .ok (schema, response) => guardedFromSecond (some response) (some schema) rest
    | .error error => return ⟨.error error, ⟨.awaitFirst, none⟩, rest⟩

def guardedProcess (keyed : KeyedDigest) (fill : Fill) (handshake : Handshake)
    (buffer : Bytes) : Partial Outcome :=
  match handshake.stage with
  | .awaitVersion =>
      if buffer.isEmpty then return ⟨.ok none, handshake, []⟩
      else do
        let (_, rest) ← splitByte buffer
        guardedFromFirst keyed fill rest
  | .awaitFirst => guardedFromFirst keyed fill buffer
  | .awaitSecond => guardedFromSecond none handshake.schema buffer
  | .done => return ⟨.ok none, handshake, buffer⟩

theorem guardedFromSecond_eq (response : Option Bytes) (schema : Option HandshakeSchema)
    (buffer : Bytes) :
    guardedFromSecond response schema buffer = .ok (fromSecond response schema buffer) := by
  unfold guardedFromSecond fromSecond
  rw [Bytes.split?_eq]
  by_cases hshort : buffer.length < HandshakeSchema.blockSize
  · rw [if_pos hshort, if_neg (Nat.not_le_of_lt hshort)]
    rfl
  · have hwhole := Nat.le_of_not_lt hshort
    rw [if_neg hshort, if_pos hwhole, splitAt_of_le hwhole]
    rfl

theorem guardedFromFirst_eq (keyed : KeyedDigest) (fill : Fill) (buffer : Bytes) :
    guardedFromFirst keyed fill buffer = .ok (fromFirst keyed fill buffer) := by
  unfold guardedFromFirst fromFirst
  rw [Bytes.split?_eq]
  by_cases hshort : buffer.length < HandshakeSchema.blockSize
  · rw [if_pos hshort, if_neg (Nat.not_le_of_lt hshort)]
    rfl
  · have hwhole := Nat.le_of_not_lt hshort
    rw [if_neg hshort, if_pos hwhole, splitAt_of_le hwhole]
    simp only [ok_bind, guardedRespond_eq]
    cases respond keyed fill (buffer.take HandshakeSchema.blockSize) with
    | error error => rfl
    | ok answer => exact guardedFromSecond_eq _ _ _

/-- Whatever bytes come in, and however far a handshake has come, it cuts and copies
only inside the bytes that it has. -/
theorem guardedProcess_eq (keyed : KeyedDigest) (fill : Fill) (handshake : Handshake)
    (buffer : Bytes) :
    guardedProcess keyed fill handshake buffer =
      .ok (handshake.process keyed fill buffer) := by
  unfold guardedProcess process
  cases handshake.stage with
  | awaitVersion =>
      cases buffer with
      | nil => rfl
      | cons first rest => exact guardedFromFirst_eq keyed fill rest
  | awaitFirst => exact guardedFromFirst_eq keyed fill buffer
  | awaitSecond => exact guardedFromSecond_eq _ _ _
  | done => rfl

end Handshake

end LiveRelay
