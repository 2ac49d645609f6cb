import LiveRelay.Errors
import LiveRelay.Sha256

/-!
# Handshake

The client sends a version byte and a block of 1536 bytes, the server answers
with a version byte and two such blocks, and the client ends with one more.
The contents of that last block are not looked at.

A client's block may carry a keyed digest.  Behind eight bytes it has a key
block and a digest block of 764 bytes each, in either order.  Where the key
and the digest are in their blocks follows from four bytes of the block.  If
the digest verifies under one of the two orders, the server's first block
carries the client's key and a digest of its own, and its second block is
signed with a key made from the client's digest.  Otherwise the second block
repeats the client's block.
-/

namespace LiveRelay

/-! ## Layout of a block -/

inductive HandshakeSchema where
  | keyFirst
  | digestFirst
  /-- No digest was found. -/
  | plain
  deriving DecidableEq, Repr

namespace HandshakeSchema

def blockSize : Nat := 1536

def digestBlockStart : HandshakeSchema → Nat
  | .digestFirst => 8
  | _ => 772

def keyBlockStart : HandshakeSchema → Nat
  | .digestFirst => 772
  | _ => 8

/-- The sum of the four bytes at a position. -/
def sumAt (block : Bytes) (start : Nat) : Nat :=
  ((block.drop start).take 4).foldl (fun total byte => total + byte.toNat) 0

/-- The position bytes stand at the start of the digest block. -/
def digestOffset (schema : HandshakeSchema) (block : Bytes) : Nat :=
  let start := schema.digestBlockStart
  sumAt block start % 728 + start + 4

/-- The position bytes stand at the end of the key block. -/
def keyOffset (schema : HandshakeSchema) (block : Bytes) : Nat :=
  let start := schema.keyBlockStart
  sumAt block (start + 760) % 632 + start

end HandshakeSchema

namespace Handshake

def version : UInt8 := 3

/-! ## Keys and digests -/

def keyTail : Bytes :=
  [0xF0, 0xEE, 0xC2, 0x4A, 0x80, 0x68, 0xBE, 0xE8, 0x2E, 0x00, 0xD0, 0xD1,
    0x02, 0x9E, 0x7E, 0x57, 0x6E, 0xEC, 0x5D, 0x2D, 0x29, 0x80, 0x6F, 0xAB,
    0x93, 0xB8, 0xE6, 0x36, 0xCF, 0xEB, 0x31, 0xAE]

/-- The first 30 bytes sign a client's block. -/
def clientKey : Bytes :=
  Bytes.ofText "Genuine Adobe Flash Player 001" ++ keyTail

/-- The first 36 bytes sign the server's first block. -/
def serverKey : Bytes :=
  Bytes.ofText "Genuine Adobe Flash Media Server 001" ++ keyTail

/-- The digest of a block without the 32 bytes at `offset`. -/
def digestExcluding (keyed : KeyedDigest) (key block : Bytes) (offset : Nat) :
    Bytes :=
  keyed.digest key (block.take offset ++ block.drop (offset + 32))

def sliceAt (block : Bytes) (offset size : Nat) : Bytes :=
  (block.drop offset).take size

def overwrite (block : Bytes) (offset : Nat) (piece : Bytes) : Bytes :=
  block.take offset ++ piece ++ block.drop (offset + piece.length)

/-! ## The client's block -/

/-- The digest that a client's block carries under a schema, if it is right. -/
def digestUnder? (keyed : KeyedDigest) (block : Bytes)
    (schema : HandshakeSchema) : Option (HandshakeSchema × Bytes) :=
  let offset := schema.digestOffset block
  let expected := digestExcluding keyed (clientKey.take 30) block offset
  if sliceAt block offset 32 = expected then some (schema, expected) else none

/-- The schema of a client's block and its digest, if it carries one. -/
def validate? (keyed : KeyedDigest) (block : Bytes) :
    Option (HandshakeSchema × Bytes) :=
  if block.length = HandshakeSchema.blockSize then
    [HandshakeSchema.keyFirst, .digestFirst].findSome? (digestUnder? keyed block)
  else none

/-! ## The server's blocks -/

/-- The time and the random bytes that go into the server's blocks. -/
structure Fill where
  time : UInt32
  first : Bytes
  second : Bytes
  length_first : first.length = 1528
  length_second : second.length = 1536

/-- The same byte everywhere. -/
def Fill.constant (byte : UInt8) : Fill where
  time := 0
  first := List.replicate 1528 byte
  second := List.replicate 1536 byte
  length_first := List.length_replicate
  length_second := List.length_replicate

def plainFirst (fill : Fill) : Bytes :=
  Bytes.ofWord32 fill.time ++ [0, 0, 0, 0] ++ fill.first

/-- The client's key goes where the server's own block has its key, and the
digest is taken of what results. -/
def signedFirst (keyed : KeyedDigest) (fill : Fill) (schema : HandshakeSchema)
    (clientBlock : Bytes) : Bytes :=
  let unsigned := Bytes.ofWord32 fill.time ++ [4, 5, 0, 1] ++ fill.first
  let key := sliceAt clientBlock (schema.keyOffset clientBlock) 128
  let withKey := overwrite unsigned (schema.keyOffset unsigned) key
  let offset := schema.digestOffset withKey
  overwrite withKey offset
    (digestExcluding keyed (serverKey.take 36) withKey offset)

def signedSecond (keyed : KeyedDigest) (fill : Fill) (clientDigest : Bytes) :
    Bytes :=
  let body := fill.second.take 1504
  body ++ keyed.digest (keyed.digest serverKey clientDigest) body

/-- What the server sends after the client's block, which has to have the size of
one. -/
def respond (keyed : KeyedDigest) (fill : Fill) (clientBlock : Bytes) :
    Except HandshakeError (HandshakeSchema × Bytes) :=
  if clientBlock.length ≠ HandshakeSchema.blockSize then
    .error (.invalidPacketSize HandshakeSchema.blockSize clientBlock.length)
  else
    match validate? keyed clientBlock with
    | some (schema, digest) =>
        .ok (schema,
          version :: signedFirst keyed fill schema clientBlock ++
            signedSecond keyed fill digest)
    | none => .ok (.plain, version :: plainFirst fill ++ clientBlock)

end Handshake

/-! ## Progress -/

inductive HandshakeStage where
  | awaitVersion
  | awaitFirst
  | awaitSecond
  | done
  deriving DecidableEq, Repr

structure Handshake where
  stage : HandshakeStage := .awaitVersion
  /-- Decided by the client's first block. -/
  schema : Option HandshakeSchema := none
  deriving DecidableEq, Repr

namespace Handshake

def isDone (handshake : Handshake) : Bool :=
  handshake.stage == .done

/-- How many bytes the next step takes. -/
def needed (handshake : Handshake) : Nat :=
  match handshake.stage with
  | .awaitVersion => 1
  | .awaitFirst => HandshakeSchema.blockSize
  | .awaitSecond => HandshakeSchema.blockSize
  | .done => 0

/-- What a call yields: the answer to the client's block if it was consumed,
the handshake, and the bytes that are left. -/
structure Outcome where
  response : Except HandshakeError (Option Bytes)
  handshake : Handshake
  rest : Bytes

def fromSecond (response : Option Bytes) (schema : Option HandshakeSchema)
    (buffer : Bytes) : Outcome :=
  match buffer.split? HandshakeSchema.blockSize with
  | some (_, rest) => ⟨.ok response, ⟨.done, schema⟩, rest⟩
  | none => ⟨.ok response, ⟨.awaitSecond, schema⟩, buffer⟩

def fromFirst (keyed : KeyedDigest) (fill : Fill) (buffer : Bytes) : Outcome :=
  match buffer.split? HandshakeSchema.blockSize with
  | some (block, rest) =>
      match respond keyed fill block with
      | .ok (schema, response) => fromSecond (some response) (some schema) rest
      | .error error => ⟨.error error, ⟨.awaitFirst, none⟩, rest⟩
  | none => ⟨.ok none, ⟨.awaitFirst, none⟩, buffer⟩

/-- The handshake as far as the buffer goes; any version is accepted. -/
def process (keyed : KeyedDigest) (fill : Fill) (handshake : Handshake)
    (buffer : Bytes) : Outcome :=
  match handshake.stage with
  | .awaitVersion =>
      match buffer with
      | [] => ⟨.ok none, handshake, []⟩
      | _ :: rest => fromFirst keyed fill rest
  | .awaitFirst => fromFirst keyed fill buffer
  | .awaitSecond => fromSecond none handshake.schema buffer
  | .done => ⟨.ok none, handshake, buffer⟩

end Handshake

end LiveRelay
