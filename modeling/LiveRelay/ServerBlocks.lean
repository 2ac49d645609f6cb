import LiveRelay.Handshake

/-!
# The server's blocks

What the server sends during the handshake, as the client sees it: a version
byte and two blocks.  A client that has put a digest into its own block can
check three things.  The first block carries a digest of itself, the client's
key stands in it where the server's own key would be, and the second block ends
with a signature that only the client's digest and the server's key give.
-/

namespace LiveRelay

structure ServerBlocks where
  version : Bytes
  first : Bytes
  second : Bytes
  deriving DecidableEq, Repr

namespace ServerBlocks

open Handshake

def ofResponse (response : Bytes) : ServerBlocks where
  version := response.take 1
  first := sliceAt response 1 HandshakeSchema.blockSize
  second := response.drop (1 + HandshakeSchema.blockSize)

/-- The first block carries a digest of its other bytes. -/
def hasDigest (keyed : KeyedDigest) (schema : HandshakeSchema)
    (blocks : ServerBlocks) : Bool :=
  let offset := schema.digestOffset blocks.first
  sliceAt blocks.first offset 32 ==
    digestExcluding keyed (serverKey.take 36) blocks.first offset

/-- The client's key stands in the first block. -/
def hasKeyOf (clientBlock : Bytes) (schema : HandshakeSchema)
    (blocks : ServerBlocks) : Bool :=
  sliceAt blocks.first (schema.keyOffset blocks.first) 128 ==
    sliceAt clientBlock (schema.keyOffset clientBlock) 128

/-- The second block ends with the signature that the client's digest calls
for. -/
def isSignedFor (keyed : KeyedDigest) (clientBlock : Bytes)
    (blocks : ServerBlocks) : Bool :=
  (validate? keyed clientBlock).any fun (_, digest) =>
    blocks.second.drop 1504 ==
      keyed.digest (keyed.digest serverKey digest) (blocks.second.take 1504)

/-- The second block repeats the client's block. -/
def repeats (clientBlock : Bytes) (blocks : ServerBlocks) : Bool :=
  blocks.second == clientBlock

end ServerBlocks

end LiveRelay
