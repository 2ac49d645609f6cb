import LiveRelay.Handshake

/-!
# Places and sizes in handshake blocks

Wherever the position bytes of a block point, the digest and the key lie inside
the block.  So writing them into a block keeps its size, and what the server
sends after the client's block is always a version byte and two whole blocks.
-/

namespace LiveRelay

namespace HandshakeSchema

theorem digestOffset_add_le (schema : HandshakeSchema) (block : Bytes) :
    schema.digestOffset block + 32 ≤ blockSize := by
  have hplace := Nat.mod_lt (sumAt block schema.digestBlockStart) (show 0 < 728 by decide)
  have hstart : schema.digestBlockStart ≤ 772 := by cases schema <;> decide
  simp only [digestOffset, blockSize]
  omega

theorem keyOffset_add_le (schema : HandshakeSchema) (block : Bytes) :
    schema.keyOffset block + 128 ≤ blockSize := by
  have hplace := Nat.mod_lt (sumAt block (schema.keyBlockStart + 760))
    (show 0 < 632 by decide)
  have hstart : schema.keyBlockStart ≤ 772 := by cases schema <;> decide
  simp only [keyOffset, blockSize]
  omega

end HandshakeSchema

namespace Handshake

theorem length_sliceAt {block : Bytes} {offset size : Nat}
    (hfits : offset + size ≤ block.length) : (sliceAt block offset size).length = size := by
  rw [sliceAt, List.length_take, List.length_drop]
  omega

theorem length_overwrite {block piece : Bytes} {offset : Nat}
    (hfits : offset + piece.length ≤ block.length) :
    (overwrite block offset piece).length = block.length := by
  simp only [overwrite, List.length_append, List.length_take, List.length_drop]
  omega

theorem length_digestExcluding (keyed : KeyedDigest) (key block : Bytes) (offset : Nat) :
    (digestExcluding keyed key block offset).length = 32 :=
  keyed.length_digest _ _

theorem length_plainFirst (fill : Fill) :
    (plainFirst fill).length = HandshakeSchema.blockSize := by
  simp [plainFirst, Bytes.ofWord32, fill.length_first, HandshakeSchema.blockSize]

theorem length_signedSecond (keyed : KeyedDigest) (fill : Fill) (clientDigest : Bytes) :
    (signedSecond keyed fill clientDigest).length = HandshakeSchema.blockSize := by
  simp [signedSecond, fill.length_second, keyed.length_digest, HandshakeSchema.blockSize]

theorem length_key (schema : HandshakeSchema) {block : Bytes}
    (hblock : block.length = HandshakeSchema.blockSize) :
    (sliceAt block (schema.keyOffset block) 128).length = 128 :=
  length_sliceAt (hblock ▸ schema.keyOffset_add_le block)

/-- A block that has taken over the key of another one. -/
theorem length_withKey (schema : HandshakeSchema) {block clientBlock : Bytes}
    (hblock : block.length = HandshakeSchema.blockSize)
    (hclient : clientBlock.length = HandshakeSchema.blockSize) :
    (overwrite block (schema.keyOffset block)
      (sliceAt clientBlock (schema.keyOffset clientBlock) 128)).length =
        HandshakeSchema.blockSize := by
  rw [length_overwrite, hblock]
  rw [length_key schema hclient, hblock]
  exact schema.keyOffset_add_le block

theorem length_marked (fill : Fill) :
    (Bytes.ofWord32 fill.time ++ [4, 5, 0, 1] ++ fill.first).length =
      HandshakeSchema.blockSize := by
  simp [Bytes.ofWord32, fill.length_first, HandshakeSchema.blockSize]

theorem length_signedFirst (keyed : KeyedDigest) (fill : Fill) (schema : HandshakeSchema)
    {clientBlock : Bytes} (hclient : clientBlock.length = HandshakeSchema.blockSize) :
    (signedFirst keyed fill schema clientBlock).length = HandshakeSchema.blockSize := by
  have hwithKey := length_withKey schema (length_marked fill) hclient
  simp only [signedFirst]
  rw [length_overwrite, hwithKey]
  rw [length_digestExcluding, hwithKey]
  exact schema.digestOffset_add_le _

/-- The layout that a client's block turns out to have. -/
def schemaOf (keyed : KeyedDigest) (clientBlock : Bytes) : HandshakeSchema :=
  ((validate? keyed clientBlock).map Prod.fst).getD .plain

/-- A whole block is always answered, in the same way whatever the fill but for
the bytes that come from it. -/
theorem exists_respond (keyed : KeyedDigest) (fill : Fill) {clientBlock : Bytes}
    (hclient : clientBlock.length = HandshakeSchema.blockSize) :
    ∃ response,
      respond keyed fill clientBlock = .ok (schemaOf keyed clientBlock, response) ∧
        response.length = 1 + 2 * HandshakeSchema.blockSize ∧
        response.head? = some version := by
  simp only [respond, hclient, ne_eq, not_true_eq_false, if_false, schemaOf]
  cases validate? keyed clientBlock with
  | none =>
      refine ⟨_, rfl, ?_, rfl⟩
      simp only [List.cons_append, List.length_cons, List.length_append,
        length_plainFirst, hclient]
      omega
  | some found =>
      obtain ⟨schema, digest⟩ := found
      refine ⟨_, rfl, ?_, rfl⟩
      simp only [List.cons_append, List.length_cons, List.length_append,
        length_signedFirst keyed fill schema hclient, length_signedSecond]
      omega

end Handshake

end LiveRelay
