import LiveRelay.Proofs.HandshakeBlocks

/-!
# Digests in handshake blocks

The place of a digest follows from four bytes of the block, and so does the place
of a key.  Wherever these bytes point, the digest is not at them and not at the
key, nor is the key at any of them.  So what is written into a block moves
nothing, and who reads the finished block looks for the digest where it was put.

A client's block with the digest of its other bytes is recognised, whatever these
are.  If anything else stands in the place of the digest, the layout is given up,
and without another one that verifies the client is answered with its own block.
-/

namespace LiveRelay

/-! ## Regions of a block -/

structure Region where
  start : Nat
  size : Nat

namespace Region

def read (region : Region) (block : Bytes) : Bytes :=
  Handshake.sliceAt block region.start region.size

def IsWithin (inner outer : Region) : Prop :=
  outer.start ≤ inner.start ∧ inner.start + inner.size ≤ outer.start + outer.size

/-- No byte is in both. -/
def IsApart (region other : Region) : Prop :=
  region.start + region.size ≤ other.start ∨ other.start + other.size ≤ region.start

/-- Two blocks that may differ in the region and do not differ elsewhere. -/
structure AgreeOutside (region : Region) (block other : Bytes) : Prop where
  length_eq : other.length = block.length
  front : other.take region.start = block.take region.start
  behind : other.drop (region.start + region.size) = block.drop (region.start + region.size)

section AgreeOutside

variable {region wanted : Region} {block other : Bytes}

theorem AgreeOutside.read_eq (hagree : region.AgreeOutside block other)
    (hapart : region.IsApart wanted) : wanted.read other = wanted.read block := by
  rcases hapart with hbehind | hfront
  · have hdropped : ∀ bytes : Bytes, wanted.read bytes =
        ((bytes.drop (region.start + region.size)).drop
          (wanted.start - (region.start + region.size))).take wanted.size := by
      intro bytes
      rw [List.drop_drop, Nat.add_sub_cancel' hbehind]
      rfl
    rw [hdropped, hdropped, hagree.behind]
  · have htaken : ∀ bytes : Bytes, wanted.read bytes =
        ((bytes.take region.start).drop wanted.start).take wanted.size := by
      intro bytes
      rw [List.drop_take, List.take_take, Nat.min_eq_left (Nat.le_sub_of_add_le' hfront)]
      rfl
    rw [htaken, htaken, hagree.front]

theorem AgreeOutside.eq_of_read_eq (hagree : region.AgreeOutside block other)
    (hread : region.read other = region.read block) : other = block := by
  have hsplit : ∀ bytes : Bytes, bytes = bytes.take region.start ++
      (region.read bytes ++ bytes.drop (region.start + region.size)) := by
    intro bytes
    rw [← List.drop_drop, read, Handshake.sliceAt, List.take_append_drop,
      List.take_append_drop]
  rw [hsplit other, hsplit block, hagree.front, hread, hagree.behind]

variable {piece : Bytes} (hfits : region.start + region.size ≤ block.length)
  (hpiece : piece.length = region.size)
include hfits hpiece

theorem agreeOutside_overwrite :
    region.AgreeOutside block (Handshake.overwrite block region.start piece) := by
  have hfront : (block.take region.start).length = region.start :=
    List.length_take_of_le (Nat.le_of_add_right_le hfits)
  refine ⟨Handshake.length_overwrite (hpiece ▸ hfits), ?_, ?_⟩
  · rw [Handshake.overwrite, List.append_assoc, List.take_left' hfront]
  · rw [Handshake.overwrite, hpiece]
    exact List.drop_left' (by rw [List.length_append, hfront, hpiece])

theorem read_overwrite :
    region.read (Handshake.overwrite block region.start piece) = piece := by
  have hfront : (block.take region.start).length = region.start :=
    List.length_take_of_le (Nat.le_of_add_right_le hfits)
  rw [read, Handshake.sliceAt, Handshake.overwrite, List.append_assoc,
    List.drop_left' hfront, List.take_left' hpiece]

end AgreeOutside

end Region

/-! ## The layout of a block -/

namespace HandshakeSchema

def digestBlock (schema : HandshakeSchema) : Region :=
  ⟨schema.digestBlockStart, 764⟩

def keyBlock (schema : HandshakeSchema) : Region :=
  ⟨schema.keyBlockStart, 764⟩

/-- The bytes that say where the digest is. -/
def digestPosition (schema : HandshakeSchema) : Region :=
  ⟨schema.digestBlockStart, 4⟩

/-- The bytes that say where the key is. -/
def keyPosition (schema : HandshakeSchema) : Region :=
  ⟨schema.keyBlockStart + 760, 4⟩

def digestRegion (schema : HandshakeSchema) (block : Bytes) : Region :=
  ⟨schema.digestOffset block, 32⟩

def keyRegion (schema : HandshakeSchema) (block : Bytes) : Region :=
  ⟨schema.keyOffset block, 128⟩

/-- Digest and key are in their own blocks, and apart from each other and from
the bytes that say where they are. -/
structure IsLaidOut (schema : HandshakeSchema) (block : Bytes) : Prop where
  digest_within : (schema.digestRegion block).IsWithin schema.digestBlock
  key_within : (schema.keyRegion block).IsWithin schema.keyBlock
  digest_apart_key : (schema.digestRegion block).IsApart (schema.keyRegion block)
  digest_apart_digestPosition : (schema.digestRegion block).IsApart schema.digestPosition
  digest_apart_keyPosition : (schema.digestRegion block).IsApart schema.keyPosition
  key_apart_digestPosition : (schema.keyRegion block).IsApart schema.digestPosition
  key_apart_keyPosition : (schema.keyRegion block).IsApart schema.keyPosition

theorem isLaidOut (schema : HandshakeSchema) (block : Bytes) : schema.IsLaidOut block := by
  have hdigest := Nat.mod_lt (sumAt block schema.digestBlockStart) (show 0 < 728 by decide)
  have hkey := Nat.mod_lt (sumAt block (schema.keyBlockStart + 760)) (show 0 < 632 by decide)
  -- The two blocks do not meet, in whichever order they stand.
  have hblocks : schema.digestBlockStart + 764 ≤ schema.keyBlockStart ∨
      schema.keyBlockStart + 764 ≤ schema.digestBlockStart := by
    cases schema <;> decide
  constructor <;>
    simp only [Region.IsWithin, Region.IsApart, digestRegion, digestOffset, keyRegion, keyOffset,
      digestBlock, keyBlock, digestPosition, keyPosition] <;>
    omega

section AgreeOutside

variable {region : Region} {block other : Bytes} (hagree : region.AgreeOutside block other)
include hagree

theorem sumAt_of_agreeOutside {start : Nat} (hapart : region.IsApart ⟨start, 4⟩) :
    sumAt other start = sumAt block start :=
  congrArg (List.foldl (fun total (byte : UInt8) => total + byte.toNat) 0)
    (hagree.read_eq hapart)

theorem digestOffset_of_agreeOutside {schema : HandshakeSchema}
    (hapart : region.IsApart schema.digestPosition) :
    schema.digestOffset other = schema.digestOffset block := by
  simp only [digestOffset, sumAt_of_agreeOutside hagree hapart]

theorem keyOffset_of_agreeOutside {schema : HandshakeSchema}
    (hapart : region.IsApart schema.keyPosition) :
    schema.keyOffset other = schema.keyOffset block := by
  simp only [keyOffset, sumAt_of_agreeOutside hagree hapart]

end AgreeOutside

end HandshakeSchema

/-! ## Blocks that carry a digest -/

namespace Handshake

open HandshakeSchema

/-- In the place of the digest stands the digest of the other bytes. -/
def Carries (keyed : KeyedDigest) (key : Bytes) (schema : HandshakeSchema) (block : Bytes) :
    Prop :=
  (schema.digestRegion block).read block =
    digestExcluding keyed key block (schema.digestOffset block)

instance (keyed : KeyedDigest) (key : Bytes) (schema : HandshakeSchema) (block : Bytes) :
    Decidable (Carries keyed key schema block) :=
  inferInstanceAs (Decidable (_ = _))

def sign (keyed : KeyedDigest) (key : Bytes) (schema : HandshakeSchema) (block : Bytes) :
    Bytes :=
  overwrite block (schema.digestOffset block)
    (digestExcluding keyed key block (schema.digestOffset block))

section Carries

variable {keyed : KeyedDigest} {key : Bytes} {schema : HandshakeSchema} {block other : Bytes}

theorem digestOffset_of_agree (hagree : (schema.digestRegion block).AgreeOutside block other) :
    schema.digestOffset other = schema.digestOffset block :=
  digestOffset_of_agreeOutside hagree (schema.isLaidOut block).digest_apart_digestPosition

theorem digestExcluding_of_agree (hagree : (schema.digestRegion block).AgreeOutside block other) :
    digestExcluding keyed key other (schema.digestOffset block) =
      digestExcluding keyed key block (schema.digestOffset block) := by
  have hfront : other.take (schema.digestOffset block) = block.take (schema.digestOffset block) :=
    hagree.front
  have hbehind : other.drop (schema.digestOffset block + 32) =
      block.drop (schema.digestOffset block + 32) := hagree.behind
  rw [digestExcluding, hfront, hbehind, digestExcluding]

/-- Two blocks that carry their digest differ in more than the digest. -/
theorem Carries.eq_of_agree (hblock : Carries keyed key schema block)
    (hother : Carries keyed key schema other)
    (hagree : (schema.digestRegion block).AgreeOutside block other) : other = block := by
  apply hagree.eq_of_read_eq
  have hoffset := digestOffset_of_agree hagree
  unfold Carries at hblock hother
  rw [digestRegion, hoffset, digestExcluding_of_agree hagree] at hother
  exact hother.trans hblock.symm

variable (keyed key schema) (hblock : block.length = blockSize)
include hblock

theorem agreeOutside_sign :
    (schema.digestRegion block).AgreeOutside block (sign keyed key schema block) :=
  Region.agreeOutside_overwrite (hblock ▸ schema.digestOffset_add_le block)
    (length_digestExcluding ..)

theorem digestOffset_sign :
    schema.digestOffset (sign keyed key schema block) = schema.digestOffset block :=
  digestOffset_of_agree (agreeOutside_sign keyed key schema hblock)

theorem length_sign : (sign keyed key schema block).length = blockSize :=
  (agreeOutside_sign keyed key schema hblock).length_eq.trans hblock

theorem carries_sign : Carries keyed key schema (sign keyed key schema block) := by
  have hagree := agreeOutside_sign keyed key schema hblock
  rw [Carries, digestRegion, digestOffset_sign keyed key schema hblock,
    digestExcluding_of_agree hagree]
  exact Region.read_overwrite (hblock ▸ schema.digestOffset_add_le block)
    (length_digestExcluding ..)

end Carries

/-! ## The client's block -/

/-- The client has put its digest where the layout has it. -/
abbrev IsSigned (keyed : KeyedDigest) (schema : HandshakeSchema) (block : Bytes) : Prop :=
  Carries keyed (clientKey.take 30) schema block

section Validate

variable {keyed : KeyedDigest} {block : Bytes}

theorem digestUnder?_eq (schema : HandshakeSchema) :
    digestUnder? keyed block schema =
      if IsSigned keyed schema block then some (schema, (schema.digestRegion block).read block)
      else none := by
  by_cases hsigned : IsSigned keyed schema block
  · have hcarried : sliceAt block (schema.digestOffset block) 32 =
        digestExcluding keyed (clientKey.take 30) block (schema.digestOffset block) := hsigned
    rw [if_pos hsigned, digestUnder?, if_pos hcarried, ← hcarried]
    rfl
  · rw [if_neg hsigned]
    exact if_neg hsigned

variable (hblock : block.length = blockSize)
include hblock

theorem validate?_eq_orElse :
    validate? keyed block =
      (digestUnder? keyed block .keyFirst).or (digestUnder? keyed block .digestFirst) := by
  rw [validate?, if_pos hblock]
  simp only [List.findSome?_cons, List.findSome?_nil]
  cases digestUnder? keyed block .keyFirst with
  | none => cases digestUnder? keyed block .digestFirst <;> rfl
  | some found => rfl

/-- The layout with the key in front is tried first. -/
theorem validate?_of_keyFirst (hsigned : IsSigned keyed .keyFirst block) :
    validate? keyed block =
      some (.keyFirst, (HandshakeSchema.keyFirst.digestRegion block).read block) := by
  rw [validate?_eq_orElse hblock, digestUnder?_eq, if_pos hsigned, Option.some_or]

theorem validate?_of_not_keyFirst (hunsigned : ¬ IsSigned keyed .keyFirst block) :
    validate? keyed block = digestUnder? keyed block .digestFirst := by
  rw [validate?_eq_orElse hblock, digestUnder?_eq .keyFirst, if_neg hunsigned, Option.none_or]

theorem validate?_eq_none (hkeyFirst : ¬ IsSigned keyed .keyFirst block)
    (hdigestFirst : ¬ IsSigned keyed .digestFirst block) : validate? keyed block = none := by
  rw [validate?_of_not_keyFirst hblock hkeyFirst, digestUnder?_eq, if_neg hdigestFirst]

end Validate

theorem length_of_validate? {keyed : KeyedDigest} {block digest : Bytes}
    {schema : HandshakeSchema} (hvalid : validate? keyed block = some (schema, digest)) :
    block.length = blockSize := by
  unfold validate? at hvalid
  split at hvalid
  · assumption
  · cases hvalid

theorem isSigned_of_validate? {keyed : KeyedDigest} {block digest : Bytes}
    {schema : HandshakeSchema} (hvalid : validate? keyed block = some (schema, digest)) :
    IsSigned keyed schema block := by
  have hblock := length_of_validate? hvalid
  by_cases hkeyFirst : IsSigned keyed .keyFirst block
  · rw [validate?_of_keyFirst hblock hkeyFirst] at hvalid
    cases hvalid
    exact hkeyFirst
  · rw [validate?_of_not_keyFirst hblock hkeyFirst, digestUnder?_eq] at hvalid
    split at hvalid
    · cases hvalid
      assumption
    · cases hvalid

/-- A client's block with its digest is recognised, under the layout with the key
in front if it verifies under that one too.  With anything else in the place of
the digest it no longer verifies, and unless the other layout does, the second
block of the answer repeats it. -/
theorem validates_signed_not_damaged (keyed : KeyedDigest) (fill : Fill) {block : Bytes}
    (hblock : block.length = blockSize) {schema : HandshakeSchema} (hschema : schema ≠ .plain) :
    let signed := sign keyed (clientKey.take 30) schema block
    schema.digestOffset signed = schema.digestOffset block ∧
    (schema = .keyFirst ∨ ¬ IsSigned keyed .keyFirst signed →
      validate? keyed signed = some (schema, (schema.digestRegion signed).read signed)) ∧
    (IsSigned keyed .keyFirst signed →
      validate? keyed signed =
        some (.keyFirst, (HandshakeSchema.keyFirst.digestRegion signed).read signed)) ∧
    ∀ damaged, (schema.digestRegion block).AgreeOutside signed damaged → damaged ≠ signed →
      ¬ IsSigned keyed schema damaged ∧
      (∀ digest, validate? keyed damaged ≠ some (schema, digest)) ∧
      ((∀ other, other ≠ .plain → other ≠ schema → ¬ IsSigned keyed other damaged) →
        validate? keyed damaged = none ∧
        ∃ first, first.length = blockSize ∧
          respond keyed fill damaged = .ok (.plain, version :: first ++ damaged)) := by
  intro signed
  have hlength : signed.length = blockSize := length_sign keyed _ schema hblock
  have hoffset : schema.digestOffset signed = schema.digestOffset block :=
    digestOffset_sign keyed _ schema hblock
  have hsigned : IsSigned keyed schema signed := carries_sign keyed _ schema hblock
  refine ⟨hoffset, fun hfirst => ?_, validate?_of_keyFirst hlength, ?_⟩
  · cases schema with
    | keyFirst => exact validate?_of_keyFirst hlength hsigned
    | digestFirst =>
        have hunsigned := hfirst.resolve_left (by decide)
        rw [validate?_of_not_keyFirst hlength hunsigned, digestUnder?_eq, if_pos hsigned]
    | plain => exact absurd rfl hschema
  · intro damaged hagree hne
    have hunsigned : ¬ IsSigned keyed schema damaged := by
      intro hdamaged
      rw [digestRegion, ← hoffset] at hagree
      exact hne (hsigned.eq_of_agree hdamaged hagree)
    refine ⟨hunsigned, fun digest hvalid => hunsigned (isSigned_of_validate? hvalid),
      fun hothers => ?_⟩
    have hnone : ∀ other, other ≠ .plain → ¬ IsSigned keyed other damaged := by
      intro other hother
      by_cases hsame : other = schema
      · exact hsame ▸ hunsigned
      · exact hothers other hother hsame
    have hdamaged : damaged.length = blockSize := hagree.length_eq.trans hlength
    have hinvalid := validate?_eq_none hdamaged (hnone .keyFirst (by decide))
      (hnone .digestFirst (by decide))
    refine ⟨hinvalid, plainFirst fill, length_plainFirst fill, ?_⟩
    rw [respond, if_neg (not_not_intro hdamaged), hinvalid]

/-- A block of zeros, signed by a client that puts the key in front. -/
theorem validates_signed_not_damaged_of_zeros :
    let block : Bytes := List.replicate 1536 0
    let signed := sign .sha256 (clientKey.take 30) .keyFirst block
    block.length = blockSize ∧ HandshakeSchema.keyFirst ≠ .plain ∧
    HandshakeSchema.keyFirst.digestOffset signed = 776 ∧
    validate? .sha256 signed = some (.keyFirst, sliceAt signed 776 32) ∧
    ∀ damaged, Region.AgreeOutside ⟨776, 32⟩ signed damaged → damaged ≠ signed →
      ∀ digest, validate? .sha256 damaged ≠ some (.keyFirst, digest) := by
  intro block signed
  have hblock : block.length = blockSize := List.length_replicate
  have hplace : HandshakeSchema.keyFirst.digestOffset block = 776 := by decide +kernel
  obtain ⟨hoffset, hvalid, -, hdamaged⟩ := validates_signed_not_damaged .sha256
    (.constant 0) hblock (show HandshakeSchema.keyFirst ≠ .plain by decide)
  have hread := hvalid (.inl rfl)
  rw [digestRegion, hoffset, hplace] at hread
  rw [digestRegion, hplace] at hdamaged
  exact ⟨hblock, by decide, hoffset.trans hplace, hread,
    fun damaged hagree hne => (hdamaged damaged hagree hne).2.1⟩

/-! ## The server's blocks -/

/-- The server's first block before it is signed: the time, the version, random
bytes, and the client's key. -/
def keyedFirst (fill : Fill) (schema : HandshakeSchema) (clientBlock : Bytes) : Bytes :=
  let unsigned := Bytes.ofWord32 fill.time ++ [4, 5, 0, 1] ++ fill.first
  overwrite unsigned (schema.keyOffset unsigned)
    (sliceAt clientBlock (schema.keyOffset clientBlock) 128)

theorem signedFirst_eq_sign (keyed : KeyedDigest) (fill : Fill) (schema : HandshakeSchema)
    (clientBlock : Bytes) :
    signedFirst keyed fill schema clientBlock =
      sign keyed (serverKey.take 36) schema (keyedFirst fill schema clientBlock) :=
  rfl

section Answer

variable (keyed : KeyedDigest) (fill : Fill) (schema : HandshakeSchema) {clientBlock : Bytes}
  (hclient : clientBlock.length = blockSize)
include hclient

theorem length_keyedFirst : (keyedFirst fill schema clientBlock).length = blockSize :=
  length_withKey schema (length_marked fill) hclient

/-- Writing the key does not move it. -/
theorem key_keyedFirst :
    (schema.keyRegion (keyedFirst fill schema clientBlock)).read
        (keyedFirst fill schema clientBlock) =
      (schema.keyRegion clientBlock).read clientBlock := by
  let unsigned := Bytes.ofWord32 fill.time ++ [4, 5, 0, 1] ++ fill.first
  have hunsigned : unsigned.length = blockSize := length_marked fill
  have hfits : schema.keyOffset unsigned + 128 ≤ unsigned.length :=
    hunsigned ▸ schema.keyOffset_add_le unsigned
  have hkey := length_key schema hclient
  have hagree : (schema.keyRegion unsigned).AgreeOutside unsigned
      (keyedFirst fill schema clientBlock) := Region.agreeOutside_overwrite hfits hkey
  have hoffset := keyOffset_of_agreeOutside hagree
    (schema.isLaidOut unsigned).key_apart_keyPosition
  have hread : (schema.keyRegion unsigned).read (keyedFirst fill schema clientBlock) =
      (schema.keyRegion clientBlock).read clientBlock := Region.read_overwrite hfits hkey
  rw [keyRegion, hoffset]
  exact hread

/-- Nor does signing move or change the key. -/
theorem key_signedFirst :
    (schema.keyRegion (signedFirst keyed fill schema clientBlock)).read
        (signedFirst keyed fill schema clientBlock) =
      (schema.keyRegion clientBlock).read clientBlock := by
  have hlaid := schema.isLaidOut (keyedFirst fill schema clientBlock)
  have hagree := agreeOutside_sign keyed (serverKey.take 36) schema
    (length_keyedFirst fill schema hclient)
  have hoffset := keyOffset_of_agreeOutside hagree hlaid.digest_apart_keyPosition
  rw [signedFirst_eq_sign, keyRegion, hoffset, ← key_keyedFirst fill schema hclient]
  exact hagree.read_eq hlaid.digest_apart_key

end Answer

theorem drop_signedSecond (keyed : KeyedDigest) (fill : Fill) (digest : Bytes) :
    (signedSecond keyed fill digest).drop 1504 =
      keyed.digest (keyed.digest serverKey digest)
        ((signedSecond keyed fill digest).take 1504) := by
  have hbody : (fill.second.take 1504).length = 1504 := by
    rw [List.length_take, fill.length_second]
    rfl
  rw [signedSecond, List.drop_left' hbody, List.take_left' hbody]

/-- The answer to a client's block that carries its digest.  In the first block
the client finds a digest of the server's and its own key, each where the bytes of
the finished block point, and the second block ends in a digest that is made with
the client's own one. -/
theorem respond_verifies (keyed : KeyedDigest) (fill : Fill) {clientBlock digest : Bytes}
    {schema : HandshakeSchema} (hvalid : validate? keyed clientBlock = some (schema, digest)) :
    ∃ first second, respond keyed fill clientBlock = .ok (schema, version :: first ++ second) ∧
      first.length = blockSize ∧ second.length = blockSize ∧
      (schema.digestRegion first).read first =
        digestExcluding keyed (serverKey.take 36) first (schema.digestOffset first) ∧
      (schema.keyRegion first).read first = (schema.keyRegion clientBlock).read clientBlock ∧
      schema.IsLaidOut first ∧
      second.drop 1504 = keyed.digest (keyed.digest serverKey digest) (second.take 1504) := by
  have hclient := length_of_validate? hvalid
  refine ⟨signedFirst keyed fill schema clientBlock, signedSecond keyed fill digest, ?_,
    length_signedFirst keyed fill schema hclient, length_signedSecond keyed fill digest,
    carries_sign keyed _ schema (length_keyedFirst fill schema hclient),
    key_signedFirst keyed fill schema hclient, schema.isLaidOut _,
    drop_signedSecond keyed fill digest⟩
  rw [respond, if_neg (not_not_intro hclient), hvalid]

/-- The answer to a block of zeros with the digest that a client gives it. -/
theorem respond_verifies_of_zeros :
    let clientBlock := sign .sha256 (clientKey.take 30) .keyFirst (List.replicate 1536 0)
    let digest := sliceAt clientBlock 776 32
    validate? .sha256 clientBlock = some (.keyFirst, digest) ∧
    ∃ first second,
      respond .sha256 (.constant 7) clientBlock = .ok (.keyFirst, version :: first ++ second) ∧
      first.length = blockSize ∧ second.length = blockSize ∧
      sliceAt first (HandshakeSchema.keyFirst.digestOffset first) 32 =
        digestExcluding .sha256 (serverKey.take 36) first
          (HandshakeSchema.keyFirst.digestOffset first) ∧
      second.drop 1504 = KeyedDigest.sha256.digest
        (KeyedDigest.sha256.digest serverKey digest) (second.take 1504) := by
  intro clientBlock digest
  have hzeros : (List.replicate 1536 (0 : UInt8)).length = blockSize := List.length_replicate
  have hoffset : HandshakeSchema.keyFirst.digestOffset clientBlock = 776 :=
    (digestOffset_sign .sha256 _ .keyFirst hzeros).trans (by decide +kernel)
  have hvalid : validate? .sha256 clientBlock = some (.keyFirst, digest) := by
    rw [validate?_of_keyFirst (length_sign .sha256 _ .keyFirst hzeros)
      (carries_sign .sha256 _ .keyFirst hzeros), digestRegion, hoffset]
    rfl
  obtain ⟨first, second, hrespond, hfirst, hsecond, hdigest, -, -, hsigned⟩ :=
    respond_verifies .sha256 (.constant 7) hvalid
  exact ⟨hvalid, first, second, hrespond, hfirst, hsecond, hdigest, hsigned⟩

end Handshake

end LiveRelay
