import LiveRelay.Bytes

/-!
# Keyed digests

SHA-256 works on 32-bit words: a message is padded to whole blocks of 64
bytes, each block is expanded to 64 words, and as many rounds mix them into
eight state words.  A keyed digest hashes the message behind one mask of the
key and the result behind another.

What relies on a keyed digest uses only that it has 32 bytes, and so takes any
`KeyedDigest`.
-/

namespace LiveRelay

namespace Sha256

/-! ## Tables -/

def roundConstants : List UInt32 :=
  [0x428A2F98, 0x71374491, 0xB5C0FBCF, 0xE9B5DBA5, 0x3956C25B, 0x59F111F1,
    0x923F82A4, 0xAB1C5ED5, 0xD807AA98, 0x12835B01, 0x243185BE, 0x550C7DC3,
    0x72BE5D74, 0x80DEB1FE, 0x9BDC06A7, 0xC19BF174, 0xE49B69C1, 0xEFBE4786,
    0x0FC19DC6, 0x240CA1CC, 0x2DE92C6F, 0x4A7484AA, 0x5CB0A9DC, 0x76F988DA,
    0x983E5152, 0xA831C66D, 0xB00327C8, 0xBF597FC7, 0xC6E00BF3, 0xD5A79147,
    0x06CA6351, 0x14292967, 0x27B70A85, 0x2E1B2138, 0x4D2C6DFC, 0x53380D13,
    0x650A7354, 0x766A0ABB, 0x81C2C92E, 0x92722C85, 0xA2BFE8A1, 0xA81A664B,
    0xC24B8B70, 0xC76C51A3, 0xD192E819, 0xD6990624, 0xF40E3585, 0x106AA070,
    0x19A4C116, 0x1E376C08, 0x2748774C, 0x34B0BCB5, 0x391C0CB3, 0x4ED8AA4A,
    0x5B9CCA4F, 0x682E6FF3, 0x748F82EE, 0x78A5636F, 0x84C87814, 0x8CC70208,
    0x90BEFFFA, 0xA4506CEB, 0xBEF9A3F7, 0xC67178F2]

structure State where
  a : UInt32
  b : UInt32
  c : UInt32
  d : UInt32
  e : UInt32
  f : UInt32
  g : UInt32
  h : UInt32

def initial : State :=
  ⟨0x6A09E667, 0xBB67AE85, 0x3C6EF372, 0xA54FF53A,
    0x510E527F, 0x9B05688C, 0x1F83D9AB, 0x5BE0CD19⟩

/-! ## Blocks -/

def rotate (word count : UInt32) : UInt32 :=
  (word >>> count) ||| (word <<< (32 - count))

/-- The word that follows sixteen others; `window` lists them last first. -/
def nextWord (window : List UInt32) : UInt32 :=
  match window[1]?, window[6]?, window[14]?, window[15]? with
  | some second, some seventh, some fifteenth, some sixteenth =>
      let low :=
        rotate fifteenth 7 ^^^ rotate fifteenth 18 ^^^ (fifteenth >>> 3)
      let high := rotate second 17 ^^^ rotate second 19 ^^^ (second >>> 10)
      sixteenth + low + seventh + high
  | _, _, _, _ => 0

/-- The words of a block and those that follow them, last first. -/
def expand : (more : Nat) → List UInt32 → List UInt32
  | 0, words => words
  | more + 1, words => expand more (nextWord words :: words)

def wordsOf : (count : Nat) → Bytes → List UInt32
  | 0, _ => []
  | count + 1, bytes => Bytes.word32 (bytes.take 4) :: wordsOf count (bytes.drop 4)

def round (state : State) (constant word : UInt32) : State :=
  let mixE := rotate state.e 6 ^^^ rotate state.e 11 ^^^ rotate state.e 25
  let choice := (state.e &&& state.f) ^^^ (~~~state.e &&& state.g)
  let first := state.h + mixE + choice + constant + word
  let mixA := rotate state.a 2 ^^^ rotate state.a 13 ^^^ rotate state.a 22
  let majority :=
    (state.a &&& state.b) ^^^ (state.a &&& state.c) ^^^ (state.b &&& state.c)
  ⟨first + mixA + majority, state.a, state.b, state.c,
    state.d + first, state.e, state.f, state.g⟩

def compress (state : State) (block : Bytes) : State :=
  let words := (expand 48 (wordsOf 16 block).reverse).reverse
  let mixed :=
    (roundConstants.zip words).foldl
      (fun state (constant, word) => round state constant word) state
  ⟨state.a + mixed.a, state.b + mixed.b, state.c + mixed.c, state.d + mixed.d,
    state.e + mixed.e, state.f + mixed.f, state.g + mixed.g, state.h + mixed.h⟩

def compressAll : (blocks : Nat) → State → Bytes → State
  | 0, state, _ => state
  | blocks + 1, state, bytes =>
      compressAll blocks (compress state (bytes.take 64)) (bytes.drop 64)

/-! ## Messages -/

/-- One bit, zeros and the length in bits fill the message to whole blocks. -/
def padded (message : Bytes) : Bytes :=
  let length := message.length
  message ++ 0x80 :: List.replicate ((119 - length % 64) % 64) 0 ++
    Bytes.ofNumber 8 (8 * length)

def output (state : State) : Bytes :=
  Bytes.ofWord32 state.a ++ Bytes.ofWord32 state.b ++ Bytes.ofWord32 state.c ++
    Bytes.ofWord32 state.d ++ Bytes.ofWord32 state.e ++ Bytes.ofWord32 state.f ++
    Bytes.ofWord32 state.g ++ Bytes.ofWord32 state.h

def hash (message : Bytes) : Bytes :=
  let bytes := padded message
  output (compressAll (bytes.length / 64) initial bytes)

theorem length_hash (message : Bytes) : (hash message).length = 32 := by
  simp [hash, output, Bytes.ofWord32]

end Sha256

/-! ## Keyed digests -/

/-- A digest of 32 bytes that depends on a key and a message. -/
structure KeyedDigest where
  digest : (key message : Bytes) → Bytes
  length_digest : ∀ key message, (digest key message).length = 32

namespace KeyedDigest

/-- A key longer than a block is hashed, a shorter one filled with zeros. -/
def blockKey (key : Bytes) : Bytes :=
  let key := if 64 < key.length then Sha256.hash key else key
  key ++ List.replicate (64 - key.length) 0

/-- The keyed digest made from SHA-256. -/
def sha256 : KeyedDigest where
  digest key message :=
    let key := blockKey key
    let inner := Sha256.hash (key.map (· ^^^ 0x36) ++ message)
    Sha256.hash (key.map (· ^^^ 0x5C) ++ inner)
  length_digest _ _ := Sha256.length_hash _

end KeyedDigest

end LiveRelay
