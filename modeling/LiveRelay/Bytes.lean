/-!
# Byte strings

Wire data is a list of bytes.  This file has fixed-width numbers in network
order, the split of a byte string at a length it may not reach, and the UTF-8
form of text.  A number written with `ofNumber` is read back by `number`, up
to the width it was given, and every byte string is the written form of its
own number.
-/

namespace LiveRelay

abbrev Bytes := List UInt8

namespace Bytes

/-! ## Splitting -/

/-- Whether at least `count` bytes are there, looking at no more than that. -/
def reaches (count : Nat) (bytes : Bytes) : Bool :=
  (bytes.take count).length == count

@[simp] theorem reaches_iff (count : Nat) (bytes : Bytes) :
    reaches count bytes = true ↔ count ≤ bytes.length := by
  simp only [reaches, List.length_take, beq_iff_eq]
  omega

/-- The first `count` bytes and what follows them, if there are as many. -/
def split? (count : Nat) (bytes : Bytes) : Option (Bytes × Bytes) :=
  let taken := bytes.take count
  if taken.length = count then some (taken, bytes.drop count) else none

theorem split?_eq (count : Nat) (bytes : Bytes) :
    split? count bytes =
      if count ≤ bytes.length then
        some (bytes.take count, bytes.drop count)
      else none := by
  by_cases hcount : count ≤ bytes.length
  · simp [split?, hcount]
  · have hne : min count bytes.length ≠ count := by omega
    simp [split?, hcount, hne]

theorem split?_append (taken rest : Bytes) :
    split? taken.length (taken ++ rest) = some (taken, rest) := by
  simp [split?]

theorem split?_eq_some_iff {count : Nat} {bytes taken rest : Bytes} :
    split? count bytes = some (taken, rest) ↔
      bytes = taken ++ rest ∧ taken.length = count := by
  constructor
  · intro hsplit
    rw [split?_eq] at hsplit
    split at hsplit
    · rename_i hcount
      obtain ⟨rfl, rfl⟩ := Prod.mk.inj (Option.some.inj hsplit)
      exact ⟨(List.take_append_drop count bytes).symm, List.length_take_of_le hcount⟩
    · cases hsplit
  · rintro ⟨rfl, rfl⟩
    exact split?_append taken rest

/-! ## Numbers -/

/-- The number written by the bytes, most significant byte first. -/
def number (bytes : Bytes) : Nat :=
  bytes.foldl (fun total byte => total * 256 + byte.toNat) 0

/-- How many numbers can be written with `width` bytes. -/
def capacity : (width : Nat) → Nat
  | 0 => 1
  | width + 1 => capacity width * 256

/-- The low bytes of a number, most significant byte first. -/
def ofNumber : (width : Nat) → Nat → Bytes
  | 0, _ => []
  | width + 1, value =>
      UInt8.ofNat (value / capacity width) :: ofNumber width value

@[simp] theorem length_ofNumber (width value : Nat) :
    (ofNumber width value).length = width := by
  induction width with
  | zero => rfl
  | succ width ih => simp [ofNumber, ih]

theorem mod_capacity_succ (width value : Nat) :
    value % capacity (width + 1) =
      value % capacity width + capacity width * (value / capacity width % 256) :=
  Nat.mod_mul

theorem foldl_ofNumber (width value total : Nat) :
    (ofNumber width value).foldl
        (fun total byte => total * 256 + byte.toNat) total =
      total * capacity width + value % capacity width := by
  induction width generalizing total with
  | zero => simp [ofNumber, capacity, Nat.mod_one]
  | succ width ih =>
      simp only [ofNumber, List.foldl_cons, ih, mod_capacity_succ, UInt8.toNat_ofNat']
      have hdigit : (2 : Nat).pow 8 = 256 := rfl
      simp only [capacity]
      grind

theorem number_ofNumber (width value : Nat) :
    number (ofNumber width value) = value % capacity width := by
  simp [number, foldl_ofNumber]

def ofWord16 (word : UInt16) : Bytes := ofNumber 2 word.toNat

/-- Only the low 24 bits are written. -/
def ofWord24 (word : UInt32) : Bytes := ofNumber 3 word.toNat

def ofWord32 (word : UInt32) : Bytes := ofNumber 4 word.toNat

def ofWord64 (word : UInt64) : Bytes := ofNumber 8 word.toNat

def word16 (bytes : Bytes) : UInt16 := UInt16.ofNat (number bytes)

def word32 (bytes : Bytes) : UInt32 := UInt32.ofNat (number bytes)

def word64 (bytes : Bytes) : UInt64 := UInt64.ofNat (number bytes)

theorem word32_ofWord32 (word : UInt32) : word32 (ofWord32 word) = word := by
  have hlt : word.toNat < capacity 4 := word.toNat_lt
  simp only [word32, ofWord32, number_ofNumber]
  rw [Nat.mod_eq_of_lt hlt, UInt32.ofNat_toNat]

theorem word64_ofWord64 (word : UInt64) : word64 (ofWord64 word) = word := by
  have hlt : word.toNat < capacity 8 := word.toNat_lt
  simp only [word64, ofWord64, number_ofNumber]
  rw [Nat.mod_eq_of_lt hlt, UInt64.ofNat_toNat]

/-! ## Text -/

def ofText (text : String) : Bytes :=
  text.toUTF8.data.toList

/-- The text with this UTF-8 form, if the bytes are well-formed UTF-8. -/
def toText? (bytes : Bytes) : Option String :=
  String.fromUTF8? ⟨bytes.toArray⟩

theorem toText?_ofText (text : String) : toText? (ofText text) = some text := by
  have hbytes : (⟨(ofText text).toArray⟩ : ByteArray) = text.toByteArray := by
    simp [ofText]
  unfold toText?
  rw [hbytes]
  unfold String.fromUTF8?
  rw [dif_pos text.isValidUTF8]
  rfl

end Bytes

end LiveRelay
