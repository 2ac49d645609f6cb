/-!
# Double-precision numbers as bit patterns

A number on the wire is a 64-bit pattern, and it has to leave as it came, the
payload of a NaN included.  So the pattern is the number here, and the few
operations needed on numbers are integer arithmetic on its three fields: the
comparison that takes the two zeros for equal and a NaN for different from
itself, the cut to an unsigned 32-bit word, and the nearest pattern of a
quotient of natural numbers, with ties to the even pattern.
-/

namespace LiveRelay

structure Binary64 where
  bits : UInt64
  deriving DecidableEq, Inhabited, Repr

namespace Binary64

/-! ## Fields -/

def isNegative (number : Binary64) : Bool :=
  number.bits.toNat >>> 63 == 1

/-- The lowest number that needs 53 bits. -/
def hiddenBit : Nat := 0x10000000000000

def exponentField (number : Binary64) : Nat :=
  number.bits.toNat >>> 52 % 2048

def fraction (number : Binary64) : Nat :=
  number.bits.toNat % hiddenBit

/-- The magnitude of a finite number is `significand * 2 ^ (scale - 1075)`. -/
def significand (number : Binary64) : Nat :=
  if number.exponentField = 0 then number.fraction
  else hiddenBit + number.fraction

def scale (number : Binary64) : Nat :=
  max number.exponentField 1

def isNaN (number : Binary64) : Bool :=
  number.exponentField == 2047 && number.fraction != 0

def isInfinite (number : Binary64) : Bool :=
  number.exponentField == 2047 && number.fraction == 0

/-- Both zeros count. -/
def isZero (number : Binary64) : Bool :=
  number.exponentField == 0 && number.fraction == 0

/-! ## Operations -/

def zero : Binary64 := ⟨0⟩

def infinity : Binary64 := ⟨0x7FF0000000000000⟩

def negate (number : Binary64) : Binary64 :=
  ⟨number.bits ^^^ 0x8000000000000000⟩

/-- Numeric equality: the zeros are equal and a NaN equals nothing. -/
def same (left right : Binary64) : Bool :=
  !left.isNaN && !right.isNaN &&
    (left == right || (left.isZero && right.isZero))

/-- The magnitude of a finite number as a quotient of natural numbers. -/
def magnitude (number : Binary64) : Nat × Nat :=
  (number.significand <<< (number.scale - 1075), 1 <<< (1075 - number.scale))

/-- The integer part, as near as an unsigned 32-bit word comes to it; zero for
a NaN. -/
def truncate32 (number : Binary64) : UInt32 :=
  if number.isNaN || number.isNegative then 0
  else if number.isInfinite then 0xFFFFFFFF
  else
    let (numerator, denominator) := number.magnitude
    UInt32.ofNat (min (numerator / denominator) 0xFFFFFFFF)

/-- A quotient rounded to a natural number, half to even. -/
def divideEven (numerator denominator : Nat) : Nat :=
  let quotient := numerator / denominator
  let twice := 2 * (numerator % denominator)
  if twice < denominator then quotient
  else if denominator < twice then quotient + 1
  else quotient + quotient % 2

/-- The number nearest to a quotient.  The scale is chosen so that the
significand has 53 bits, or the smallest scale if that is not to be had; a
significand that rounds up to the next power of two carries into the
exponent field. -/
def ofRatio (numerator denominator : Nat) : Binary64 :=
  if numerator = 0 then zero
  else
    let roughly := numerator.log2 + 1023 - denominator.log2
    let fits :=
      numerator <<< (1075 - roughly) <
        hiddenBit * denominator <<< (roughly - 1075)
    let scale := max (if fits then roughly - 1 else roughly) 1
    let rounded :=
      divideEven (numerator <<< (1075 - scale))
        (denominator <<< (scale - 1075))
    if scale < 2047 then
      let pattern := (scale - 1) * hiddenBit + rounded
      if pattern < infinity.bits.toNat then ⟨UInt64.ofNat pattern⟩
      else infinity
    else infinity

def ofNat (value : Nat) : Binary64 :=
  ofRatio value 1

def ofInt (value : Int) : Binary64 :=
  if value < 0 then (ofNat value.natAbs).negate else ofNat value.natAbs

/-- The sum of two finite numbers that are not negative. -/
def addMagnitudes (left right : Binary64) : Binary64 :=
  let (leftNumerator, leftDenominator) := left.magnitude
  let (rightNumerator, rightDenominator) := right.magnitude
  ofRatio (leftNumerator * rightDenominator + rightNumerator * leftDenominator)
    (leftDenominator * rightDenominator)

/-- The quotient of two finite numbers, the second one not zero, neither
negative. -/
def divideMagnitudes (left right : Binary64) : Binary64 :=
  let (leftNumerator, leftDenominator) := left.magnitude
  let (rightNumerator, rightDenominator) := right.magnitude
  ofRatio (leftNumerator * rightDenominator) (leftDenominator * rightNumerator)

/-! ## Integers are exact -/

theorem divideEven_one (value : Nat) : divideEven value 1 = value := by
  simp [divideEven, Nat.mod_one]

theorem magnitude_of_scale {number : Binary64} {under : Nat}
    (hscale : number.scale + under = 1075) :
    number.magnitude = (number.significand, 1 <<< under) := by
  have hnumerator :
      number.significand <<< (number.scale - 1075) = number.significand := by
    have hzero : number.scale - 1075 = 0 := by omega
    rw [hzero, Nat.shiftLeft_zero]
  have hdenominator : 1 <<< (1075 - number.scale) = 1 <<< under := by
    obtain rfl : under = 1075 - number.scale := by omega
    rfl
  exact Prod.ext hnumerator hdenominator

section Naturals

variable {value : Nat} (hpos : value ≠ 0) (hlt : value < 2 * hiddenBit)
include hpos hlt

theorem log2_le : value.log2 ≤ 52 :=
  Nat.le_of_lt_succ ((Nat.log2_lt hpos).mpr hlt)

theorem shifted_bounds :
    hiddenBit ≤ value <<< (52 - value.log2) ∧
      value <<< (52 - value.log2) < 2 * hiddenBit := by
  have hbase : hiddenBit = 2 ^ value.log2 * 2 ^ (52 - value.log2) := by
    rw [← Nat.pow_add, Nat.add_sub_cancel' (log2_le hpos hlt)]
    rfl
  rw [Nat.shiftLeft_eq, hbase]
  constructor
  · exact Nat.mul_le_mul_right _ (Nat.log2_self_le hpos)
  · rw [← Nat.mul_assoc]
    refine Nat.mul_lt_mul_of_pos_right ?_ (Nat.two_pow_pos _)
    rw [Nat.mul_comm, ← Nat.pow_succ]
    exact Nat.lt_log2_self

/-- The significand is the number itself, shifted until it has 53 bits. -/
theorem bits_ofNat :
    (ofNat value).bits.toNat =
      (value.log2 + 1022) * hiddenBit + value <<< (52 - value.log2) := by
  have hlog := log2_le hpos hlt
  -- With 53 bits or fewer the denominator is never shifted.
  have hunder : 1075 - (value.log2 + 1023) = 52 - value.log2 := by
    rw [Nat.add_comm, Nat.sub_add_eq]
  have hover : value.log2 + 1023 - 1075 = 0 :=
    Nat.sub_eq_zero_of_le (Nat.add_le_add_right hlog 1023)
  have hscale : max (value.log2 + 1023) 1 = value.log2 + 1023 := by omega
  have hone : (1 : Nat).log2 = 0 := rfl
  obtain ⟨hlow, hhigh⟩ := shifted_bounds hpos hlt
  simp only [ofNat, ofRatio, hone, Nat.sub_zero, hunder, hover, Nat.shiftLeft_zero,
    Nat.mul_one, if_neg hpos, if_neg (Nat.not_lt_of_le hlow), hscale, divideEven_one]
  generalize value <<< (52 - value.log2) = shifted at hlow hhigh
  have hbelow : (value.log2 + 1022) * hiddenBit + shifted < 2047 * hiddenBit := by
    simp only [hiddenBit] at hhigh ⊢
    omega
  have hinfinity : infinity.bits.toNat = 2047 * hiddenBit := by simp [infinity, hiddenBit]
  rw [if_pos (by omega), Nat.add_sub_assoc (by decide), hinfinity, if_pos hbelow,
    UInt64.toNat_ofNat']
  refine Nat.mod_eq_of_lt (Nat.lt_trans hbelow ?_)
  simp [hiddenBit]

theorem fields_ofNat :
    (ofNat value).exponentField = value.log2 + 1023 ∧
      (ofNat value).fraction = value <<< (52 - value.log2) - hiddenBit ∧
      (ofNat value).isNegative = false := by
  have hlog := log2_le hpos hlt
  obtain ⟨hlow, hhigh⟩ := shifted_bounds hpos hlt
  have hbits := bits_ofNat hpos hlt
  generalize value <<< (52 - value.log2) = shifted at hlow hhigh hbits ⊢
  simp only [exponentField, fraction, isNegative, hbits, Nat.shiftRight_eq_div_pow,
    hiddenBit] at hlow hhigh ⊢
  refine ⟨by omega, by omega, ?_⟩
  rw [beq_eq_false_iff_ne]
  omega

theorem magnitude_ofNat_of_ne_zero :
    (ofNat value).magnitude = (value <<< (52 - value.log2), 1 <<< (52 - value.log2)) := by
  have hlog := log2_le hpos hlt
  obtain ⟨hexponent, hfraction, -⟩ := fields_ofNat hpos hlt
  have hscale : (ofNat value).scale + (52 - value.log2) = 1075 := by
    rw [scale, hexponent]
    omega
  have hsignificand : (ofNat value).significand = value <<< (52 - value.log2) := by
    rw [significand, hexponent, hfraction, if_neg (Nat.succ_ne_zero _)]
    exact Nat.add_sub_cancel' (shifted_bounds hpos hlt).1
  rw [magnitude_of_scale hscale, hsignificand]

end Naturals

theorem magnitude_ofNat {value : Nat} (hlt : value < 2 * hiddenBit) :
    (ofNat value).magnitude.1 = value * (ofNat value).magnitude.2 := by
  by_cases hpos : value = 0
  · subst hpos
    rfl
  · rw [magnitude_ofNat_of_ne_zero hpos hlt, Nat.shiftLeft_eq, Nat.one_shiftLeft]

theorem isNegative_ofNat {value : Nat} (hlt : value < 2 * hiddenBit) :
    (ofNat value).isNegative = false := by
  by_cases hpos : value = 0
  · subst hpos
    rfl
  · exact (fields_ofNat hpos hlt).2.2

/-- Only the sign bit changes. -/
theorem fields_negate (number : Binary64) :
    number.negate.exponentField = number.exponentField ∧
      number.negate.fraction = number.fraction ∧
      number.negate.isNegative = !number.isNegative := by
  have hbits : number.negate.bits.toNat = number.bits.toNat ^^^ 2 ^ 63 := by
    rw [negate, UInt64.toNat_xor]
    rfl
  have hsize : hiddenBit = 2 ^ 52 := rfl
  have hlt := number.bits.toNat_lt
  refine ⟨?_, ?_, ?_⟩
  · rw [exponentField, hbits, Nat.shiftRight_xor_distrib, Nat.xor_mod_two_pow (n := 11)]
    simp [exponentField]
  · rw [fraction, hbits, hsize, Nat.xor_mod_two_pow]
    simp [fraction, hsize]
  · have hsign : number.bits.toNat >>> 63 = 0 ∨ number.bits.toNat >>> 63 = 1 := by
      rw [Nat.shiftRight_eq_div_pow]
      omega
    rw [isNegative, isNegative, hbits, Nat.shiftRight_xor_distrib]
    rcases hsign with hsign | hsign <;> simp [hsign]

theorem magnitude_negate (number : Binary64) :
    number.negate.magnitude = number.magnitude := by
  obtain ⟨hexponent, hfraction, -⟩ := fields_negate number
  have hsignificand : number.negate.significand = number.significand := by
    rw [significand, significand, hexponent, hfraction]
  have hscale : number.negate.scale = number.scale := congrArg (max · 1) hexponent
  unfold magnitude
  rw [hsignificand, hscale]

theorem magnitude_ofInt {value : Int} (hlt : value.natAbs < 2 * hiddenBit) :
    (ofInt value).magnitude.1 = value.natAbs * (ofInt value).magnitude.2 := by
  unfold ofInt
  split
  · rw [magnitude_negate]
    exact magnitude_ofNat hlt
  · exact magnitude_ofNat hlt

theorem isNegative_ofInt {value : Int} (hlt : value.natAbs < 2 * hiddenBit) :
    (ofInt value).isNegative = decide (value < 0) := by
  unfold ofInt
  split
  · rename_i hnegative
    rw [(fields_negate _).2.2, isNegative_ofNat hlt, decide_eq_true hnegative]
    rfl
  · rename_i hnonnegative
    rw [isNegative_ofNat hlt, decide_eq_false hnonnegative]

end Binary64

end LiveRelay
