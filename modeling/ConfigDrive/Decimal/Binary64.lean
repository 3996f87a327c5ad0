/-
# ConfigDrive.Decimal.Binary64 — double-precision numbers as bit patterns.

A number is its 64 bits: a sign, eleven bits of exponent and 52 of fraction.  Working on the bits keeps
every function here exact, in natural-number arithmetic.  `ofDecimal` rounds a decimal to the nearest
double, ties to the even one; `same` is the equality by which such numbers act as keys, where the two
zeros are one key and all NaNs are one key.
-/

namespace ConfigDrive.Decimal

/-- A double-precision number. -/
structure Binary64 where
  bits : UInt64
  deriving DecidableEq, Repr

namespace Binary64

/-! ## Reading the bits -/

/-- The bit of the sign, the highest of the 64. -/
def signBit : Nat :=
  0x8000000000000000

/-- The lowest bit of the exponent.  It is also the bit that a significand has above its fraction. -/
def unitBit : Nat :=
  0x10000000000000

/-- The sign bit is set. -/
def isNegative (x : Binary64) : Bool :=
  signBit ≤ x.bits.toNat

/-- The bits below the sign. -/
def magnitude (x : Binary64) : Nat :=
  x.bits.toNat % signBit

/-- The magnitude of infinity: all exponent bits set and no fraction. -/
def infinityBits : Nat :=
  0x7FF * unitBit

/-- Not a number. -/
def isNaN (x : Binary64) : Bool :=
  infinityBits < x.magnitude

/-- Positive or negative infinity. -/
def isInfinite (x : Binary64) : Bool :=
  x.magnitude == infinityBits

/-- Positive or negative zero. -/
def isZero (x : Binary64) : Bool :=
  x.magnitude == 0

/-- The number with this sign and magnitude. -/
def ofMagnitude (negative : Bool) (m : Nat) : Binary64 :=
  ⟨UInt64.ofNat (if negative then signBit + m else m)⟩

/-- Infinity with a sign. -/
def infinity (negative : Bool) : Binary64 :=
  ofMagnitude negative infinityBits

/-- The one NaN that this library produces. -/
def nan : Binary64 :=
  ofMagnitude false 0x7FF8000000000000

/-- A magnitude below infinity is `significand * 2 ^ exponent`. -/
def significand (x : Binary64) : Nat :=
  let fraction := x.magnitude % unitBit
  if x.magnitude < unitBit then fraction else unitBit + fraction

/-- The exponent that belongs to `significand`. -/
def exponent (x : Binary64) : Int :=
  (max 1 (x.magnitude / unitBit) : Nat) - 1075

/-! ## Equality of keys -/

/-- Equality of numbers as keys: NaN equals NaN, the zeros are equal, all else is equal bit for bit. -/
def same (x y : Binary64) : Bool :=
  x.bits == y.bits || (x.isNaN && y.isNaN) || (x.isZero && y.isZero)

theorem same_refl (x : Binary64) : x.same x = true := by
  simp [same]

theorem same_symm {x y : Binary64} (h : x.same y = true) : y.same x = true := by
  simp only [same, Bool.or_eq_true, Bool.and_eq_true, beq_iff_eq] at h ⊢
  rcases h with (h | ⟨hx, hy⟩) | ⟨hx, hy⟩
  · exact .inl (.inl h.symm)
  · exact .inl (.inr ⟨hy, hx⟩)
  · exact .inr ⟨hy, hx⟩

/-- Numbers with the same bits are told apart by nothing. -/
theorem eq_of_bits {x y : Binary64} (h : x.bits = y.bits) : x = y := by
  cases x
  cases y
  exact congrArg _ h

theorem not_isZero_of_isNaN {x : Binary64} (h : x.isNaN = true) : x.isZero = false := by
  simp only [isNaN, decide_eq_true_eq] at h
  simp only [isZero, beq_eq_false_iff_ne]
  omega

theorem same_trans {x y z : Binary64} (hxy : x.same y = true) (hyz : y.same z = true) :
    x.same z = true := by
  simp only [same, Bool.or_eq_true, Bool.and_eq_true, beq_iff_eq] at hxy hyz
  rcases hxy with (hxy | ⟨hx, hy⟩) | ⟨hx, hy⟩
  · rw [eq_of_bits hxy]
    simpa only [same, Bool.or_eq_true, Bool.and_eq_true, beq_iff_eq] using hyz
  · rcases hyz with (hyz | ⟨-, hz⟩) | ⟨hzero, -⟩
    · rw [eq_of_bits hyz] at hy
      simp [same, hx, hy]
    · simp [same, hx, hz]
    · rw [not_isZero_of_isNaN hy] at hzero
      exact absurd hzero Bool.false_ne_true
  · rcases hyz with (hyz | ⟨hnan, -⟩) | ⟨-, hz⟩
    · rw [eq_of_bits hyz] at hy
      simp [same, hx, hy]
    · rw [not_isZero_of_isNaN hnan] at hy
      exact absurd hy Bool.false_ne_true
    · simp [same, hx, hz]

/-! ## Rounding a decimal -/

/-- The quotient `n / d`, rounded to the nearest integer and to the even one if there are two. -/
def roundQuotient (n d : Nat) : Nat :=
  let q := n / d
  let r := n % d
  if 2 * r < d then q
  else if d < 2 * r then q + 1
  else q + q % 2

/-- The magnitude of the double nearest to `n / d`, for positive `n` and `d`.  The exponent is chosen so
that the quotient has 53 bits, or as many as the smallest exponent leaves. -/
def roundRatio (n d : Nat) : Nat :=
  let estimate : Int := (n.log2 : Int) - d.log2 - 53
  let scaled (e : Int) : Nat × Nat :=
    if 0 ≤ e then (n, d <<< e.toNat) else (n <<< (-e).toNat, d)
  let e := max (-1074)
    (if (scaled estimate).1 / (scaled estimate).2 < 2 * unitBit then estimate else estimate + 1)
  min infinityBits ((e + 1074).toNat * unitBit + roundQuotient (scaled e).1 (scaled e).2)

/-- The double nearest to `digits * 10 ^ exponent`.  Exponents so large or so small that the result is
infinite or zero whatever the digits are decided without forming the power. -/
def ofDecimal (negative : Bool) (digits : Nat) (exponent : Int) : Binary64 :=
  let size : Int := (Nat.toDigits 10 digits).length + exponent
  if digits = 0 || size < -330 then ofMagnitude negative 0
  else if 320 < size then infinity negative
  else if 0 ≤ exponent then ofMagnitude negative (roundRatio (digits * Nat.pow 10 exponent.toNat) 1)
  else ofMagnitude negative (roundRatio digits (Nat.pow 10 (-exponent).toNat))

end Binary64

end ConfigDrive.Decimal
