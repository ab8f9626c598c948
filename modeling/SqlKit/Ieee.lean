/-
  SqlKit/Ieee.lean
  ================
  **Binary floating-point numbers as bit patterns.**

  A database value travels unchanged from the row it was read from to the
  placeholder it is written to, so a float here is its bit pattern: `Single`
  holds 32 bits, `Double` 64. Two operations look inside:

    * comparison (`==`) follows the standard: a NaN equals nothing, itself
      included, and the two zeros are equal;
    * `Single.widen` reads a single as the double of the same numeric value.
      Every finite single is exactly representable as a double, so nothing is
      rounded; a NaN stays a NaN and keeps its fraction bits.

  Both are exact arithmetic on natural numbers.
-/

namespace SqlKit

/-! ## 1. Fields of a bit pattern -/

/-- A power of two, as a natural number. -/
def twoPow (k : Nat) : Nat :=
  Nat.pow 2 k

/-- Sign, biased exponent and fraction of a binary floating-point number. -/
structure FloatFields where
  negative : Bool
  exponent : Nat
  fraction : Nat
deriving DecidableEq, Repr

/-- A 32-bit float: one sign bit, 8 exponent bits, 23 fraction bits. -/
structure Single where
  bits : UInt32
deriving Repr, Inhabited

/-- A 64-bit float: one sign bit, 11 exponent bits, 52 fraction bits. -/
structure Double where
  bits : UInt64
deriving Repr, Inhabited

def Single.fields (x : Single) : FloatFields :=
  let n := x.bits.toNat
  ⟨decide (twoPow 31 ≤ n), n / twoPow 23 % twoPow 8, n % twoPow 23⟩

def Double.fields (x : Double) : FloatFields :=
  let n := x.bits.toNat
  ⟨decide (twoPow 63 ≤ n), n / twoPow 52 % twoPow 11, n % twoPow 52⟩

def Double.ofFields (f : FloatFields) : Double :=
  ⟨UInt64.ofNat ((if f.negative then twoPow 63 else 0) + f.exponent * twoPow 52 + f.fraction)⟩

/-! ## 2. Comparison -/

/-- The greatest exponent with a fraction other than zero marks a NaN. -/
def Single.isNaN (x : Single) : Bool :=
  x.fields.exponent == twoPow 8 - 1 && x.fields.fraction != 0

def Double.isNaN (x : Double) : Bool :=
  x.fields.exponent == twoPow 11 - 1 && x.fields.fraction != 0

/-- Both zeros, the negative one included. -/
def Single.isZero (x : Single) : Bool :=
  x.fields.exponent == 0 && x.fields.fraction == 0

def Double.isZero (x : Double) : Bool :=
  x.fields.exponent == 0 && x.fields.fraction == 0

/-- Numeric equality. It is not reflexive: a NaN differs from itself. -/
instance : BEq Single where
  beq x y := !x.isNaN && !y.isNaN && (x.bits == y.bits || (x.isZero && y.isZero))

instance : BEq Double where
  beq x y := !x.isNaN && !y.isNaN && (x.bits == y.bits || (x.isZero && y.isZero))

/-! ## 3. Widening

The exponent bias of a single is 127 and that of a double 1023, hence the shift
by 896; the fraction gains 29 zero bits. A subnormal single `f · 2⁻¹⁴⁹` with
leading bit `k` (that is, `2ᵏ ≤ f < 2ᵏ⁺¹`) is a normal double: its exponent is
`k - 149 + 1023` and the bits of `f` below the leading one start its fraction. -/

/-- The fields of the double with the same numeric value. -/
def FloatFields.widen (f : FloatFields) : FloatFields :=
  if f.exponent = twoPow 8 - 1 then ⟨f.negative, twoPow 11 - 1, f.fraction * twoPow 29⟩
  else if f.exponent ≠ 0 then ⟨f.negative, f.exponent + 896, f.fraction * twoPow 29⟩
  else if f.fraction = 0 then ⟨f.negative, 0, 0⟩
  else
    let k := f.fraction.log2
    ⟨f.negative, k + 874, (f.fraction - twoPow k) * twoPow (52 - k)⟩

/-- The double with the same numeric value as a single. -/
def Single.widen (x : Single) : Double :=
  .ofFields x.fields.widen

end SqlKit
