import LuaChunk.Decimal
import LuaChunk.Bytes

/-!
# Floating-point numbers

A number constant is kept as its 64-bit pattern, so that reading and writing a chunk change no sign
of a zero and no payload of a NaN. This file reads the pattern: which patterns compare equal, and
how a number is written in decimal.
-/

namespace LuaChunk

/-- A 64-bit floating-point number, as its pattern: a sign bit, 11 bits of exponent and 52 bits of
fraction. -/
structure Binary64 where
  bits : UInt64
  deriving DecidableEq, Repr

namespace Binary64

/-- Whether the sign bit is set. -/
def isNegative (x : Binary64) : Bool :=
  x.bits.toNat >>> 63 = 1

/-- The exponent field. -/
def exponent (x : Binary64) : Nat :=
  x.bits.toNat >>> 52 % 1 <<< 11

/-- The fraction field. -/
def fraction (x : Binary64) : Nat :=
  x.bits.toNat % 1 <<< 52

/-- Whether a pattern stands for a real number: neither an infinity nor a NaN. -/
def isFinite (x : Binary64) : Bool :=
  x.exponent < 1 <<< 11 - 1

/-- Whether a pattern is a NaN: it stands for no number. -/
def isNaN (x : Binary64) : Bool :=
  !x.isFinite && x.fraction != 0

/-- Whether a pattern is one of the two zeros. -/
def isZero (x : Binary64) : Bool :=
  x.exponent = 0 && x.fraction = 0

/-- Numeric equality: a NaN equals nothing, itself included, and the two zeros are equal. -/
def numEq (x y : Binary64) : Bool :=
  !x.isNaN && !y.isNaN && (x == y || x.isZero && y.isZero)

/-- The mantissa of a finite number, as a whole number: outside the lowest exponent a leading one
stands before the fraction. -/
def mantissa (x : Binary64) : Nat :=
  if x.exponent = 0 then x.fraction else 1 <<< 52 + x.fraction

/-- The power of two that the mantissa is multiplied by, plus 1075. -/
def scale (x : Binary64) : Nat :=
  if x.exponent = 0 then 1 else x.exponent

/-- The magnitude of a finite number as a binary fraction. -/
def magnitude (x : Binary64) : BinaryFraction where
  mantissa := x.mantissa <<< (x.scale - 1075)
  halvings := 1075 - x.scale
  -- at a power of two the numbers below are twice as dense, but not in the lowest range
  narrowBelow := x.fraction = 0 && 1 < x.exponent

/-- The magnitude of a number in decimal. A whole number has all its digits and one place; any other
has the fewest places that read back to it; none has an exponent. -/
def magnitudeText (x : Binary64) : String :=
  if x.isFinite then
    let size := x.magnitude
    if size.isWhole then (size.mantissa >>> size.halvings).repr ++ ".0" else size.shortest.text
  else
    "inf"

/-- A number in decimal. -/
def text (x : Binary64) : String :=
  if x.isNaN then "NaN"
  else if x.isNegative then "-" ++ x.magnitudeText
  else x.magnitudeText

end Binary64

end LuaChunk
