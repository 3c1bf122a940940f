import LuaChunk.Bytes

/-!
# Hexadecimal text

Lower-case hexadecimal of a fixed number of digits: two for a byte, eight for an instruction word.
-/

namespace LuaChunk.Hex

/-- The lowest `width` hexadecimal digits of a number, most significant first. -/
def digits : Nat → Nat → List Char
  | 0, _ => []
  | width + 1, n => digits width (n / 16) ++ [Nat.digitChar (n % 16)]

/-- A number is written with as many digits as are asked for. -/
@[simp] theorem length_digits (width n : Nat) : (digits width n).length = width := by
  induction width generalizing n with
  | zero => rfl
  | succ width ih => simp [digits, ih]

/-- A number as `width` hexadecimal digits. -/
def padded (width n : Nat) : String :=
  String.ofList (digits width n)

/-- A byte as two digits. -/
def byte (b : UInt8) : String :=
  padded 2 b.toNat

/-- A byte string as two digits a byte, nothing between them. -/
def ofBytes (bs : Bytes) : String :=
  String.ofList (bs.flatMap fun b => digits 2 b.toNat)

end LuaChunk.Hex
