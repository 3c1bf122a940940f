import LuaChunk.Binary64
import LuaChunk.Text.Utf8
import LuaChunk.Text.Quoted

/-!
# Constants

The entries of a function's constant pool. The type of string constants is a parameter: plain bytes
as they stand in a chunk, or entries of a string table once a chunk has been loaded.
-/

namespace LuaChunk

/-- A constant of a function; `σ` is the type of string constants. -/
inductive Constant (σ : Type)
  | nil
  | boolean (value : Bool)
  | float (value : Binary64)
  | integer (value : Int64)
  | string (content : σ)
  deriving DecidableEq, Repr

namespace Constant

/-- A constant with its string replaced. -/
def map {σ τ : Type} (f : σ → τ) : Constant σ → Constant τ
  | nil => nil
  | boolean value => boolean value
  | float value => float value
  | integer value => integer value
  | string content => string (f content)

/-- The name of a constant's type. -/
def typeName {σ : Type} : Constant σ → String
  | nil => "nil"
  | boolean _ => "boolean"
  | float _ => "float"
  | integer _ => "integer"
  | string _ => "string"

/-! ### Tags -/

/-- The byte in front of nil. -/
def nilTag : UInt8 := 0x00

/-- The byte in front of a boolean. -/
def booleanTag : UInt8 := 0x01

/-- The byte in front of a floating-point number. -/
def floatTag : UInt8 := 0x03

/-- The byte in front of an integer. -/
def integerTag : UInt8 := 0x13

/-- The byte in front of a short string. -/
def shortStringTag : UInt8 := 0x04

/-- The byte in front of a long string. -/
def longStringTag : UInt8 := 0x14

/-- The length of the longest string that is written as a short one. -/
def maxShortLength : Nat := 40

/-- The byte that a constant is written with. -/
def tag : Constant Bytes → UInt8
  | nil => nilTag
  | boolean _ => booleanTag
  | float _ => floatTag
  | integer _ => integerTag
  | string content => if content.length ≤ maxShortLength then shortStringTag else longStringTag

/-! ### Comparing and showing -/

/-- Equality of constants: numbers compare as numbers, so a NaN differs from itself and the two
zeros are equal; an integer never equals a floating-point number. -/
def same : Constant Bytes → Constant Bytes → Bool
  | float x, float y => x.numEq y
  | x, y => x == y

/-- A constant as listings show it. -/
def text : Constant Bytes → String
  | nil => "nil"
  | boolean value => if value then "true" else "false"
  | float value => value.text
  | integer value => value.toInt.repr
  | string content => Quoted.ofString (Utf8.decode content)

end Constant

end LuaChunk
