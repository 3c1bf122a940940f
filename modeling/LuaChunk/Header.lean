import LuaChunk.Binary64

/-!
# Chunk headers

Every chunk opens with the same 29 bytes: a signature, the version and format, a tail that is
damaged by conversions between text and binary, the widths of the primitive types, and a sample of
an integer and of a floating-point number that shows the byte order and the number format.
-/

namespace LuaChunk

/-- The widths of the primitive types in bytes, in the order in which a chunk declares them. -/
structure Header where
  int : UInt8
  sizeT : UInt8
  instruction : UInt8
  integer : UInt8
  number : UInt8
  deriving DecidableEq, Repr

namespace Header

/-- The first four bytes of every chunk. -/
def signature : Bytes := [0x1b, 0x4c, 0x75, 0x61]

/-- The version of the machine: the major and the minor version, one hexadecimal digit each. -/
def version : UInt8 := 0x53

/-- The number of the official format. -/
def format : UInt8 := 0

/-- Bytes that a conversion of line ends or a truncation at an end-of-file mark would change. -/
def tail : Bytes := [0x19, 0x93, 0x0d, 0x0a, 0x1a, 0x0a]

/-- The integer sample. -/
def sampleInteger : Int64 := 0x5678

/-- The floating-point sample, which is 370.5. -/
def sampleNumber : Binary64 := ⟨0x4077280000000000⟩

/-- The widths that this library reads and writes. -/
def standard : Header := ⟨4, 8, 4, 4, 8⟩

/-- The widths as bytes. -/
def toBytes (h : Header) : Bytes :=
  [h.int, h.sizeT, h.instruction, h.integer, h.number]

/-- The bytes at the front of every chunk. -/
def bytes : Bytes :=
  signature ++ [version, format] ++ tail ++ standard.toBytes
    ++ Bytes.leBytes 4 sampleInteger.toInt.toNat ++ Bytes.leBytes 8 sampleNumber.bits.toNat

end Header

/-- The parts of a header that are compared with fixed bytes. -/
inductive LiteralField
  | signature | version | format | tail
  deriving DecidableEq, Repr

/-- The types whose width a header declares. -/
inductive WidthField
  | int | sizeT | instruction | integer | float
  deriving DecidableEq, Repr

/-- The name of a literal field in messages. -/
def LiteralField.name : LiteralField → String
  | signature => "signature"
  | version => "version"
  | format => "format"
  | tail => "tail"

/-- The bytes that a literal field must have. -/
def LiteralField.expected : LiteralField → Bytes
  | signature => Header.signature
  | version => [Header.version]
  | format => [Header.format]
  | tail => Header.tail

/-- The name of a width field in messages. -/
def WidthField.name : WidthField → String
  | int => "int"
  | sizeT => "size_t"
  | instruction => "instruction"
  | integer => "integer"
  | float => "float"

/-- The width fields in the order in which a header declares them. -/
def WidthField.all : List WidthField :=
  [.int, .sizeT, .instruction, .integer, .float]

/-- The width that a header declares for a type. -/
def Header.width (h : Header) : WidthField → UInt8
  | .int => h.int
  | .sizeT => h.sizeT
  | .instruction => h.instruction
  | .integer => h.integer
  | .float => h.number

end LuaChunk
