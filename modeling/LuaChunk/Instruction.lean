import LuaChunk.Opcode
import LuaChunk.Text.Hex

/-!
# Instruction words

An instruction is one 32-bit word. From the lowest bit up it holds the opcode (6 bits), A (8), C (9)
and B (9). Bx is C and B taken together (18 bits), Ax is A, C and B taken together (26 bits), and
sBx is Bx with its range moved down by 131071, so that it can point backwards.

Every field of every word can be read; the opcode's operand form says which of them mean something.

## Key results

* `toNat_word`       a word is its opcode and its operands A, B and C
* `bx_eq`, `ax_eq`   how the wide operands are put together from the narrow ones
-/

namespace LuaChunk

/-- A 32-bit instruction word. -/
structure Instruction where
  word : UInt32
  deriving DecidableEq, Repr

/-! ### Operands that name a register or a constant -/

namespace RegisterOrConstant

/-- The bit of a B or C operand that marks it as the index of a constant. -/
def constantBit : Nat := 256

/-- Whether an operand names a constant. -/
def isConstant (operand : Nat) : Bool :=
  operand.testBit 8

/-- The index of the constant that an operand names: the operand without its constant bit. -/
def constantIndex (operand : Nat) : Nat :=
  if isConstant operand then operand - constantBit else operand

end RegisterOrConstant

/-- The operands that an instruction word carries under its opcode. -/
inductive Operands
  | abc (a b c : Nat)
  | abx (a bx : Nat)
  | asbx (a : Nat) (sbx : Int)
  | ax (ax : Nat)
  deriving DecidableEq, Repr

namespace Instruction

/-! ### Fields of a word -/

/-- The largest Bx operand. -/
def maxBx : Nat := 1 <<< 18 - 1

/-- The bias of a signed operand: sBx is Bx less this number. -/
def bias : Nat := maxBx / 2

/-- The largest Ax operand. -/
def maxAx : Nat := 1 <<< 26 - 1

/-- The bits of a word from position `low` on, `width` of them. -/
def field (ins : Instruction) (low width : Nat) : Nat :=
  ins.word.toNat >>> low % 1 <<< width

/-- A field of some bits is less than the power of two that they can count to. -/
theorem field_lt (ins : Instruction) (low width : Nat) : ins.field low width < 1 <<< width :=
  Nat.mod_lt _ (by rw [Nat.one_shiftLeft]; exact Nat.two_pow_pos width)

/-- The opcode number, which need not be one that the machine has. -/
def opcodeNumber (ins : Instruction) : Nat := ins.field 0 6

/-- Operand A. -/
def a (ins : Instruction) : Nat := ins.field 6 8

/-- Operand C. -/
def c (ins : Instruction) : Nat := ins.field 14 9

/-- Operand B. -/
def b (ins : Instruction) : Nat := ins.field 23 9

/-- Operand Bx. -/
def bx (ins : Instruction) : Nat := ins.field 14 18

/-- Operand Ax. -/
def ax (ins : Instruction) : Nat := ins.field 6 26

/-- Operand sBx. -/
def sbx (ins : Instruction) : Int := ins.bx - bias

/-- Opcode, A, C and B are all of a word. -/
theorem toNat_word (ins : Instruction) :
    ins.word.toNat = ins.opcodeNumber + ins.a <<< 6 + ins.c <<< 14 + ins.b <<< 23 := by
  have hlt := ins.word.toNat_lt
  simp only [opcodeNumber, a, b, c, field, Nat.shiftRight_eq_div_pow, Nat.shiftLeft_eq]
  omega

/-- Bx is B in front of C. -/
theorem bx_eq (ins : Instruction) : ins.bx = ins.b <<< 9 + ins.c := by
  have hlt := ins.word.toNat_lt
  simp only [bx, b, c, field, Nat.shiftRight_eq_div_pow, Nat.shiftLeft_eq]
  omega

/-- Ax is Bx in front of A. -/
theorem ax_eq (ins : Instruction) : ins.ax = ins.bx <<< 8 + ins.a := by
  simp only [ax, bx, a, field, Nat.shiftRight_eq_div_pow, Nat.shiftLeft_eq]
  omega

/-- The opcode of a word, if its number is one that the machine has. -/
def opcode? (ins : Instruction) : Option Opcode :=
  Opcode.ofNat? ins.opcodeNumber

/-- What a word carries when it is read in a given operand form. -/
def operandsIn (ins : Instruction) : OperandForm → Operands
  | .abc => .abc ins.a ins.b ins.c
  | .abx => .abx ins.a ins.bx
  | .asbx => .asbx ins.a ins.sbx
  | .ax => .ax ins.ax

/-- The operands that a word carries under its opcode; none for an unknown opcode. -/
def operands? (ins : Instruction) : Option Operands :=
  ins.opcode?.map fun op => ins.operandsIn op.form

/-! ### Building a word

An operand too large for its field is reduced modulo the size of the field, so that it never spills
into a neighbouring field. The form asked for need not be the opcode's own. -/

/-- The lowest `width` bits of a number, at position `low` of a word. -/
def place (value low width : Nat) : Nat :=
  (value % 1 <<< width) <<< low

/-- The word with opcode `op` and operands A, B and C. -/
def abc (op : Opcode) (a : UInt8) (b c : UInt16) : Instruction :=
  ⟨.ofNat (op.toNat + place a.toNat 6 8 + place c.toNat 14 9 + place b.toNat 23 9)⟩

/-- The word with opcode `op` and operands A and Bx. -/
def abx (op : Opcode) (a : UInt8) (bx : UInt32) : Instruction :=
  ⟨.ofNat (op.toNat + place a.toNat 6 8 + place bx.toNat 14 18)⟩

/-- The word with opcode `op` and operands A and sBx. -/
def asbx (op : Opcode) (a : UInt8) (sbx : Int32) : Instruction :=
  abx op a (.ofNat ((sbx.toInt + bias) % (maxBx + 1 : Nat)).toNat)

/-- The word with opcode `op` and operand Ax. -/
def ofAx (op : Opcode) (ax : UInt32) : Instruction :=
  ⟨.ofNat (op.toNat + place ax.toNat 6 26)⟩

/-! ### Bytes and text of a word -/

/-- The four bytes of a word in a chunk, least significant first. -/
def toBytes (ins : Instruction) : Bytes :=
  Bytes.leBytes 4 ins.word.toNat

/-- A word as its opcode's name and all operands of its form, or as its hexadecimal value if the
opcode is unknown. -/
def text (ins : Instruction) : String :=
  match ins.opcode? with
  | none => s!"INVALID(0x{Hex.padded 8 ins.word.toNat})"
  | some op =>
    match ins.operandsIn op.form with
    | .abc a b c => s!"{op.name} {a} {b} {c}"
    | .abx a bx => s!"{op.name} {a} {bx}"
    | .asbx a sbx => s!"{op.name} {a} {sbx}"
    | .ax ax => s!"{op.name} {ax}"

end Instruction

end LuaChunk
