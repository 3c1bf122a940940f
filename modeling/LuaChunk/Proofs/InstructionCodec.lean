import LuaChunk.Instruction
import Mathlib.Algebra.Group.Int.Defs
import Mathlib.Algebra.Group.Nat.Defs

/-!
# Taking instruction words apart and putting them together

A word is its opcode and its operands A, C and B side by side, without gaps and without overlap, so
that it can be put together again from them. Each constructor of a word lays out its operands in the
same places, and there they are found again: an operand that fits is found as it was given, and one
that does not is found reduced modulo the size of its field, with nothing spilt into the fields
beside it.

A signed operand is moved up by 131071 before it is laid out, and down again when it is read, so
that it is kept exactly if the moved operand fits in 18 bits.

## Key results

* `toNat_word_abc`, `toNat_word_abx`, `toNat_word_ofAx`   the number that a constructed word is
* `asbx_eq_abx`             how a signed operand is moved in 32-bit arithmetic
* `sbx_asbx`                the signed operand that is found in a constructed word
* `ofOperands_operandsIn`   a word is put together again from its operands
* `instruction_codec`       fields, constructors and operands of every word
-/

namespace LuaChunk

/-- The number of an opcode fits in its field. -/
theorem Opcode.toNat_lt_two_pow (op : Opcode) : op.toNat < 2 ^ 6 :=
  Nat.lt_trans op.toNat_lt (by decide)

/-- The form that operands are in. -/
def Operands.form : Operands → OperandForm
  | .abc .. => .abc
  | .abx .. => .abx
  | .asbx .. => .asbx
  | .ax .. => .ax

namespace Instruction

variable {ins ins' : Instruction} {op : Opcode}

/-- An instruction is determined by its word as a number. -/
theorem eq_of_toNat_word (h : ins.word.toNat = ins'.word.toNat) : ins = ins' := by
  obtain ⟨w⟩ := ins
  exact congrArg mk (UInt32.toNat_inj.1 h)

/-- An opcode is known by its number. -/
theorem opcode?_of_opcodeNumber (h : ins.opcodeNumber = op.toNat) : ins.opcode? = some op := by
  rw [opcode?, h, Opcode.ofNat?_toNat]

/-- The number in a word is that of the opcode that is known by it. -/
theorem opcodeNumber_of_opcode? (h : ins.opcode? = some op) : ins.opcodeNumber = op.toNat :=
  (Opcode.toNat_of_ofNat? h).symm

/-! ### The numbers that words are -/

/-- The fields of a word with A, B and C, each in its place. -/
theorem toNat_word_abc (op : Opcode) (a : UInt8) (b c : UInt16) :
    (abc op a b c).word.toNat =
      op.toNat + 2 ^ 6 * a.toNat + 2 ^ 14 * (c.toNat % 2 ^ 9) + 2 ^ 23 * (b.toNat % 2 ^ 9) := by
  have hop := op.toNat_lt_two_pow
  have ha := a.toNat_lt
  simp only [abc, place, Nat.shiftLeft_eq, UInt32.toNat_ofNat']
  omega

/-- The fields of a word with A and Bx, each in its place. -/
theorem toNat_word_abx (op : Opcode) (a : UInt8) (bx : UInt32) :
    (abx op a bx).word.toNat = op.toNat + 2 ^ 6 * a.toNat + 2 ^ 14 * (bx.toNat % 2 ^ 18) := by
  have hop := op.toNat_lt_two_pow
  have ha := a.toNat_lt
  simp only [abx, place, Nat.shiftLeft_eq, UInt32.toNat_ofNat']
  omega

/-- The fields of a word with Ax, each in its place. -/
theorem toNat_word_ofAx (op : Opcode) (ax : UInt32) :
    (ofAx op ax).word.toNat = op.toNat + 2 ^ 6 * (ax.toNat % 2 ^ 26) := by
  have hop := op.toNat_lt_two_pow
  simp only [ofAx, place, Nat.shiftLeft_eq, UInt32.toNat_ofNat']
  omega

/-! ### Fields of a constructed word -/

/-- A, B and C are found again, B and C reduced to nine bits. -/
theorem fields_abc (op : Opcode) (a : UInt8) (b c : UInt16) :
    (abc op a b c).opcodeNumber = op.toNat ∧ (abc op a b c).a = a.toNat ∧
      (abc op a b c).b = b.toNat % 2 ^ 9 ∧ (abc op a b c).c = c.toNat % 2 ^ 9 := by
  have hop := op.toNat_lt_two_pow
  have ha := a.toNat_lt
  simp only [opcodeNumber, Instruction.a, Instruction.b, Instruction.c, field, toNat_word_abc,
    Nat.shiftRight_eq_div_pow, Nat.shiftLeft_eq]
  omega

/-- A and Bx are found again, Bx reduced to 18 bits. -/
theorem fields_abx (op : Opcode) (a : UInt8) (bx : UInt32) :
    (abx op a bx).opcodeNumber = op.toNat ∧ (abx op a bx).a = a.toNat ∧
      (abx op a bx).bx = bx.toNat % 2 ^ 18 := by
  have hop := op.toNat_lt_two_pow
  have ha := a.toNat_lt
  simp only [opcodeNumber, Instruction.a, Instruction.bx, field, toNat_word_abx,
    Nat.shiftRight_eq_div_pow, Nat.shiftLeft_eq]
  omega

/-- Ax is found again, reduced to 26 bits. -/
theorem fields_ofAx (op : Opcode) (ax : UInt32) :
    (ofAx op ax).opcodeNumber = op.toNat ∧ (ofAx op ax).ax = ax.toNat % 2 ^ 26 := by
  have hop := op.toNat_lt_two_pow
  simp only [opcodeNumber, Instruction.ax, field, toNat_word_ofAx, Nat.shiftRight_eq_div_pow,
    Nat.shiftLeft_eq]
  omega

/-! ### Signed operands -/

/-- A signed number as a word is the number modulo `2 ^ 32`. -/
theorem toNat_toUInt32 (i : Int32) : (i.toUInt32.toNat : Int) = i.toInt % 2 ^ 32 := by
  have hlt := i.toUInt32.toNat_lt
  have hint : i.toInt = (i.toUInt32.toNat : Int).bmod (2 ^ 32) :=
    BitVec.toInt_eq_toNat_bmod i.toBitVec
  have hmod := Int.bmod_emod (x := i.toUInt32.toNat) (m := 2 ^ 32)
  rw [hint]
  omega

/-- The sum of two signed numbers as a word, whether or not it leaves the 32 bits. -/
theorem toNat_toUInt32_add (i j : Int32) :
    ((i + j).toUInt32.toNat : Int) = (i.toInt + j.toInt) % 2 ^ 32 := by
  have hmod := Int.bmod_emod (x := i.toInt + j.toInt) (m := 2 ^ 32)
  rw [toNat_toUInt32, Int32.toInt_add]
  omega

/-- The bias of a signed operand as a signed number. -/
theorem toInt_bias : (131071 : Int32).toInt = 131071 := by
  decide

/-- A signed operand is moved up in 32-bit arithmetic, in which the sum may wrap around. -/
theorem asbx_eq_abx (op : Opcode) (a : UInt8) (sbx : Int32) :
    asbx op a sbx = abx op a (sbx + 131071).toUInt32 := by
  -- wrapping around takes a multiple of `2 ^ 18` away, which does not show in the field
  have hsum := toNat_toUInt32_add sbx 131071
  rw [toInt_bias] at hsum
  apply eq_of_toNat_word
  rw [asbx, toNat_word_abx, toNat_word_abx, UInt32.toNat_ofNat']
  simp only [bias, maxBx, Nat.shiftLeft_eq]
  omega

/-- The signed operand that is found in a word is the one that was given, brought into range by a
multiple of `2 ^ 18`. -/
theorem sbx_asbx (op : Opcode) (a : UInt8) (sbx : Int32) :
    (asbx op a sbx).sbx = (sbx.toInt + 131071) % 2 ^ 18 - 131071 := by
  have hbx := (fields_abx op a (sbx + 131071).toUInt32).2.2
  have hsum := toNat_toUInt32_add sbx 131071
  have hbias : bias = 131071 := by decide
  rw [toInt_bias] at hsum
  rw [asbx_eq_abx, Instruction.sbx, hbx, hbias]
  omega

/-! ### Putting a word together again -/

/-- The word with opcode `op` and given operands, made by the constructor for their form. -/
def ofOperands (op : Opcode) : Operands → Instruction
  | .abc a b c => abc op (.ofNat a) (.ofNat b) (.ofNat c)
  | .abx a bx => abx op (.ofNat a) (.ofNat bx)
  | .asbx a sbx => asbx op (.ofNat a) (.ofInt sbx)
  | .ax ax => ofAx op (.ofNat ax)

/-- Operands are in the form in which they are read. -/
@[simp] theorem form_operandsIn (ins : Instruction) (form : OperandForm) :
    (ins.operandsIn form).form = form := by
  cases form <;> rfl

/-- A signed operand that was read is laid out as it stood in the word. -/
theorem asbx_sbx (op : Opcode) (a : UInt8) (ins : Instruction) :
    asbx op a (.ofInt ins.sbx) = abx op a (.ofNat ins.bx) := by
  -- what was read is in range, so that moving it up does not wrap around
  have hbx : ins.bx < 2 ^ 18 := ins.field_lt 14 18
  have hsbx : ins.sbx = ins.bx - 131071 := rfl
  have htoInt : (Int32.ofInt ins.sbx).toInt = ins.sbx :=
    Int32.toInt_ofInt_of_le (by omega) (by omega)
  have hsum := toNat_toUInt32_add (.ofInt ins.sbx) 131071
  rw [toInt_bias, htoInt] at hsum
  apply eq_of_toNat_word
  rw [asbx_eq_abx, toNat_word_abx, toNat_word_abx, UInt32.toNat_ofNat']
  omega

/-- A word is put together again from its operands, in whichever form they are read. -/
theorem ofOperands_operandsIn (h : ins.opcode? = some op) (form : OperandForm) :
    ofOperands op (ins.operandsIn form) = ins := by
  have hword := ins.toNat_word
  have hbx := ins.bx_eq
  have hax := ins.ax_eq
  have ha : ins.a < 2 ^ 8 := ins.field_lt 6 8
  have hb : ins.b < 2 ^ 9 := ins.field_lt 23 9
  have hc : ins.c < 2 ^ 9 := ins.field_lt 14 9
  -- of the word only the opcode and the operands are left to speak of
  rw [opcodeNumber_of_opcode? h] at hword
  simp only [Nat.shiftLeft_eq] at hword hbx hax
  have habx : abx op (.ofNat ins.a) (.ofNat ins.bx) = ins := by
    apply eq_of_toNat_word
    rw [toNat_word_abx, UInt8.toNat_ofNat', UInt32.toNat_ofNat']
    omega
  cases form with
  | abc =>
    apply eq_of_toNat_word
    rw [operandsIn, ofOperands, toNat_word_abc, UInt8.toNat_ofNat', UInt16.toNat_ofNat',
      UInt16.toNat_ofNat']
    omega
  | abx => exact habx
  -- a signed operand is laid out as the unsigned one that stood there
  | asbx => exact (asbx_sbx op _ ins).trans habx
  | ax =>
    apply eq_of_toNat_word
    rw [operandsIn, ofOperands, toNat_word_ofAx, UInt32.toNat_ofNat']
    omega

end Instruction

open Instruction in
/-- Every word is its fields side by side. Every constructor gives a word with the opcode and the
operands that it was given, each reduced to its field and none reaching into another; a signed
operand is kept exactly if it is in range, and is otherwise moved into range by a multiple of the
size of its field. And every word whose opcode is known is put together again from its operands. -/
theorem instruction_codec :
    (∀ ins : Instruction,
      ins.word.toNat = ins.opcodeNumber + 2 ^ 6 * ins.a + 2 ^ 14 * ins.c + 2 ^ 23 * ins.b ∧
      ins.opcodeNumber < 64 ∧ ins.a < 256 ∧ ins.b < 512 ∧ ins.c < 512 ∧
      ins.bx = 512 * ins.b + ins.c ∧ ins.ax = 256 * ins.bx + ins.a ∧
      ins.sbx = ins.bx - 131071) ∧
    (∀ (op : Opcode) (a : UInt8) (b c : UInt16),
      let ins := abc op a b c
      ins.opcode? = some op ∧ ins.a = a.toNat ∧
        ins.b = b.toNat % 2 ^ 9 ∧ ins.c = c.toNat % 2 ^ 9) ∧
    (∀ (op : Opcode) (a : UInt8) (bx : UInt32),
      let ins := abx op a bx
      ins.opcode? = some op ∧ ins.a = a.toNat ∧ ins.bx = bx.toNat % 2 ^ 18) ∧
    (∀ (op : Opcode) (ax : UInt32),
      let ins := ofAx op ax
      ins.opcode? = some op ∧ ins.ax = ax.toNat % 2 ^ 26) ∧
    (∀ (op : Opcode) (a : UInt8) (sbx : Int32),
      let ins := asbx op a sbx
      ins = abx op a (sbx + 131071).toUInt32 ∧ ins.opcode? = some op ∧ ins.a = a.toNat ∧
        -131071 ≤ ins.sbx ∧ ins.sbx ≤ 131072 ∧ (ins.sbx - sbx.toInt) % 2 ^ 18 = 0 ∧
        (ins.sbx = sbx.toInt ↔ -131071 ≤ sbx.toInt ∧ sbx.toInt ≤ 131072)) ∧
    ∀ (ins : Instruction) (op : Opcode), ins.opcode? = some op →
      ∃ operands, ins.operands? = some operands ∧ operands.form = op.form ∧
        ofOperands op operands = ins := by
  refine ⟨fun ins => ?_, fun op a b c => ?_, fun op a bx => ?_, fun op ax => ?_,
    fun op a sbx => ?_, fun ins op hop => ?_⟩
  -- the fields of a word, and how the wide operands are made of them
  · have hword := ins.toNat_word
    have hbx := ins.bx_eq
    have hax := ins.ax_eq
    simp only [Nat.shiftLeft_eq] at hword hbx hax
    exact ⟨by omega, ins.field_lt 0 6, ins.field_lt 6 8, ins.field_lt 23 9, ins.field_lt 14 9,
      by omega, by omega, rfl⟩
  -- words with three operands
  · obtain ⟨hop, hfields⟩ := fields_abc op a b c
    exact ⟨opcode?_of_opcodeNumber hop, hfields⟩
  -- words with one wide operand behind A
  · obtain ⟨hop, hfields⟩ := fields_abx op a bx
    exact ⟨opcode?_of_opcodeNumber hop, hfields⟩
  -- words with an extra operand
  · obtain ⟨hop, hax⟩ := fields_ofAx op ax
    exact ⟨opcode?_of_opcodeNumber hop, hax⟩
  -- words with a signed operand, which may be moved into range
  · have hasbx := asbx_eq_abx op a sbx
    obtain ⟨hop, ha, -⟩ := fields_abx op a (sbx + 131071).toUInt32
    have hsbx := sbx_asbx op a sbx
    rw [← hasbx] at hop ha
    exact ⟨hasbx, opcode?_of_opcodeNumber hop, ha, by omega, by omega, by omega, by omega⟩
  -- a word that is given
  · refine ⟨ins.operandsIn op.form, ?_, form_operandsIn ins op.form,
      ofOperands_operandsIn hop op.form⟩
    rw [operands?, hop, Option.map_some]

open Instruction in
/-- A jump that is one instruction too long jumps as far back as there is, and is put together again
as such. -/
theorem instruction_codec_jmp :
    let ins := asbx .jmp 7 131073
    ins.opcode? = some .jmp ∧ ins.a = 7 ∧ ins.sbx = -131071 ∧
      ∃ operands, ins.operands? = some operands ∧ operands.form = .asbx ∧
        ofOperands .jmp operands = ins := by
  intro ins
  obtain ⟨-, -, -, -, hasbx, hagain⟩ := instruction_codec
  obtain ⟨-, hop, ha, -⟩ := hasbx .jmp 7 131073
  exact ⟨hop, ha, by decide, hagain ins .jmp hop⟩

end LuaChunk
