import LuaChunk.Listing

/-!
# Constants in remarks

The remark on an instruction shows the constants that the instruction refers to. Which those are is
said here without the remark: the constant of Bx where the opcode loads a constant, and those of B
and of C, if the opcode lets the operand name a constant and the operand does.

Every remark names these constants and no others, in the order of the operands. An opcode that may
only have a remark for its constants has one whenever it refers to a constant. It also has one that
names no constant, where B has the constant bit and the opcode does not let B name a constant: the
bit is looked for in both operands, whether or not they may have it.

## Key results

* `constants_mentions`     the constants that a remark names are those that are referred to
* `mentions_ne_nil_iff`    when an opcode that remarks on constants alone has a remark
* `constants_of_remark`    remarks and constants, for every instruction of every function
* `getTable_remark_without_constant`   a remark that names no constant
-/

namespace LuaChunk

namespace Opcode

/-- Whether the remark on an instruction says something of its own for the opcode: the upvalue that
is meant, the function, where a jump leads, or the constant that is loaded. -/
def hasOwnRemark : Opcode → Bool
  | loadK | getUpval | setUpval | getTabUp | setTabUp | jmp | forLoop | forPrep | tforLoop
  | closure => true
  | _ => false

/-- Whether an opcode can have a remark, and for the constants in its operands alone. -/
def remarksOnlyConstants : Opcode → Bool
  | getTabUp | setTabUp => false
  | op => op.bMayBeConstant || op.cMayBeConstant

/-- An opcode that remarks on constants alone has nothing else to say. -/
theorem not_hasOwnRemark {op : Opcode} (h : op.remarksOnlyConstants) :
    op.hasOwnRemark = false := by
  cases op with
  | loadK | getUpval | setUpval | getTabUp | setTabUp | jmp | forLoop | forPrep | tforLoop
  | closure => exact nomatch h
  | _ => rfl

/-- Wherever B may be a constant, C may be one too. -/
theorem cMayBeConstant_of_remarksOnlyConstants {op : Opcode} (h : op.remarksOnlyConstants) :
    op.cMayBeConstant := by
  cases op with
  | getTabUp | setTabUp => exact nomatch h
  | getTable | self => rfl
  | _ => exact (Bool.or_self _).symm.trans h

end Opcode

namespace Listing

open RegisterOrConstant

/-- The constant that an operand names; `used` tells whether the opcode lets it name one. -/
def operandConstant (used : Bool) (operand : Nat) : List Nat :=
  if used && isConstant operand then [constantIndex operand] else []

/-- The constants that an instruction refers to, by their indices, in the order of the operands. -/
def constantOperands (op : Opcode) (ins : Instruction) : List Nat :=
  if op = .loadK then [ins.bx]
  else operandConstant op.bMayBeConstant ins.b ++ operandConstant op.cMayBeConstant ins.c

/-- The constant that is mentioned. -/
def Mention.constant? : Mention → Option Nat
  | .constant index => some index
  | _ => none

/-! ### Which constants a remark names -/

/-- The constant of an operand is mentioned if the operand names one. -/
theorem constants_constantOf (operand : Nat) :
    (constantOf operand).filterMap Mention.constant? = operandConstant true operand := by
  unfold constantOf operandConstant
  cases isConstant operand <;> rfl

/-- Where a dash may stand for an operand, its constant is mentioned only if it may be one. -/
theorem constants_constantOrNone (used : Bool) (operand : Nat) :
    [constantOrNone used operand].filterMap Mention.constant? = operandConstant used operand := by
  unfold constantOrNone operandConstant
  cases used && isConstant operand <;> rfl

/-- The remark of an opcode that has no words of its own to say names the constants of B and C. -/
theorem constants_operandMentions (usedB usedC : Bool) (b c : Nat) :
    (if (usedB || usedC) && (isConstant b || isConstant c) then
        [constantOrNone usedB b, constantOrNone usedC c] else []).filterMap Mention.constant? =
      operandConstant usedB b ++ operandConstant usedC c := by
  split
  -- there is a remark, and its two entries are those of B and of C
  · next h =>
    rw [← constants_constantOrNone usedB b, ← constants_constantOrNone usedC c,
      ← List.filterMap_append]
    rfl
  · next h =>
    -- neither operand has the constant bit, or neither may have it
    unfold operandConstant
    cases usedB <;> cases usedC <;> cases hb : isConstant b <;> cases hc : isConstant c <;>
      simp_all

/-- Without words of its own, a remark has an entry for B and one for C, or there is none. -/
theorem mentions_of_not_hasOwnRemark {op : Opcode} (h : op.hasOwnRemark = false) (pc : Nat)
    (ins : Instruction) :
    mentions pc op ins =
      if (op.bMayBeConstant || op.cMayBeConstant) && (isConstant ins.b || isConstant ins.c) then
        [constantOrNone op.bMayBeConstant ins.b, constantOrNone op.cMayBeConstant ins.c]
      else [] := by
  cases op with
  | loadK | getUpval | setUpval | getTabUp | setTabUp | jmp | forLoop | forPrep | tforLoop
  | closure => exact nomatch h
  | _ => rfl

/-- The constants that a remark names are those that the instruction refers to. -/
theorem constants_mentions (pc : Nat) (op : Opcode) (ins : Instruction) :
    (mentions pc op ins).filterMap Mention.constant? = constantOperands op ins := by
  cases h : op.hasOwnRemark with
  | false =>
    have hop : op ≠ .loadK := fun heq => Bool.false_ne_true (heq ▸ h).symm
    rw [mentions_of_not_hasOwnRemark h, constants_operandMentions, constantOperands, if_neg hop]
  | true =>
    cases op with
    -- words of their own that name no constant, or the one that is loaded
    | loadK | getUpval | setUpval | jmp | forLoop | forPrep | tforLoop | closure => rfl
    -- the upvalue is no constant, and the key is shown only if it is one
    | getTabUp => exact constants_constantOf ins.c
    -- likewise, with a key and a value
    | setTabUp =>
      rw [mentions, List.cons_append, List.filterMap_cons_none rfl, List.filterMap_append,
        constants_constantOf, constants_constantOf]
      rfl
    | _ => exact nomatch h

/-! ### When there is a remark -/

/-- A constant is shown by its text, and one that is not there by a question mark. -/
theorem constantText_ofRecord (r : FunctionRecord Bytes) (index : Nat) :
    (Scope.ofRecord r).constantText index = r.constants[index]?.elim "?" Constant.text := by
  have hconstants : (Scope.ofRecord r).constants[index]? = r.constants[index]? :=
    List.getElem?_toArray
  rw [Scope.constantText, hconstants]
  cases r.constants[index]? <;> rfl

/-- The words of a remark, in order. -/
theorem remark_of_opcode? (s : Scope) (pc : Nat) {ins : Instruction} {op : Opcode}
    (h : ins.opcode? = some op) :
    s.remark pc ins = if mentions pc op ins = [] then ""
      else "\t; " ++ " ".intercalate ((mentions pc op ins).map s.mentionText) := by
  unfold Scope.remark
  simp only [h]
  cases mentions pc op ins <;> rfl

/-- A remark is empty exactly when nothing is mentioned. -/
theorem remark_eq_empty_iff (s : Scope) (pc : Nat) {ins : Instruction} {op : Opcode}
    (h : ins.opcode? = some op) : s.remark pc ins = "" ↔ mentions pc op ins = [] := by
  rw [remark_of_opcode? s pc h]
  split
  · next hnil => exact iff_of_true rfl hnil
  -- whatever is mentioned stands behind a tabulator
  · next hne =>
    refine iff_of_false (fun hempty => ?_) hne
    have hlist := congrArg String.toList hempty
    rw [String.toList_append] at hlist
    exact List.cons_ne_nil _ _ (List.append_eq_nil_iff.1 hlist).1

/-- An opcode that can have a remark for its constants alone has one when the constant bit is set in
B or in C. -/
theorem mentions_ne_nil_iff {op : Opcode} (h : op.remarksOnlyConstants) (pc : Nat)
    (ins : Instruction) :
    mentions pc op ins ≠ [] ↔ isConstant ins.b ∨ isConstant ins.c := by
  rw [mentions_of_not_hasOwnRemark (Opcode.not_hasOwnRemark h),
    Opcode.cMayBeConstant_of_remarksOnlyConstants h, Bool.or_true, Bool.true_and]
  cases isConstant ins.b <;> cases isConstant ins.c <;> simp

/-- Such an opcode refers to a constant when the constant bit is set in C, or in B if B may be
one. -/
theorem constantOperands_ne_nil_iff {op : Opcode} (h : op.remarksOnlyConstants)
    (ins : Instruction) :
    constantOperands op ins ≠ [] ↔
      (op.bMayBeConstant ∧ isConstant ins.b) ∨ isConstant ins.c := by
  have hop : op ≠ .loadK := fun heq => by rw [heq] at h; exact nomatch h
  rw [constantOperands, if_neg hop, operandConstant, operandConstant,
    Opcode.cMayBeConstant_of_remarksOnlyConstants h]
  cases op.bMayBeConstant <;> cases isConstant ins.b <;> cases isConstant ins.c <;> simp

/-- A function without instructions, whose only constant is a string. -/
def oneConstant : FunctionRecord Bytes where
  source := none
  lineDefined := 0
  lastLineDefined := 0
  numParams := 0
  isVararg := false
  maxStackSize := 2
  code := []
  constants := [.string [0x68, 0x69]]
  upvalues := []
  lineInfo := []
  locals := []

end Listing

open Listing in
/-- The remark on every instruction names exactly the constants that the instruction refers to, in
the order of the operands, each by its text or as a question mark if there is no such constant. An
opcode that can have a remark for its constants alone has one when the instruction refers to a
constant, and besides when B has the constant bit although the opcode does not let B name one. -/
theorem constants_of_remark (r : FunctionRecord Bytes) (pc : Nat) {ins : Instruction} {op : Opcode}
    (h : ins.opcode? = some op) :
    let scope := Scope.ofRecord r
    let named := mentions pc op ins
    scope.remark pc ins =
      (if named = [] then "" else "\t; " ++ " ".intercalate (named.map scope.mentionText)) ∧
    named.filterMap Mention.constant? = constantOperands op ins ∧
    (∀ index, scope.mentionText (.constant index) =
      r.constants[index]?.elim "?" Constant.text) ∧
    (op.remarksOnlyConstants → (scope.remark pc ins ≠ "" ↔
      constantOperands op ins ≠ [] ∨
        op.bMayBeConstant = false ∧ RegisterOrConstant.isConstant ins.b)) := by
  intro scope named
  refine ⟨remark_of_opcode? scope pc h, constants_mentions pc op ins,
    fun index => constantText_ofRecord r index, fun hop => ?_⟩
  rw [Ne, remark_eq_empty_iff scope pc h, ← Ne, mentions_ne_nil_iff hop,
    constantOperands_ne_nil_iff hop]
  -- the two conditions differ by the bit in B alone
  cases op.bMayBeConstant <;> cases RegisterOrConstant.isConstant ins.b <;> simp

open Listing in
/-- An addition of the only constant and one past the end of the constants. -/
theorem constants_of_remark_add :
    let ins := Instruction.abc .add 0 256 261
    ins.opcode? = some .add ∧ (mentions 0 .add ins).filterMap Mention.constant? = [0, 5] ∧
      (Scope.ofRecord oneConstant).remark 0 ins ≠ "" := by
  intro ins
  have hop : ins.opcode? = some .add := by decide
  obtain ⟨-, hnamed, -, hremark⟩ := constants_of_remark oneConstant 0 hop
  exact ⟨hop, hnamed.trans (by decide), (hremark rfl).2 (.inl (by decide))⟩

open Listing in
/-- The remark that names no constant: the register of a table is given as 256, which has the
constant bit, and the key is a register. -/
theorem getTable_remark_without_constant :
    let ins : Instruction := ⟨0x80000007⟩
    ins.opcode? = some .getTable ∧ Opcode.getTable.remarksOnlyConstants ∧
      constantOperands .getTable ins = [] ∧
      (Scope.ofRecord oneConstant).remark 0 ins = "\t; - -" := by
  refine ⟨by decide, rfl, by decide, by decide⟩

end LuaChunk
