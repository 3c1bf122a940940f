/-!
# Opcodes

The 47 operations of the virtual machine, numbered by their place in the declaration, with what an
instruction word of each one carries: its operand form, and which of its B and C operands may name
a constant.

## Key results

* `ofNat?_toNat`       an opcode is found again under its number
* `toNat_of_ofNat?`    a number names at most one opcode, and that opcode has this number
-/

namespace LuaChunk

/-- The operations of the virtual machine, in the order of their numbers. -/
inductive Opcode
  | move | loadK | loadKX | loadBool | loadNil
  | getUpval | getTabUp | getTable | setTabUp | setUpval | setTable | newTable | self
  | add | sub | mul | mod | pow | div | idiv | band | bor | bxor | shl | shr
  | unm | bnot | not | len | concat
  | jmp | eq | lt | le | test | testSet | call | tailCall | ret
  | forLoop | forPrep | tforCall | tforLoop
  | setList | closure | vararg | extraArg
  deriving DecidableEq, Repr

/-- The operand forms of an instruction word: three operands, one register and an unsigned operand,
one register and a signed operand, or one wide operand. -/
inductive OperandForm
  | abc | abx | asbx | ax
  deriving DecidableEq, Repr

namespace OperandForm

/-- The usual name of an operand form. -/
def name : OperandForm → String
  | abc => "iABC"
  | abx => "iABx"
  | asbx => "iAsBx"
  | ax => "iAx"

end OperandForm

namespace Opcode

/-- Every opcode, in the order of their numbers. -/
def all : List Opcode :=
  [move, loadK, loadKX, loadBool, loadNil,
   getUpval, getTabUp, getTable, setTabUp, setUpval, setTable, newTable, self,
   add, sub, mul, mod, pow, div, idiv, band, bor, bxor, shl, shr,
   unm, bnot, not, len, concat,
   jmp, eq, lt, le, test, testSet, call, tailCall, ret,
   forLoop, forPrep, tforCall, tforLoop,
   setList, closure, vararg, extraArg]

/-- The number of an opcode in an instruction word. -/
def toNat (op : Opcode) : Nat :=
  op.ctorIdx

/-- The opcode with a given number, if the machine has one. -/
def ofNat? (n : Nat) : Option Opcode :=
  all[n]?

/-- Every opcode is one of those listed. -/
theorem toNat_lt (op : Opcode) : op.toNat < all.length := by
  cases op <;> decide

/-- An opcode is found again under its number. -/
@[simp] theorem ofNat?_toNat (op : Opcode) : ofNat? op.toNat = some op := by
  cases op <;> rfl

/-- What is found under a number has that number. -/
theorem toNat_of_ofNat? {n : Nat} {op : Opcode} (h : ofNat? n = some op) : op.toNat = n := by
  have hn : n < all.length := by
    simpa [ofNat?] using (List.getElem?_eq_some_iff.1 h).1
  -- there are so few numbers that each can be tried
  have key : ∀ m : Fin all.length, (ofNat? m).map toNat = some m.val := by decide
  simpa [h] using key ⟨n, hn⟩

/-- The name of an opcode as listings print it. -/
def name : Opcode → String
  | move => "MOVE"
  | loadK => "LOADK"
  | loadKX => "LOADKX"
  | loadBool => "LOADBOOL"
  | loadNil => "LOADNIL"
  | getUpval => "GETUPVAL"
  | getTabUp => "GETTABUP"
  | getTable => "GETTABLE"
  | setTabUp => "SETTABUP"
  | setUpval => "SETUPVAL"
  | setTable => "SETTABLE"
  | newTable => "NEWTABLE"
  | self => "SELF"
  | add => "ADD"
  | sub => "SUB"
  | mul => "MUL"
  | mod => "MOD"
  | pow => "POW"
  | div => "DIV"
  | idiv => "IDIV"
  | band => "BAND"
  | bor => "BOR"
  | bxor => "BXOR"
  | shl => "SHL"
  | shr => "SHR"
  | unm => "UNM"
  | bnot => "BNOT"
  | not => "NOT"
  | len => "LEN"
  | concat => "CONCAT"
  | jmp => "JMP"
  | eq => "EQ"
  | lt => "LT"
  | le => "LE"
  | test => "TEST"
  | testSet => "TESTSET"
  | call => "CALL"
  | tailCall => "TAILCALL"
  | ret => "RETURN"
  | forLoop => "FORLOOP"
  | forPrep => "FORPREP"
  | tforCall => "TFORCALL"
  | tforLoop => "TFORLOOP"
  | setList => "SETLIST"
  | closure => "CLOSURE"
  | vararg => "VARARG"
  | extraArg => "EXTRAARG"

/-- The operand form of an opcode's instruction words. -/
def form : Opcode → OperandForm
  | loadK | loadKX | closure => .abx
  | jmp | forLoop | forPrep | tforLoop => .asbx
  | extraArg => .ax
  | _ => .abc

/-- Whether an opcode may transfer control elsewhere than to the next instruction. -/
def isControlFlow : Opcode → Bool
  | jmp | eq | lt | le | test | testSet | call | tailCall | ret
  | forLoop | forPrep | tforCall | tforLoop => true
  | _ => false

/-- Whether the B operand is a register or a constant, told apart by its highest bit. -/
def bMayBeConstant : Opcode → Bool
  | setTabUp | setTable | add | sub | mul | mod | pow | div | idiv
  | band | bor | bxor | shl | shr | eq | lt | le => true
  | _ => false

/-- Whether the C operand is a register or a constant, told apart by its highest bit. Wherever B
may be a constant, C may be one too. -/
def cMayBeConstant : Opcode → Bool
  | getTabUp | getTable | self => true
  | op => op.bMayBeConstant

end Opcode

end LuaChunk
