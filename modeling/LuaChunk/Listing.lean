import LuaChunk.Prototype

/-!
# Listings

A listing shows functions to a reader: two lines of summary, a line for each instruction, and on
request the constants, local variables and upvalues. It is a list of lines; a recursive one goes on
with the functions inside, in order, with an empty line before each.

An instruction's line has its number, its source line, its opcode and operands, and often a remark
that names what the operands refer to.

## Key results

* `lines_node`   the lines of a function are its own, then those of the functions inside it
-/

namespace LuaChunk

/-- What a listing shows beside the instructions. -/
structure ListingOptions where
  constants : Bool := false
  locals : Bool := false
  upvalues : Bool := false
  /-- Whether the functions inside a function are listed after it. -/
  recursive : Bool := true
  deriving DecidableEq, Repr

/-- The options that show everything. -/
def ListingOptions.full : ListingOptions :=
  { constants := true, locals := true, upvalues := true }

namespace Listing

/-! ### Small texts -/

/-- The ending of a noun after a number. -/
def plural (n : Nat) : String :=
  if n = 1 then "" else "s"

/-- A number with its noun. -/
def counted (n : Nat) (noun : String) : String :=
  s!"{n} {noun}{plural n}"

/-- A name filled up with spaces to nine characters. -/
def padded (name : String) : String :=
  name ++ String.ofList (List.replicate (9 - name.length) ' ')

/-! ### Opcodes and operands -/

/-- An operand that is a register or a constant: a register by its number, and the constants counted
down from -1. -/
def registerOrConstant (operand : Nat) : Int :=
  if RegisterOrConstant.isConstant operand then -1 - RegisterOrConstant.constantIndex operand
  else operand

/-- The operands of an instruction as a listing shows them. -/
def operandText (op : Opcode) : Operands → String
  | .abc a b c =>
    let b : Int := if op.bMayBeConstant then registerOrConstant b else b
    let c : Int := if op.cMayBeConstant then registerOrConstant c else c
    s!"{a} {b} {c}"
  | .abx a bx =>
    -- of the opcodes with Bx, only this one names a constant by it
    let bx : Int := if op = .loadK then -1 - bx else bx
    s!"{a} {bx}"
  | .asbx a sbx => s!"{a} {sbx}"
  | .ax ax => (-1 - ax : Int).repr

/-- The column with the opcode and the operands; an unknown opcode is shown as the whole word. -/
def instructionColumn (ins : Instruction) : String :=
  match ins.opcode? with
  | some op => padded op.name ++ "\t" ++ operandText op (ins.operandsIn op.form)
  | none => padded "UNKNOWN" ++ "\t0x" ++ Hex.padded 8 ins.word.toNat

/-! ### Remarks -/

/-- Something that a remark names. -/
inductive Mention
  /-- An upvalue of the function. -/
  | upvalue (index : Nat)
  /-- A constant of the function. -/
  | constant (index : Nat)
  /-- An operand that is no constant, between two that could be. -/
  | noConstant
  /-- The number of the instruction that a jump leads to. -/
  | target (number : Int)
  /-- One of the functions inside the function. -/
  | function (index : Nat)
  deriving DecidableEq, Repr

/-- The constant that an operand names, if it names one. -/
def constantOf (operand : Nat) : List Mention :=
  if RegisterOrConstant.isConstant operand then
    [.constant (RegisterOrConstant.constantIndex operand)]
  else []

/-- The constant that an operand names, or that it names none; `used` tells whether it could. -/
def constantOrNone (used : Bool) (operand : Nat) : Mention :=
  if used && RegisterOrConstant.isConstant operand then
    .constant (RegisterOrConstant.constantIndex operand)
  else .noConstant

/-- What the remark on the instruction with index `pc` names, in order; without mentions there is no
remark. -/
def mentions (pc : Nat) (op : Opcode) (ins : Instruction) : List Mention :=
  match op with
  | .loadK => [.constant ins.bx]
  | .getUpval | .setUpval => [.upvalue ins.b]
  | .getTabUp => .upvalue ins.b :: constantOf ins.c
  | .setTabUp => .upvalue ins.a :: constantOf ins.b ++ constantOf ins.c
  -- a jump counts from the instruction behind it, and numbers begin at 1
  | .jmp | .forLoop | .forPrep | .tforLoop => [.target (pc + ins.sbx + 2)]
  | .closure => [.function ins.bx]
  | op =>
    -- the bits of both operands are looked at, whether or not each may be a constant
    if (op.bMayBeConstant || op.cMayBeConstant)
        && (RegisterOrConstant.isConstant ins.b || RegisterOrConstant.isConstant ins.c) then
      [constantOrNone op.bMayBeConstant ins.b, constantOrNone op.cMayBeConstant ins.c]
    else []

/-! ### Lines of a function -/

/-- What the lines of a function's instructions refer to. -/
structure Scope where
  constants : Array (Constant Bytes)
  upvalues : Array Upvalue
  lineInfo : Array Int32

namespace Scope

/-- The scope of a function. -/
def ofRecord (r : FunctionRecord Bytes) : Scope :=
  ⟨r.constants.toArray, r.upvalues.toArray, r.lineInfo.toArray⟩

/-- A constant by its index. -/
def constantText (s : Scope) (index : Nat) : String :=
  match s.constants[index]? with
  | some k => k.text
  | none => "?"

/-- The name of an upvalue by its index. -/
def upvalueName (s : Scope) (index : Nat) : String :=
  match s.upvalues[index]?.bind Upvalue.name with
  | some name => Utf8.decode name
  | none => "-"

/-- The source line of an instruction by its index. -/
def lineText (s : Scope) (pc : Nat) : String :=
  match s.lineInfo[pc]? with
  | some line => line.toInt.repr
  | none => "-"

/-- The words for a mention. -/
def mentionText (s : Scope) : Mention → String
  | .upvalue index => s.upvalueName index
  | .constant index => s.constantText index
  | .noConstant => "-"
  | .target number => s!"to {number}"
  | .function index => s!"function[{index}]"

/-- The remark on an instruction, if there is something to name. -/
def remark (s : Scope) (pc : Nat) (ins : Instruction) : String :=
  match ins.opcode? with
  | none => ""
  | some op =>
    match mentions pc op ins with
    | [] => ""
    | named => "\t; " ++ " ".intercalate (named.map s.mentionText)

/-- The line of the instruction with index `pc`; instructions are numbered from 1. -/
def instructionLine (s : Scope) (pc : Nat) (ins : Instruction) : String :=
  s!"\t{pc + 1}\t[{s.lineText pc}]\t" ++ instructionColumn ins ++ s.remark pc ins

end Scope

/-- The line that says which function this is. -/
def titleLine (r : FunctionRecord Bytes) : String :=
  let kind := if r.isMain then "main" else "function"
  let instructions := counted r.code.length "instruction"
  s!"{kind} <{r.sourceText}:{r.lineDefined.toInt},{r.lastLineDefined.toInt}> ({instructions})"

/-- The line that says how much of everything a function has; `functions` is the number of functions
directly inside it. -/
def summaryLine (r : FunctionRecord Bytes) (functions : Nat) : String :=
  let params := r.numParams.toNat
  let more := if r.isVararg then "+" else ""
  ", ".intercalate
    [s!"{params}{more} param{plural params}",
     counted r.maxStackSize.toNat "slot",
     counted r.upvalues.length "upvalue",
     counted r.locals.length "local",
     counted r.constants.length "constant",
     counted functions "function"]

/-- The constants of a function, numbered from 1. -/
def constantLines (r : FunctionRecord Bytes) : List String :=
  s!"constants ({r.constants.length}):" ::
    r.constants.mapIdx fun i k => s!"\t{i + 1}\t{k.text}"

/-- The local variables of a function, numbered from 0; their instructions are numbered from 1. -/
def localLines (r : FunctionRecord Bytes) : List String :=
  s!"locals ({r.locals.length}):" ::
    r.locals.mapIdx fun i v =>
      s!"\t{i}\t{Utf8.decode v.name}\t{v.startPc.toInt + 1}\t{v.endPc.toInt + 1}"

/-- The upvalues of a function, numbered from 0. -/
def upvalueLines (r : FunctionRecord Bytes) : List String :=
  let scope := Scope.ofRecord r
  s!"upvalues ({r.upvalues.length}):" ::
    r.upvalues.mapIdx fun i u =>
      s!"\t{i}\t{scope.upvalueName i}\t{u.inStack.toNat}\t{u.index.toNat}"

/-- The lines of a function without the functions inside it. -/
def ownLines (options : ListingOptions) (r : FunctionRecord Bytes) (functions : Nat) :
    List String :=
  let scope := Scope.ofRecord r
  titleLine r :: summaryLine r functions :: r.code.mapIdx scope.instructionLine
    ++ (if options.constants then constantLines r else [])
    ++ (if options.locals then localLines r else [])
    ++ (if options.upvalues then upvalueLines r else [])

/-! ### Lines of a tree -/

/-- The lines of a function and, in a recursive listing, of the functions inside it. -/
def lines (options : ListingOptions) : Prototype Bytes → List String :=
  FunctionTree.fold fun r children =>
    ownLines options r children.length
      -- an empty line stands in front of each function but the first
      ++ if options.recursive then children.flatMap ("" :: ·) else []

/-- The lines of a function are its own, then those of the functions inside it, each after an empty
line. -/
theorem lines_node (options : ListingOptions) (r : FunctionRecord Bytes)
    (cs : List (Prototype Bytes)) :
    lines options (.node r cs) =
      ownLines options r cs.length
        ++ if options.recursive then cs.flatMap fun c => "" :: lines options c else [] := by
  simp only [lines, FunctionTree.fold_node, List.length_map, List.flatMap_map]

/-- The listing of a function as text, every line with its end. -/
def render (options : ListingOptions) (p : Prototype Bytes) : String :=
  String.join ((lines options p).map (· ++ "\n"))

end Listing

end LuaChunk
