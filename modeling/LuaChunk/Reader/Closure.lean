import LuaChunk.Reader.Header
import LuaChunk.Prototype

/-!
# Reading a closure

After its header a chunk holds the number of upvalues of its main function, and that function's
record. A record holds the records of the functions inside it, so reading one is a recursion; its
depth is bounded by the limit on nesting that the caller sets.

Sources are resolved when the tree is complete: what is read is the tree as it is stored, in which a
function without a source of its own has none.
-/

namespace LuaChunk

/-- How a chunk is read. -/
structure ReadOptions where
  /-- The depth of the innermost function that is accepted; the main function has depth 0. -/
  maxDepth : Nat := 200
  /-- Whether a count is checked against the rest of the buffer before its entries are read. -/
  checkCounts : Bool := true
  deriving DecidableEq, Repr

namespace Read

variable (options : ReadOptions)

/-! ### Constants -/

/-- Reads a constant and notes its content if it is a string. An absent string is an empty one. -/
def constant : Read (Constant Bytes) := do
  let tag ← byte
  if tag = Constant.nilTag then
    return .nil
  else if tag = Constant.booleanTag then
    return .boolean (← truth)
  else if tag = Constant.floatTag then
    return .float (← number)
  else if tag = Constant.integerTag then
    return .integer (← integer)
  else if tag = Constant.shortStringTag ∨ tag = Constant.longStringTag then
    -- short and long strings are stored alike
    let content := (← string).getD []
    note (.string content)
    return .string content
  else
    throw (.unrecognizedConstantTag tag)

/-! ### Upvalues and debug information -/

/-- Reads where an upvalue is found; its name comes with the debug information. -/
def upvalue : Read Upvalue := do
  let inStack ← truth
  let index ← byte
  return ⟨inStack, index, none⟩

/-- Reads a local variable. An absent name is an empty one. -/
def localVariable : Read LocalVariable := do
  let name := (← string).getD []
  let startPc ← int
  let endPc ← int
  return ⟨name, startPc, endPc⟩

/-- Gives the upvalues their names, first name to first upvalue; upvalues past the last name stay
without one. -/
def nameUpvalues (upvalues : List Upvalue) (names : List (Option Bytes)) : List Upvalue :=
  upvalues.zipWith (fun u name => { u with name })
    (names ++ List.replicate (upvalues.length - names.length) none)

/-- Reads the names of upvalues, no more than there are upvalues. -/
def upvalueNames (upvalues : List Upvalue) : Read (List Upvalue) := do
  let names ← count options.checkCounts 1
  if names > upvalues.length then
    throw (.upvalueNameOverflow upvalues.length names)
  return nameUpvalues upvalues (← listOf names string)

/-! ### Function records -/

/-- The size of the smallest function record: no source, two lines, three bytes of flags and sizes,
and seven counts of zero. -/
def minRecordSize : Nat := 1 + 2 * 4 + 3 + 7 * 4

/-- Reads a function record and the records inside it, and notes it when it is complete. `room` is
the number of nested records that may still be opened, this one included. -/
def prototype : (room : Nat) → Read (Prototype Bytes)
  | 0 => throw (.nestingTooDeep options.maxDepth)
  | room + 1 => do
    let start ← offset
    let source ← string
    let lineDefined ← int
    let lastLineDefined ← int
    let numParams ← byte
    let isVararg ← truth
    let maxStackSize ← byte
    let code ← counted options.checkCounts 4 instruction
    let constants ← counted options.checkCounts 1 constant
    let upvalues ← counted options.checkCounts 2 upvalue
    -- the records inside have one level less to open
    let children ← counted options.checkCounts minRecordSize (prototype room)
    let lineInfo ← counted options.checkCounts 4 int
    let locals ← counted options.checkCounts 9 localVariable
    let upvalues ← upvalueNames options upvalues
    -- a record that fails before this point is not noted
    note (.record
      { offset := start
        depth := options.maxDepth - room
        lineDefined
        instructions := code.length
        constants := constants.length })
    return .node
      { source, lineDefined, lastLineDefined, numParams, isVararg, maxStackSize,
        code, constants, upvalues, lineInfo, locals }
      children

/-- Reads the main function of a chunk. -/
def mainFunction : Read (Prototype Bytes) :=
  prototype options (options.maxDepth + 1)

/-! ### Whole chunks -/

/-- Reads a chunk from its first byte on. What follows the main function is left unread. -/
def closure : Read (Closure Bytes) := do
  let _ ← header
  let declared ← byte
  let main ← mainFunction options
  -- compared last, so that whatever is wrong inside the function comes first
  let actual := main.record.upvalues.length
  if declared.toNat ≠ actual then
    throw (.upvalueCountMismatch declared.toNat actual)
  return ⟨declared, main.inheritSources none⟩

end Read

end LuaChunk
