import LuaChunk.Header
import LuaChunk.Text.Hex

/-!
# Why a chunk is rejected

A load error names the chunk and the cause. Each cause has its wording in `Cause.message`, which is
a fragment of a sentence that goes on with the words "precompiled chunk".
-/

namespace LuaChunk

/-- Why a chunk is rejected. -/
inductive Cause
  /-- A literal field of the header differs, or the chunk ends inside it. -/
  | headerMismatch (field : LiteralField) (expected actual : Bytes)
  /-- The header declares another width for a type. -/
  | sizeMismatch (field : WidthField) (expected actual : UInt8)
  /-- The integer sample is not the expected one. -/
  | endiannessMismatch
  /-- The floating-point sample is not the expected one. -/
  | floatFormatMismatch
  /-- A constant begins with a byte that is no constant's tag. -/
  | unrecognizedConstantTag (tag : UInt8)
  /-- The chunk declares another number of upvalues than its main function has. -/
  | upvalueCountMismatch (expected actual : Nat)
  /-- A read needs more bytes than are left. -/
  | bufferUnderrun (requested remaining : Nat)
  /-- Debug information names more upvalues than the function has. -/
  | upvalueNameOverflow (upvalues names : Nat)
  /-- A function is nested more deeply than the reader allows. -/
  | nestingTooDeep (limit : Nat)
  deriving DecidableEq, Repr

namespace Cause

/-- Bytes in a message: two digits each, in brackets, with commas between them. -/
def byteList (bs : Bytes) : String :=
  "[" ++ ", ".intercalate (bs.map Hex.byte) ++ "]"

/-- The wording of a cause. -/
def message : Cause → String
  | headerMismatch field expected actual =>
    s!"{field.name} mismatch (expected {byteList expected}, found {byteList actual}) in"
  | sizeMismatch field expected actual =>
    s!"{field.name} size mismatch (expected {expected.toNat}, found {actual.toNat}) in"
  | endiannessMismatch => "endianness mismatch in"
  | floatFormatMismatch => "float format mismatch in"
  | unrecognizedConstantTag tag => s!"unrecognized constant tag 0x{Hex.byte tag} in"
  | upvalueCountMismatch expected actual =>
    s!"upvalue count mismatch (closure declares {expected}, function has {actual}) in"
  | bufferUnderrun requested remaining =>
    s!"truncated (needed {requested} bytes, {remaining} left)"
  | upvalueNameOverflow upvalues names => s!"{names} upvalue names for {upvalues} upvalues in"
  | nestingTooDeep limit => s!"functions nested deeper than {limit} in"

end Cause

/-- A rejected chunk: its name as messages show it, and the cause. -/
structure LoadError where
  chunk : String
  cause : Cause
  deriving DecidableEq, Repr

namespace LoadError

/-- A chunk's name as messages show it. A leading `@` marks a file and a leading `=` a label, and
neither is shown; a name that begins like a chunk is no text. -/
def displayName (name : String) : String :=
  match name.toList with
  | '@' :: rest | '=' :: rest => String.ofList rest
  | '\x1b' :: _ => "binary string"
  | _ => name

/-- The rejection of the chunk of a given name. -/
def ofCause (name : String) (cause : Cause) : LoadError :=
  ⟨displayName name, cause⟩

/-- The message of a load error. -/
def message (e : LoadError) : String :=
  s!"{e.chunk}: {e.cause.message} precompiled chunk"

end LoadError

end LuaChunk
