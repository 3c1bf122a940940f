import LuaChunk.Prototype
import LuaChunk.Header
import LuaChunk.Telemetry

/-!
# Writing chunks

A closure is written as a sequence of fields. A field is a piece of the chunk, or the reason why it
has none: an integer too wide for its four bytes, or a sequence too long for its count. The fields
go to a sink, which either grows or has a fixed capacity; a sink that is full takes what still fits.

Where a function has the source of the function around it, the chunk leaves it out. A stripped chunk
leaves out every source and all debug information.

## Key results

* `Sink.put_of_room`   a field that fits is appended whole
-/

namespace LuaChunk

/-- Why a chunk cannot be written. -/
inductive WriteError
  /-- An integer constant does not fit in four bytes. -/
  | integerTooWide (value : Int64)
  /-- A sequence has more entries than a count can tell. -/
  | sequenceTooLong
  /-- The sink is full. -/
  | sinkFull
  deriving DecidableEq, Repr

/-- The wording of a write error. -/
def WriteError.message : WriteError → String
  | integerTooWide value => s!"integer constant {value.toInt} does not fit in 4 bytes"
  | sequenceTooLong => "sequence too long for chunk"
  | sinkFull => "failed to write whole buffer"

/-- A piece of a chunk, or the reason why there is none. -/
abbrev Field := Except WriteError Bytes

/-! ### Fields -/

namespace Field

/-- A truth value: one byte, 0 or 1. -/
def truth (b : Bool) : Field :=
  .ok [if b then 1 else 0]

/-- A line or an instruction index: four bytes. -/
def int (i : Int32) : Field :=
  .ok (Bytes.leBytes 4 i.toUInt32.toNat)

/-- The number of entries of a sequence: four bytes, less than `2 ^ 31`. -/
def count (n : Nat) : Field :=
  if n < 1 <<< 31 then .ok (Bytes.leBytes 4 n) else .error .sequenceTooLong

/-- The size that stands before a string of a given length. -/
def stringSize (length : Nat) : Bytes :=
  if length + 1 < 0xFF then [.ofNat (length + 1)] else 0xFF :: Bytes.leBytes 8 (length + 1)

/-- A string with its size before it; the absence of one is the size zero. -/
def string : Option Bytes → Field
  | none => .ok [0]
  | some content => .ok (stringSize content.length ++ content)

/-- What follows the tag of a constant. -/
def constantBody : Constant Bytes → List Field
  | .nil => []
  | .boolean value => [truth value]
  | .float value => [.ok (Bytes.leBytes 8 value.bits.toNat)]
  | .integer value =>
    -- an integer that fits comes back from four bytes as it was
    if value.toInt32.toInt64 = value then [int value.toInt32] else [.error (.integerTooWide value)]
  | .string content => [string (some content)]

/-- A constant: its tag and what follows it. -/
def constant (k : Constant Bytes) : List Field :=
  .ok [k.tag] :: constantBody k

/-- Where an upvalue is found: two bytes. -/
def upvalue (u : Upvalue) : Field :=
  .ok [if u.inStack then 1 else 0, u.index]

/-- A local variable: its name and its range. -/
def localVariable (v : LocalVariable) : List Field :=
  [string (some v.name), int v.startPc, int v.endPc]

end Field

namespace FunctionRecord

/-- The fields of a record in front of the functions inside it. -/
def headFields (r : FunctionRecord Bytes) : List Field :=
  [.string r.source, .int r.lineDefined, .int r.lastLineDefined,
    .ok [r.numParams], .truth r.isVararg, .ok [r.maxStackSize]]
  ++ .count r.code.length :: r.code.map (fun ins => .ok ins.toBytes)
  ++ .count r.constants.length :: r.constants.flatMap Field.constant
  ++ .count r.upvalues.length :: r.upvalues.map Field.upvalue

/-- The debug information of a record. -/
def debugFields (r : FunctionRecord Bytes) : List Field :=
  .count r.lineInfo.length :: r.lineInfo.map Field.int
  ++ .count r.locals.length :: r.locals.flatMap Field.localVariable
  ++ .count r.upvalues.length :: r.upvalues.map fun u => .string u.name

/-- Debug information with nothing in it: three counts of zero. -/
def noDebugFields : List Field :=
  List.replicate 3 (.count 0)

end FunctionRecord

namespace Prototype

open FunctionTree

/-- The fields of a tree of function records, with or without debug information. -/
def fields (strip : Bool) : Prototype Bytes → List Field :=
  fold fun r children =>
    r.headFields ++ .count children.length :: children.flatten
      ++ if strip then FunctionRecord.noDebugFields else r.debugFields

/-- The fields of a function are those in front of the functions inside it, theirs, and those
behind. -/
theorem fields_node (strip : Bool) (r : FunctionRecord Bytes) (cs : List (Prototype Bytes)) :
    fields strip (.node r cs) =
      r.headFields ++ .count cs.length :: cs.flatMap (fields strip)
        ++ if strip then FunctionRecord.noDebugFields else r.debugFields := by
  simp only [fields, fold_node, List.length_map, List.flatMap]

end Prototype

namespace Closure

/-- The fields of the chunk that describes a closure. -/
def fields (c : Closure Bytes) (strip : Bool) : List Field :=
  let stored := if strip then c.prototype.strip else c.prototype
  -- stripping comes first, so that no source is left to compare with the one around
  .ok Header.bytes :: .ok [c.upvalueCount] :: (stored.elideSources none).fields strip

end Closure

/-! ### Sinks -/

/-- Where a chunk is written to. -/
structure Sink where
  /-- How many bytes it can take in all; without a capacity it grows. -/
  capacity : Option Nat
  written : Array UInt8
  deriving Repr

namespace Sink

/-- A sink that grows. -/
def growing : Sink :=
  ⟨none, #[]⟩

/-- A sink that takes a number of bytes. -/
def fixed (capacity : Nat) : Sink :=
  ⟨some capacity, #[]⟩

/-- How many of `n` more bytes a sink can take. -/
def accepts (s : Sink) (n : Nat) : Nat :=
  match s.capacity with
  | none => n
  | some capacity => min n (capacity - s.written.size)

/-- Puts bytes into a sink, as many as it can take, and tells whether that was all of them. -/
def put (s : Sink) (bs : Bytes) : Bool × Sink :=
  -- a field that does not fit is put as far as there is room
  let n := s.accepts bs.length
  (n = bs.length, { s with written := s.written ++ bs.take n })

/-- Writes fields in order, up to the first that cannot be written. -/
def write (s : Sink) : List Field → Option WriteError × Sink
  | [] => (none, s)
  | .error e :: _ => (some e, s)
  | .ok bs :: fields =>
    match s.put bs with
    | (true, s) => s.write fields
    | (false, s) => (some .sinkFull, s)

/-- A sink takes all of a piece that there is room for. -/
theorem put_of_room {s : Sink} {bs : Bytes} (h : s.accepts bs.length = bs.length) :
    s.put bs = (true, { s with written := s.written ++ bs }) := by
  simp [put, h]

end Sink

/-! ### Writers -/

/-- A sink for chunks, and whether they are written stripped. -/
structure Writer where
  sink : Sink
  strip : Bool
  deriving Repr

namespace Writer

/-- A writer to a sink that strips nothing. -/
def ofSink (sink : Sink) : Writer :=
  ⟨sink, false⟩

/-- Writes the chunk that describes a closure after what was written before. -/
def write (w : Writer) (c : Closure Bytes) : Option WriteError × Writer :=
  let (failure, sink) := w.sink.write (c.fields w.strip)
  (failure, { w with sink })

/-- All bytes written. -/
def bytes (w : Writer) : Bytes :=
  w.sink.written.toList

end Writer

/-- The counters after an attempt to write a chunk, with the reason if it failed. -/
def Counters.afterWrite (c : Counters) (failure : Option WriteError) : Counters :=
  if failure.isNone then c.afterDump else c

/-- The chunk that describes a closure. -/
def dump (c : Closure Bytes) (strip : Bool) : Except WriteError Bytes :=
  match Writer.write ⟨.growing, strip⟩ c with
  | (none, w) => .ok w.bytes
  | (some e, _) => .error e

end LuaChunk
