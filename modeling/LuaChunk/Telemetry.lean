import LuaChunk.Reader

/-!
# Telemetry

What loading and writing chunks report about themselves: events in the order in which they happen,
and counters that only rise.
-/

namespace LuaChunk

/-- How much an event matters. -/
inductive Level
  | trace | debug | warn
  deriving DecidableEq, Repr

/-- The name of a level. -/
def Level.name : Level → String
  | trace => "TRACE"
  | debug => "DEBUG"
  | warn => "WARN"

/-- Something that happens while a chunk is loaded. -/
inductive Event
  /-- Loading begins. -/
  | loading (chunk : String) (length : Nat)
  /-- A function record was read to its end. -/
  | readFunction (summary : RecordSummary)
  /-- Bytes follow the main function. -/
  | ignoring (trailing : Nat)
  /-- Loading has ended well. -/
  | loaded (chunk : String) (prototypes : Nat)
  /-- The chunk was rejected. -/
  | rejected (error : LoadError)
  deriving DecidableEq, Repr

namespace Event

/-- The level of an event. -/
def level : Event → Level
  | readFunction _ => .trace
  | rejected _ => .warn
  | _ => .debug

/-- The wording of an event. -/
def message : Event → String
  | loading _ _ => "loading precompiled chunk"
  | readFunction _ => "read function"
  | ignoring _ => "ignoring bytes after root function"
  | loaded _ _ => "loaded precompiled chunk"
  | rejected _ => "rejected precompiled chunk"

/-- The named values of an event, as text. -/
def fields : Event → List (String × String)
  | loading chunk length => [("chunk", chunk), ("len", length.repr)]
  | readFunction s =>
    [("offset", s.offset.repr), ("depth", s.depth.repr), ("line", s.lineDefined.toInt.repr),
     ("instructions", s.instructions.repr), ("constants", s.constants.repr)]
  | ignoring trailing => [("trailing", trailing.repr)]
  | loaded chunk prototypes => [("chunk", chunk), ("prototypes", prototypes.repr)]
  | rejected error => [("error", error.message)]

end Event

/-- How many chunks and functions have gone through. -/
structure Counters where
  chunksLoaded : Nat := 0
  prototypesLoaded : Nat := 0
  chunksRejected : Nat := 0
  /-- Chunks written to their end. -/
  chunksDumped : Nat := 0
  deriving DecidableEq, Repr

namespace Counters

/-- The counters by name. -/
def named (c : Counters) : List (String × Nat) :=
  [("lua_bytecode.chunks_loaded", c.chunksLoaded),
   ("lua_bytecode.prototypes_loaded", c.prototypesLoaded),
   ("lua_bytecode.chunks_rejected", c.chunksRejected),
   ("lua_bytecode.chunks_dumped", c.chunksDumped)]

/-- The counters after an event. -/
def afterEvent (c : Counters) : Event → Counters
  | .loaded _ prototypes =>
    { c with
      chunksLoaded := c.chunksLoaded + 1
      prototypesLoaded := c.prototypesLoaded + prototypes }
  | .rejected _ => { c with chunksRejected := c.chunksRejected + 1 }
  | _ => c

/-- The counters after a chunk has been written to its end. -/
def afterDump (c : Counters) : Counters :=
  { c with chunksDumped := c.chunksDumped + 1 }

end Counters

end LuaChunk
