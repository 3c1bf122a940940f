import LuaChunk.Reader.Closure
import LuaChunk.StringTable
import LuaChunk.Telemetry

/-!
# Loading chunks

Loading reads a chunk and enters its string constants in a string table. The strings that were read
before a failure stay in the table.
-/

namespace LuaChunk

/-- How a chunk is loaded. -/
structure LoadOptions extends ReadOptions where
  /-- Whether line information, local variables and upvalue names are kept. -/
  keepDebug : Bool := true
  deriving DecidableEq, Repr

/-- What a load leaves behind. -/
structure LoadReport where
  outcome : Except LoadError (Closure StringHandle)
  /-- The string table with the chunk's strings. -/
  table : StringTable
  events : List Event

namespace StringTable

/-- The handle of a string that the table holds. -/
def handle (t : StringTable) (content : Bytes) : StringHandle :=
  (t.intern content).1

end StringTable

namespace Closure

/-- The closure with its strings as they stand in a chunk. -/
def contents (c : Closure StringHandle) : Closure Bytes :=
  c.map StringHandle.content

end Closure

/-- Loads a chunk; `name` only labels errors and events. -/
def load (options : LoadOptions) (table : StringTable) (name : String) (bytes : Bytes) :
    LoadReport :=
  let begun := Event.loading name bytes.length
  match Read.closure options.toReadOptions (Reader.ofBytes bytes) with
  | .ok stored reader =>
    let table := table.internAll reader.strings
    let kept := if options.keepDebug then stored else stored.dropDebug
    let trailing := if reader.remaining = 0 then [] else [Event.ignoring reader.remaining]
    { outcome := .ok (kept.map table.handle)
      table
      events := [begun] ++ reader.records.map .readFunction ++ trailing
        ++ [.loaded name kept.prototype.count] }
  | .error cause reader =>
    -- what was read before the failure is told of, and stays in the table
    let error := LoadError.ofCause name cause
    { outcome := .error error
      table := table.internAll reader.strings
      events := [begun] ++ reader.records.map .readFunction ++ [.rejected error] }

end LuaChunk
