import LuaChunk.Reader.Header

/-!
# Steps of a reader

The reads that can be asked of a reader one by one, as values. A step that fails leaves the reader
where it stopped, and the next step goes on from there.
-/

namespace LuaChunk

/-- One read. -/
inductive ReadStep
  | byte
  | int
  | sizeT
  | integer
  | number
  | instruction
  /-- A checked count of entries that take `entrySize` bytes at the least. -/
  | count (entrySize : Nat)
  | string
  | raw (n : Nat)
  | upTo (n : Nat)
  | ensure (n : Nat)
  | header
  deriving DecidableEq, Repr

/-- What a step reads. -/
inductive ReadValue
  | byte (value : UInt8)
  | int (value : Int32)
  | sizeT (value : Nat)
  | integer (value : Int64)
  | number (value : Binary64)
  | instruction (value : Instruction)
  | count (value : Nat)
  | string (value : Option Bytes)
  | bytes (value : Bytes)
  | nothing
  | header (value : Header)
  deriving DecidableEq, Repr

namespace ReadStep

/-- The read that a step stands for. -/
def read : ReadStep → Read ReadValue
  | byte => .byte <$> Read.byte
  | int => .int <$> Read.int
  | sizeT => .sizeT <$> Read.sizeT
  | integer => .integer <$> Read.integer
  | number => .number <$> Read.number
  | instruction => .instruction <$> Read.instruction
  | count entrySize => .count <$> Read.count true entrySize
  | string => .string <$> Read.string
  | raw n => .bytes <$> Read.raw n
  | upTo n => .bytes <$> Read.upTo n
  | ensure n => (fun _ => .nothing) <$> Read.ensure n
  | header => .header <$> Read.header

/-- What a step gives, and where the reader stands after it. -/
def run (step : ReadStep) (r : Reader) : Except Cause ReadValue × Reader :=
  match step.read r with
  | .ok value r => (.ok value, r)
  | .error cause r => (.error cause, r)

/-- The outcomes of several steps in order, each with the reader after it. -/
def runAll : List ReadStep → Reader → List (Except Cause ReadValue × Reader)
  | [], _ => []
  | step :: steps, r =>
    let result := step.run r
    result :: runAll steps result.2

end ReadStep

end LuaChunk
