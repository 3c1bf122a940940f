import LuaChunk.Reader

/-!
# Checking the header of a chunk

The parts of a header are checked in the order in which they stand, and the first that differs is
the one that is reported. A literal that the buffer cuts short differs from what is expected; any
other part that is cut short is an underrun.
-/

namespace LuaChunk

namespace Read

/-- Reads a literal field and fails unless it is as expected. -/
def literal (field : LiteralField) : Read Unit := do
  let actual ← upTo field.expected.length
  if actual ≠ field.expected then
    throw (.headerMismatch field field.expected actual)

/-- Reads the declared widths. -/
def widths : Read Header := fun r =>
  match r.rest with
  | int :: sizeT :: instruction :: integer :: number :: rest =>
    .ok ⟨int, sizeT, instruction, integer, number⟩ (r.advance 5 rest)
  | _ => underrun 5 r

/-- Fails with the first width that is not the standard one. -/
def checkWidths (declared : Header) : Read Unit :=
  match WidthField.all.find? fun field => declared.width field != Header.standard.width field with
  | some field => throw (.sizeMismatch field (Header.standard.width field) (declared.width field))
  | none => return ()

/-- Reads and checks a header. -/
def header : Read Header := do
  literal .signature
  literal .version
  literal .format
  literal .tail
  let declared ← widths
  checkWidths declared
  if (← integer) ≠ Header.sampleInteger then throw .endiannessMismatch
  -- compared as numbers, which for this sample is bit by bit
  if !(← number).numEq Header.sampleNumber then throw .floatFormatMismatch
  return declared

end Read

end LuaChunk
