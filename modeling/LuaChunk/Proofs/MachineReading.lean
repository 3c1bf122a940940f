import LuaChunk.Proofs.Machine
import LuaChunk.Proofs.Steps

/-!
# Reading on a machine

A machine holds a buffer whole, reads slices of it at an offset, and counts with numbers of a fixed
width. This file has the reads of this library in that form: every slice, index, sum and difference
is one of the operations that can be undefined, and a read that comes to an undefined one stops
there.

None does. On a cursor inside its buffer every read on a machine follows the read of the same name,
which knows of no undefined operation, step by step to the same end. The depth of nested functions
stays within its width as well, whatever the limit: a function at depth `d` begins behind at least
`d` bytes of the functions around it.

## Key results

* `Follows.bind`        reads in a row follow reads in a row
* `raw_follows`         a slice that is read stays inside the buffer
* `string_follows`      a string takes at least one byte
* `prototype_follows`   a function that is nested to some depth begins at no smaller offset
* `closure_follows`     no step of reading a chunk is undefined
-/

namespace LuaChunk

/-- A position in a buffer that is held whole, with what was noted on the way to it. -/
structure Cursor where
  buffer : Bytes
  offset : Nat
  findings : Array Finding

namespace Cursor

/-- A cursor at the start of a buffer. -/
def ofBytes (bs : Bytes) : Cursor :=
  ⟨bs, 0, #[]⟩

/-- The reader at the same position. -/
def reader (c : Cursor) : Reader :=
  ⟨c.offset, c.buffer.drop c.offset, c.findings⟩

/-- A cursor `n` bytes further on. -/
def advance (c : Cursor) (n : Nat) : Cursor :=
  { c with offset := c.offset + n }

/-- Whether a cursor stands inside its buffer or at its end, and the buffer is one that memory can
hold. -/
structure Inside (c : Cursor) : Prop where
  offset_le : c.offset ≤ c.buffer.length
  length_lt : c.buffer.length < 2 ^ 63

variable {c : Cursor}

/-- Moving a cursor on moves its reader on. -/
theorem reader_advance (c : Cursor) (n : Nat) :
    (c.advance n).reader = c.reader.advance n (c.reader.rest.drop n) := by
  simp only [reader, advance, Reader.advance, List.drop_drop]

namespace Inside

/-- What has been read and what is left are the whole buffer. -/
theorem offset_add_remaining (h : c.Inside) : c.offset + c.reader.remaining = c.buffer.length := by
  have hle := h.offset_le
  simp only [Reader.remaining, reader, List.length_drop]
  omega

/-- Inside a buffer the difference is defined that tells what is left. -/
theorem sub?_offset (h : c.Inside) :
    Machine.sub? c.buffer.length c.offset = some c.reader.remaining := by
  rw [Machine.sub?_of_le h.offset_le, Reader.remaining, reader, List.length_drop]

/-- A cursor moved on by what is left at the most is still inside. -/
theorem advance (h : c.Inside) {n : Nat} (hn : n ≤ c.reader.remaining) :
    (c.advance n).Inside where
  offset_le := by
    have hsum := h.offset_add_remaining
    show c.offset + n ≤ c.buffer.length
    omega
  length_lt := h.length_lt

end Inside

end Cursor

/-- Why a read on a machine stops. -/
inductive Stop
  /-- The chunk is rejected. -/
  | rejected (cause : Cause)
  /-- There is no next step: a slice or an index is out of bounds, or a number too wide. -/
  | undefined

/-- A computation that reads on a machine. -/
abbrev MachineRead := EStateM Stop Cursor

namespace MachineRead

open Machine

/-! ### Raw bytes -/

/-- Goes on with the result of an operation if it has one. -/
def defined {α : Type} (x : Option α) : MachineRead α := fun c =>
  match x with
  | some a => .ok a c
  | none => .error .undefined c

/-- Rejects the chunk. -/
def reject {α : Type} (cause : Cause) : MachineRead α :=
  throw (.rejected cause)

/-- Where the cursor stands. -/
def offset : MachineRead Nat := fun c => .ok c.offset c

/-- How many bytes are left. -/
def remaining : MachineRead Nat := fun c =>
  defined (sub? c.buffer.length c.offset) c

/-- Fails unless `n` bytes are left. -/
def ensure (n : Nat) : MachineRead Unit := do
  let left ← remaining
  if left < n then reject (.bufferUnderrun n left)

/-- The slice of the next `n` bytes. -/
def take (n : Nat) : MachineRead Bytes := fun c =>
  let read : MachineRead Bytes := do
    let stop ← defined (unsigned? (c.offset + n))
    let front ← defined (slice? c.buffer c.offset stop)
    set { c with offset := stop }
    return front
  read c

/-- Reads `n` bytes. -/
def raw (n : Nat) : MachineRead Bytes := do
  ensure n
  take n

/-- Reads `n` bytes, or as many as are left. -/
def upTo (n : Nat) : MachineRead Bytes := do
  let left ← remaining
  take (min n left)

/-! ### Values, strings and sequences -/

/-- Reads one byte. -/
def byte : MachineRead UInt8 := do
  let bytes ← raw 1
  defined bytes[0]?

/-- Reads a byte as a truth value. -/
def truth : MachineRead Bool := do
  return (← byte) != 0

/-- Reads a number of `width` bytes. -/
def nat (width : Nat) : MachineRead Nat := do
  let bytes ← raw width
  defined (leValue? width bytes)

/-- Reads a signed number of four bytes. -/
def int : MachineRead Int32 := do
  return .ofNat (← nat 4)

/-- Reads an integer constant. -/
def integer : MachineRead Int64 := do
  return (← int).toInt64

/-- Reads a floating-point number. -/
def number : MachineRead Binary64 := do
  return ⟨.ofNat (← nat 8)⟩

/-- Reads an instruction word and takes it apart. -/
def instruction : MachineRead Instruction := do
  let word ← nat 4
  defined (Instruction.decode? (.ofNat word))

/-- Reads how many entries follow. What they take at the least saturates at the largest number. -/
def count (check : Bool) (entrySize : Nat) : MachineRead Nat := do
  let n ← nat 4
  if check then ensure (min (n * entrySize) Read.maxRequest)
  return n

/-- Reads a string. -/
def string : MachineRead (Option Bytes) := do
  let short ← byte
  let size ← if short = 0xFF then nat 8 else pure short.toNat
  if size = 0 then return none
  let length ← defined (sub? size 1)
  return some (← raw length)

/-- Reads a list of `n` entries. -/
def listOf {α : Type} : Nat → MachineRead α → MachineRead (List α)
  | 0, _ => return []
  | n + 1, entry => do
    let x ← entry
    let xs ← listOf n entry
    return x :: xs

/-- Reads a count and that many entries. -/
def counted {α : Type} (check : Bool) (entrySize : Nat) (entry : MachineRead α) :
    MachineRead (List α) := do
  listOf (← count check entrySize) entry

/-- Notes a finding. -/
def note (finding : Finding) : MachineRead Unit := fun c =>
  .ok () { c with findings := c.findings.push finding }

/-! ### Headers -/

/-- Reads a literal field and fails unless it is as expected. -/
def literal (field : LiteralField) : MachineRead Unit := do
  let actual ← upTo field.expected.length
  if actual ≠ field.expected then
    reject (.headerMismatch field field.expected actual)

/-- Reads the declared widths, each at its index. -/
def widths : MachineRead Header := do
  let sizes ← raw 5
  let int ← defined sizes[0]?
  let sizeT ← defined sizes[1]?
  let instruction ← defined sizes[2]?
  let integer ← defined sizes[3]?
  let number ← defined sizes[4]?
  return ⟨int, sizeT, instruction, integer, number⟩

/-- Fails with the first width that is not the standard one. -/
def checkWidths (declared : Header) : MachineRead Unit :=
  match WidthField.all.find? fun field => declared.width field != Header.standard.width field with
  | some field => reject (.sizeMismatch field (Header.standard.width field) (declared.width field))
  | none => return ()

/-- Reads and checks a header. -/
def header : MachineRead Header := do
  literal .signature
  literal .version
  literal .format
  literal .tail
  let declared ← widths
  checkWidths declared
  if (← integer) ≠ Header.sampleInteger then reject .endiannessMismatch
  if !(← number).numEq Header.sampleNumber then reject .floatFormatMismatch
  return declared

/-! ### Function records -/

/-- Reads a constant and notes its content if it is a string. -/
def constant : MachineRead (Constant Bytes) := do
  let tag ← byte
  if tag = Constant.nilTag then
    return .nil
  else if tag = Constant.booleanTag then
    return .boolean (← truth)
  else if tag = Constant.floatTag then
    return .float (← number)
  else if tag = Constant.integerTag then
    return .integer (← integer)
  else if tag = Constant.shortStringTag ∨ tag = Constant.longStringTag then
    let content := (← string).getD []
    note (.string content)
    return .string content
  else
    reject (.unrecognizedConstantTag tag)

/-- Reads where an upvalue is found. -/
def upvalue : MachineRead Upvalue := do
  let inStack ← truth
  let index ← byte
  return ⟨inStack, index, none⟩

/-- Reads a local variable. -/
def localVariable : MachineRead LocalVariable := do
  let name := (← string).getD []
  let startPc ← int
  let endPc ← int
  return ⟨name, startPc, endPc⟩

variable (options : ReadOptions)

/-- Reads the names of upvalues, no more than there are upvalues. -/
def upvalueNames (upvalues : List Upvalue) : MachineRead (List Upvalue) := do
  let names ← count options.checkCounts 1
  if names > upvalues.length then
    reject (.upvalueNameOverflow upvalues.length names)
  return Read.nameUpvalues upvalues (← listOf names string)

/-- Reads the record of a function nested to a given depth, and the records inside it. -/
def prototype (depth : Nat) : MachineRead (Prototype Bytes) :=
  if h : options.maxDepth < depth then reject (.nestingTooDeep options.maxDepth)
  else do
    let start ← offset
    let source ← string
    let lineDefined ← int
    let lastLineDefined ← int
    let numParams ← byte
    let isVararg ← truth
    let maxStackSize ← byte
    let code ← counted options.checkCounts 4 instruction
    let constants ← counted options.checkCounts 1 constant
    let upvalues ← counted options.checkCounts 2 upvalue
    let children ← counted options.checkCounts Read.minRecordSize do
      let _ ← defined (unsigned? (depth + 1))
      prototype (depth + 1)
    let lineInfo ← counted options.checkCounts 4 int
    let locals ← counted options.checkCounts 9 localVariable
    let upvalues ← upvalueNames options upvalues
    note (.record
      { offset := start
        depth
        lineDefined
        instructions := code.length
        constants := constants.length })
    return .node
      { source, lineDefined, lastLineDefined, numParams, isVararg, maxStackSize,
        code, constants, upvalues, lineInfo, locals }
      children
termination_by options.maxDepth + 1 - depth
decreasing_by omega

/-- Reads a chunk from its first byte on. -/
def closure : MachineRead (Closure Bytes) := do
  let _ ← header
  let declared ← byte
  let main ← prototype options 0
  let actual := main.record.upvalues.length
  if declared.toNat ≠ actual then
    reject (.upvalueCountMismatch declared.toNat actual)
  return ⟨declared, main.inheritSources none⟩

/-! ### Following a read -/

variable {α β : Type} {m n k : Nat} {c : Cursor}

/-- Whether a read on a machine ended as a read did: with the same value, inside the buffer at `n`
or behind it, or rejecting the chunk for the same cause. -/
inductive Agree (n : Nat) : EStateM.Result Stop Cursor α → EStateM.Result Cause Reader α → Prop
  | ok (a : α) {c : Cursor} (hc : c.Inside) (hn : n ≤ c.offset) : Agree n (.ok a c) (.ok a c.reader)
  | error (cause : Cause) (c : Cursor) :
    Agree n (.error (.rejected cause) c) (.error cause c.reader)

/-- From every cursor inside its buffer that stands at `m` or behind it, `x` takes the same course
as `y`, and no step of it is undefined; if it succeeds, the cursor then stands at `n` or behind. -/
def Follows (m n : Nat) (x : MachineRead α) (y : Read α) : Prop :=
  ∀ c : Cursor, c.Inside → m ≤ c.offset → Agree n (x c) (y c.reader)

/-- What has been taken may be forgotten. -/
theorem Follows.weaken {x : MachineRead α} {y : Read α} (h : Follows m (m + k) x y) :
    Follows m m x y := by
  intro c hc hm
  have hagree := h c hc hm
  generalize x c = result, y c.reader = result' at hagree ⊢
  cases hagree with
  | ok a hc hn => exact .ok a hc (Nat.le_of_add_right_le hn)
  | error cause c => exact .error cause c

/-- What is read second may depend on what was read first. -/
theorem Follows.bind_of_ok {x : MachineRead α} {y : Read α} {f : α → MachineRead β} {g : α → Read β}
    (hx : Follows m n x y) (hf : ∀ {r a r'}, y r = .ok a r' → Follows n k (f a) (g a)) :
    Follows m k (x >>= f) (y >>= g) := by
  intro c hc hm
  -- the two have read the first value alike, and go on alike or stop alike
  have hagree := hx c hc hm
  simp only [Bind.bind, EStateM.bind]
  generalize hy : y c.reader = result' at hagree ⊢
  generalize x c = result at hagree ⊢
  cases hagree with
  | ok a hc hn => exact hf hy _ hc hn
  | error cause c => exact .error cause c

/-- Reads in a row follow reads in a row. -/
theorem Follows.bind {x : MachineRead α} {y : Read α} {f : α → MachineRead β} {g : α → Read β}
    (hx : Follows m n x y) (hf : ∀ a, Follows n k (f a) (g a)) : Follows m k (x >>= f) (y >>= g) :=
  hx.bind_of_ok fun _ => hf _

/-- To give a value takes the same course on a machine. -/
theorem pure_follows (a : α) : Follows m m (pure a) (pure a) :=
  fun _ hc hm => .ok a hc hm

/-- To reject a chunk takes the same course on a machine. -/
theorem reject_follows (cause : Cause) : Follows m n (reject cause : MachineRead α) (throw cause) :=
  fun c _ _ => .error cause c

/-- A read whose value is changed follows one whose value is changed in the same way. -/
theorem Follows.map {x : MachineRead α} {y : Read α} (h : Follows m n x y) (f : α → β) :
    Follows m n (do return f (← x)) (do return f (← y)) :=
  h.bind fun a => pure_follows (f a)

/-- A choice follows the same choice. -/
theorem Follows.ite {p : Prop} [Decidable p] {x x' : MachineRead α} {y y' : Read α}
    (h : p → Follows m n x y) (h' : ¬p → Follows m n x' y') :
    Follows m n (if p then x else x') (if p then y else y') := by
  by_cases hp : p
  · rw [if_pos hp, if_pos hp]
    exact h hp
  · rw [if_neg hp, if_neg hp]
    exact h' hp

/-- An operation that has a result goes on with it. -/
theorem defined_some_bind (a : α) (f : α → MachineRead β) : defined (some a) >>= f = f a :=
  rfl

/-- An operation that is defined goes on without a step of the other read. -/
theorem Follows.defined_bind {x : Option α} {a : α} {f : α → MachineRead β} {y : Read β}
    (hx : x = some a) (hf : Follows m n (f a) y) : Follows m n (defined x >>= f) y := by
  rwa [hx, defined_some_bind]

/-- Reading entries one after the other follows the same, if an entry leaves the cursor no less far
on. -/
theorem Follows.listOf {x : MachineRead α} {y : Read α} (h : Follows m m x y) (n : Nat) :
    Follows m m (listOf n x) (Read.listOf n y) := by
  induction n with
  | zero => exact pure_follows []
  | succ n ih =>
    rw [Read.listOf_succ]
    exact h.bind fun _ => ih.map _

/-! ### Raw bytes -/

/-- Inside a buffer it is defined how much is left. -/
theorem remaining_eq (hc : c.Inside) : remaining c = .ok c.reader.remaining c := by
  rw [remaining, hc.sub?_offset]
  rfl

/-- The check for `n` bytes is defined, and fails if fewer are left. -/
theorem ensure_eq (hc : c.Inside) (n : Nat) :
    ensure n c = if c.reader.remaining < n then
      .error (.rejected (.bufferUnderrun n c.reader.remaining)) c else .ok () c := by
  simp only [ensure, Bind.bind, EStateM.bind, remaining_eq hc]
  split <;> rfl

/-- A slice of what is left ends inside the buffer, and the length of that is a number that the
machine has. -/
theorem take_eq (hc : c.Inside) {n : Nat} (hn : n ≤ c.reader.remaining) :
    take n c = .ok (c.reader.rest.take n) (c.advance n) := by
  have hsum := hc.offset_add_remaining
  have hlength := hc.length_lt
  have hstop : unsigned? (c.offset + n) = some (c.offset + n) := unsigned?_of_lt (by omega)
  have hslice : slice? c.buffer c.offset (c.offset + n) = some _ := slice?_of_le (by omega)
  rw [take, hstop, defined_some_bind, hslice]
  rfl

-- without a look at what is left the slice can be out of bounds
example : take 1 (.ofBytes []) = .error .undefined (.ofBytes []) :=
  rfl

/-- A check for some bytes takes the same course on a machine. -/
theorem ensure_follows (n : Nat) : Follows m m (ensure n) (Read.ensure n) := by
  intro c hc hm
  rw [ensure_eq hc, Read.ensure]
  by_cases hn : n ≤ c.reader.remaining
  -- the bytes are left
  · rw [if_neg (Nat.not_lt.2 hn), if_pos (Bytes.hasAtLeast_iff.2 hn)]
    exact .ok () hc hm
  -- they are not, and both reject the chunk
  · rw [if_pos (Nat.not_le.1 hn), if_neg (mt Bytes.hasAtLeast_iff.1 hn)]
    exact .error _ c

/-- A slice that is read stays inside the buffer, and takes its bytes. -/
theorem raw_follows (n : Nat) : Follows m (m + n) (raw n) (Read.raw n) := by
  intro c hc hm
  simp only [raw, Bind.bind, EStateM.bind, ensure_eq hc]
  by_cases hn : n ≤ c.reader.remaining
  -- the slice is there, and is what stands in front of the rest
  · have hsplit : Bytes.split? n c.reader.rest = some _ := if_pos (Bytes.hasAtLeast_iff.2 hn)
    rw [if_neg (Nat.not_lt.2 hn), Read.raw_of_split? hsplit, ← Cursor.reader_advance]
    simp only [take_eq hc hn]
    exact .ok _ (hc.advance hn) (Nat.add_le_add_right hm n)
  -- it is not, and the check has told so before the slice is taken
  · have hlt : c.reader.remaining < n := Nat.not_le.1 hn
    rw [if_pos hlt, Read.raw_of_length_lt hlt]
    exact .error _ c

/-- A slice of what is left at the most is always there. -/
theorem upTo_follows (n : Nat) : Follows m m (upTo n) (Read.upTo n) := by
  intro c hc hm
  have hn : min n c.reader.remaining ≤ c.reader.remaining := Nat.min_le_right ..
  -- a slice of `min n` entries is never beyond the end
  have hupTo : upTo n c = .ok (c.reader.rest.take n) (c.advance (min n c.reader.remaining)) := by
    simp only [upTo, Bind.bind, EStateM.bind, remaining_eq hc, take_eq hc hn]
    rw [Reader.remaining, ← List.take_eq_take_min]
  -- both stand behind it
  have hreader : c.reader.advance (c.reader.rest.take n).length (c.reader.rest.drop n) =
      (c.advance (min n c.reader.remaining)).reader := by
    rw [Cursor.reader_advance, List.length_take, List.drop_eq_drop_min, Reader.remaining]
  rw [hupTo, Read.upTo, hreader]
  exact .ok _ (hc.advance hn) (Nat.le_add_right_of_le hm)

/-! ### Values, strings and sequences -/

/-- A byte is the first entry of a slice of one. -/
theorem byte_eq_raw : Read.byte = (do return (← Read.raw 1)[0]?.getD 0) := by
  funext ⟨start, rest, findings⟩
  cases rest <;> rfl

/-- A slice of one byte has a first entry. -/
theorem byte_follows : Follows m (m + 1) byte Read.byte := by
  rw [byte_eq_raw]
  refine (raw_follows 1).bind_of_ok fun {r bytes r'} hraw => ?_
  obtain ⟨b, rfl⟩ := List.length_eq_one_iff.1 (Read.raw_eq_ok hraw).1
  exact pure_follows b

/-- A truth value is a byte. -/
theorem truth_follows : Follows m (m + 1) truth Read.truth :=
  byte_follows.map _

/-- A slice of `width` bytes holds a number of that width. -/
theorem nat_follows (width : Nat) : Follows m (m + width) (nat width) (Read.nat width) := by
  refine (raw_follows width).bind_of_ok fun {r bs r'} hraw => ?_
  obtain ⟨rfl, -⟩ := Read.raw_eq_ok hraw
  exact fun c hc hm => by
    rw [leValue?_length]
    exact .ok _ hc hm

/-- A signed number is a number of four bytes. -/
theorem int_follows : Follows m m int Read.int :=
  (nat_follows 4).weaken.map _

/-- An integer constant is a signed number. -/
theorem integer_follows : Follows m m integer Read.integer :=
  int_follows.map _

/-- A floating-point number is a number of eight bytes. -/
theorem number_follows : Follows m m number Read.number :=
  (nat_follows 8).weaken.map _

/-- Every word that is read can be taken apart. -/
theorem instruction_follows : Follows m m instruction Read.instruction :=
  (nat_follows 4).weaken.bind fun word c hc hm => by
    rw [Instruction.decode?_eq]
    exact .ok _ hc hm

/-- A count and its check take the same course on a machine. -/
theorem count_follows (check : Bool) (entrySize : Nat) :
    Follows m m (count check entrySize) (Read.count check entrySize) := by
  refine (nat_follows 4).weaken.bind fun n => ?_
  cases check with
  | false => exact pure_follows n
  | true => exact (ensure_follows _).bind fun _ => pure_follows n

/-- A counted sequence follows one of the same entries. -/
theorem Follows.counted {x : MachineRead α} {y : Read α} (h : Follows m m x y) (check : Bool)
    (entrySize : Nat) :
    Follows m m (counted check entrySize x) (Read.counted check entrySize y) :=
  (count_follows check entrySize).bind h.listOf

/-- A string takes at least one byte. -/
theorem string_follows : Follows m (m + 1) string Read.string := by
  have hcontent : ∀ size : Nat, Follows (m + 1) (m + 1)
      (if size = 0 then pure none else do
        let length ← defined (sub? size 1)
        return some (← raw length))
      (if size = 0 then pure none else do return some (← Read.raw (size - 1))) := by
    refine fun size => .ite (fun _ => pure_follows none) fun hsize => ?_
    -- a size of zero has been told apart before one is taken from it
    refine .defined_bind (sub?_of_le (Nat.one_le_iff_ne_zero.2 hsize)) ?_
    exact (raw_follows _).weaken.map some
  -- a size in one byte, or in eight bytes behind the byte `FF`
  refine byte_follows.bind fun short => ?_
  exact .ite (fun _ => (nat_follows 8).weaken.bind hcontent) fun _ =>
    (pure_follows _).bind hcontent

/-- The cursor stands where the reader stands. -/
theorem offset_follows : Follows m m offset Read.offset :=
  fun c hc hm => .ok c.offset hc hm

/-- A note takes the same course on a machine. -/
theorem note_follows (finding : Finding) : Follows m m (note finding) (Read.note finding) :=
  fun c hc hm => .ok () (c := { c with findings := _ }) ⟨hc.offset_le, hc.length_lt⟩ hm

/-! ### Headers -/

/-- A literal is compared in the same way on a machine. -/
theorem literal_follows (field : LiteralField) : Follows m m (literal field) (Read.literal field) :=
  (upTo_follows _).bind fun _ => .ite (fun _ => reject_follows _) fun _ => pure_follows ()

/-- Widths are the five entries of one slice. -/
theorem widths_eq_raw : Read.widths = (do
    let sizes ← Read.raw 5
    return ⟨sizes[0]?.getD 0, sizes[1]?.getD 0, sizes[2]?.getD 0, sizes[3]?.getD 0,
      sizes[4]?.getD 0⟩) := by
  funext ⟨start, rest, findings⟩
  rcases rest with _ | ⟨_, _ | ⟨_, _ | ⟨_, _ | ⟨_, _ | ⟨_, rest⟩⟩⟩⟩⟩ <;> rfl

/-- Widths are five entries of a slice of five. -/
theorem widths_follows : Follows m m widths Read.widths := by
  rw [widths_eq_raw]
  refine (raw_follows 5).weaken.bind_of_ok fun {r sizes r'} hraw => ?_
  have hlength : sizes.length = 5 := (Read.raw_eq_ok hraw).1
  -- each index is one of the slice
  have hget : ∀ i, i < 5 → sizes[i]? = some (sizes[i]?.getD 0) := fun i hi => by
    rw [List.getElem?_eq_getElem (hlength ▸ hi)]
    rfl
  exact .defined_bind (hget 0 (by decide)) <| .defined_bind (hget 1 (by decide)) <|
    .defined_bind (hget 2 (by decide)) <| .defined_bind (hget 3 (by decide)) <|
    .defined_bind (hget 4 (by decide)) <| pure_follows _

/-- Widths are compared in the same way on a machine. -/
theorem checkWidths_follows (declared : Header) :
    Follows m m (checkWidths declared) (Read.checkWidths declared) := by
  unfold checkWidths Read.checkWidths
  cases WidthField.all.find? fun field => declared.width field != Header.standard.width field with
  | some field => exact reject_follows _
  | none => exact pure_follows ()

/-- A header takes the same course on a machine. -/
theorem header_follows : Follows m m header Read.header := by
  refine (literal_follows _).bind fun _ => (literal_follows _).bind fun _ =>
    (literal_follows _).bind fun _ => (literal_follows _).bind fun _ =>
    widths_follows.bind fun declared => (checkWidths_follows declared).bind fun _ =>
    integer_follows.bind fun i => ?_
  -- the second sample, with which both readings of the first go on
  have hnumber : Follows m m
      (do
        if !(← number).numEq Header.sampleNumber then reject .floatFormatMismatch
        return declared)
      (do
        if !(← Read.number).numEq Header.sampleNumber then throw .floatFormatMismatch
        return declared) :=
    number_follows.bind fun x =>
      .ite (fun _ => (reject_follows (n := m) _).bind fun _ => pure_follows _) fun _ =>
        pure_follows _
  exact .ite (fun _ => (reject_follows (n := m) _).bind fun _ => hnumber) fun _ => hnumber

/-! ### Function records -/

/-- A constant takes the same course on a machine. -/
theorem constant_follows : Follows m m constant Read.constant := by
  -- tag by tag, in the order in which they are tried
  refine byte_follows.weaken.bind fun tag => .ite (fun _ => pure_follows _) fun _ => ?_
  refine .ite (fun _ => truth_follows.weaken.map _) fun _ => ?_
  refine .ite (fun _ => number_follows.map _) fun _ => ?_
  refine .ite (fun _ => integer_follows.map _) fun _ => ?_
  refine .ite (fun _ => ?_) fun _ => reject_follows _
  exact string_follows.weaken.bind fun _ => (note_follows _).bind fun _ => pure_follows _

/-- An upvalue takes the same course on a machine. -/
theorem upvalue_follows : Follows m m upvalue Read.upvalue :=
  truth_follows.weaken.bind fun _ => byte_follows.weaken.map _

/-- A local variable takes the same course on a machine. -/
theorem localVariable_follows : Follows m m localVariable Read.localVariable :=
  string_follows.weaken.bind fun _ => int_follows.bind fun _ => int_follows.map _

/-- Names of upvalues are counted and read in the same way on a machine. -/
theorem upvalueNames_follows (options : ReadOptions) (upvalues : List Upvalue) :
    Follows m m (upvalueNames options upvalues) (Read.upvalueNames options upvalues) := by
  refine (count_follows _ 1).bind fun names => ?_
  have hname : Follows m m string Read.string := string_follows.weaken
  have hnames := (hname.listOf names).map (Read.nameUpvalues upvalues)
  exact .ite (fun _ => (reject_follows (n := m) _).bind fun _ => hnames) fun _ => hnames

/-- A function at some depth begins at no smaller offset, since every function around it has taken
a byte. The depth of the functions inside it is therefore a number that the machine has, even if the
limit is the largest one. -/
theorem prototype_follows (options : ReadOptions) {room depth : Nat}
    (hdepth : depth + room = options.maxDepth + 1) :
    Follows depth depth (prototype options depth) (Read.prototype options room) := by
  induction room generalizing depth with
  | zero =>
    rw [prototype, dif_pos (by omega)]
    exact reject_follows _
  | succ room ih =>
    -- the depth of a child is no larger than its offset, which is no larger than the buffer
    have hchild : Follows (depth + 1) (depth + 1)
        (do
          let _ ← defined (unsigned? (depth + 1))
          prototype options (depth + 1))
        (Read.prototype options room) := by
      intro c hc hm
      have hle := hc.offset_le
      have hlt := hc.length_lt
      have hword : unsigned? (depth + 1) = some (depth + 1) := unsigned?_of_lt (by omega)
      have hroom : depth + 1 + room = options.maxDepth + 1 := by omega
      exact Follows.defined_bind (f := fun _ => prototype options (depth + 1)) hword (ih hroom) c hc
        hm
    have hsame : options.maxDepth - room = depth := by omega
    rw [prototype, dif_neg (by omega), Read.prototype, hsame]
    -- the record takes at least a byte more than its depth asks for, which is not needed behind it
    refine Follows.weaken (k := 1) ?_
    -- the fields in the order in which they are read
    exact offset_follows.bind fun _ => string_follows.bind fun _ =>
      int_follows.bind fun _ => int_follows.bind fun _ => byte_follows.weaken.bind fun _ =>
      truth_follows.weaken.bind fun _ => byte_follows.weaken.bind fun _ =>
      (instruction_follows.counted _ 4).bind fun _ => (constant_follows.counted _ 1).bind fun _ =>
      (upvalue_follows.counted _ 2).bind fun _ =>
      (hchild.counted _ Read.minRecordSize).bind fun _ => (int_follows.counted _ 4).bind fun _ =>
      (localVariable_follows.counted _ 9).bind fun _ =>
      (upvalueNames_follows options _).bind fun _ => (note_follows _).bind fun _ =>
      pure_follows _

/-- No step of reading a chunk is undefined. -/
theorem closure_follows (options : ReadOptions) :
    Follows 0 0 (closure options) (Read.closure options) :=
  header_follows.bind fun _ => byte_follows.weaken.bind fun _ =>
    (prototype_follows options (Nat.zero_add _)).bind fun _ =>
    .ite (fun _ => (reject_follows (n := 0) _).bind fun _ => pure_follows _) fun _ =>
      pure_follows _

end MachineRead

end LuaChunk
