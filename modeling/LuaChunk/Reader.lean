import LuaChunk.LoadError
import LuaChunk.Instruction

/-!
# Reading a buffer front to back

A reader stands somewhere in a buffer and moves only forwards. Reads that take one piece fail
without moving when too few bytes are left; a read of several parts keeps the parts that it has
taken.

A reader also notes what it has found on the way: the contents of string constants and the function
records read to their end, in the order in which they were read. The notes remain when a later read
fails.

## Key results

* `bind_eq_ok`, `bind_eq_error`   how a read of two parts succeeds and how it fails
* `raw_of_split?`                 what a successful read of `n` bytes returns, and where it stops
* `listOf_succ`                   reading a list is reading one entry, then the others
-/

namespace LuaChunk

/-- What is noted of a function record that was read to its end. -/
structure RecordSummary where
  /-- Where the record begins in the buffer. -/
  offset : Nat
  /-- How deep the function is nested; the main function has depth 0. -/
  depth : Nat
  lineDefined : Int32
  instructions : Nat
  constants : Nat
  deriving DecidableEq, Repr

/-- Something noted while reading. -/
inductive Finding
  /-- The content of a string constant. -/
  | string (content : Bytes)
  /-- A function record, read to its end. -/
  | record (summary : RecordSummary)
  deriving DecidableEq, Repr

/-- A position in a buffer, with what was noted on the way to it. -/
structure Reader where
  /-- How many bytes stand before the position. -/
  offset : Nat
  /-- The bytes from the position on. -/
  rest : Bytes
  findings : Array Finding
  deriving Repr

/-- A computation that reads: it moves a reader and gives a value or the cause of its failure. -/
abbrev Read := EStateM Cause Reader

namespace Reader

/-- A reader at the start of a buffer. -/
def ofBytes (bs : Bytes) : Reader :=
  ⟨0, bs, #[]⟩

/-- How many bytes are left. -/
def remaining (r : Reader) : Nat :=
  r.rest.length

/-- A reader `n` bytes further on, with `rest` left. -/
def advance (r : Reader) (n : Nat) (rest : Bytes) : Reader :=
  { r with offset := r.offset + n, rest }

/-- The contents of the string constants read so far. -/
def strings (r : Reader) : List Bytes :=
  r.findings.toList.filterMap fun
    | .string content => some content
    | .record _ => none

/-- The function records read to their end so far. -/
def records (r : Reader) : List RecordSummary :=
  r.findings.toList.filterMap fun
    | .string _ => none
    | .record summary => some summary

end Reader

namespace Read

/-! ### Reading one thing after another -/

/-- Two reads in a row succeed if the first does and the second does from where the first
stopped. -/
theorem bind_eq_ok {α β : Type} {x : Read α} {f : α → Read β} {r r' : Reader} {b : β} :
    (x >>= f) r = .ok b r' ↔ ∃ a between, x r = .ok a between ∧ f a between = .ok b r' := by
  simp only [bind, EStateM.bind]
  cases x r <;> simp [and_assoc]

/-- Two reads in a row fail if the first does, or if the second does from where the first
stopped. -/
theorem bind_eq_error {α β : Type} {x : Read α} {f : α → Read β} {r r' : Reader} {cause : Cause} :
    (x >>= f) r = .error cause r' ↔
      x r = .error cause r' ∨ ∃ a between, x r = .ok a between ∧ f a between = .error cause r' := by
  simp only [bind, EStateM.bind]
  cases x r <;> simp [and_assoc]

/-! ### Raw bytes -/

/-- Fails for want of bytes. -/
def underrun {α : Type} (requested : Nat) : Read α :=
  fun r => .error (.bufferUnderrun requested r.remaining) r

/-- Fails unless `n` bytes are left. -/
def ensure (n : Nat) : Read Unit := fun r =>
  if Bytes.hasAtLeast n r.rest then .ok () r else underrun n r

/-- Reads `n` bytes. -/
def raw (n : Nat) : Read Bytes := fun r =>
  match Bytes.split? n r.rest with
  | some (front, back) => .ok front (r.advance n back)
  | none => underrun n r

/-- Reads `n` bytes, or as many as are left. -/
def upTo (n : Nat) : Read Bytes := fun r =>
  let front := r.rest.take n
  .ok front (r.advance front.length (r.rest.drop n))

/-- Raw bytes are read where they can be cut off. -/
theorem raw_of_split? {n : Nat} {r : Reader} {front back : Bytes}
    (h : Bytes.split? n r.rest = some (front, back)) :
    raw n r = .ok front (r.advance n back) := by
  simp [raw, h]

/-- Raw bytes that are not there are missed where the reader stands, and it stays there. -/
theorem raw_of_length_lt {n : Nat} {r : Reader} (h : r.rest.length < n) :
    raw n r = .error (.bufferUnderrun n r.rest.length) r := by
  simp [raw, Bytes.split?_eq_none_iff.2 h, underrun, Reader.remaining]

/-! ### Fixed-width values -/

/-- Where the reader stands. -/
def offset : Read Nat := fun r => .ok r.offset r

/-- Reads one byte. -/
def byte : Read UInt8 := fun r =>
  match r.rest with
  | b :: rest => .ok b (r.advance 1 rest)
  | [] => underrun 1 r

/-- Reads a byte as a truth value: any but zero is true. -/
def truth : Read Bool := do
  return (← byte) != 0

/-- Reads a number of `width` bytes, least significant first. -/
def nat (width : Nat) : Read Nat := do
  return Bytes.leValue (← raw width)

/-- Reads a signed number of four bytes: a line or an instruction index. -/
def int : Read Int32 := do
  return .ofNat (← nat 4)

/-- Reads an unsigned number of eight bytes: the size of a long string. -/
def sizeT : Read Nat :=
  nat 8

/-- Reads an integer constant, which a chunk holds in four bytes. -/
def integer : Read Int64 := do
  return (← int).toInt64

/-- Reads a floating-point number. -/
def number : Read Binary64 := do
  return ⟨.ofNat (← nat 8)⟩

/-- Reads an instruction word. -/
def instruction : Read Instruction := do
  return ⟨.ofNat (← nat 4)⟩

/-! ### Counted and sized values -/

/-- The largest number of bytes that a read can ask for. -/
def maxRequest : Nat := 1 <<< 64 - 1

/-- Reads how many entries follow, unsigned. If asked to check, fails at once when the rest of the
buffer cannot hold them, an entry taking `entrySize` bytes at the least. -/
def count (check : Bool) (entrySize : Nat) : Read Nat := do
  let n ← nat 4
  -- the product may be larger than anything that can be asked for
  if check then ensure (min (n * entrySize) maxRequest)
  return n

/-- Reads a string. Its size comes first, one more than its length: in one byte, or after the byte
`FF` in eight. A size of zero stands for the absence of a string. -/
def string : Read (Option Bytes) := do
  let short ← byte
  let size ← if short = 0xFF then sizeT else pure short.toNat
  if size = 0 then return none
  return some (← raw (size - 1))

/-- Reads `n` entries in front of those already read, which stand in reverse. -/
def listOfFrom {α : Type} (entry : Read α) : Nat → List α → Read (List α)
  | 0, done => return done.reverse
  | n + 1, done => do listOfFrom entry n ((← entry) :: done)

/-- Reads a list of `n` entries. -/
def listOf {α : Type} (n : Nat) (entry : Read α) : Read (List α) :=
  listOfFrom entry n []

/-- Entries that were read before come in front of those that are read. -/
theorem listOfFrom_eq {α : Type} (entry : Read α) (n : Nat) (done : List α) :
    listOfFrom entry n done = (do return done.reverse ++ (← listOf n entry)) := by
  induction n generalizing done with
  | zero => simp [listOf, listOfFrom]
  | succ n ih =>
    simp only [listOf, listOfFrom]
    -- both sides bring out the entries already read, so that the rest is the same list
    simp only [ih (_ :: done), ih [_], bind_assoc, pure_bind, List.reverse_cons, List.append_assoc,
      List.reverse_nil, List.nil_append]

@[simp] theorem listOf_zero {α : Type} (entry : Read α) : listOf 0 entry = pure [] :=
  rfl

/-- A list is read entry by entry, first to last. -/
theorem listOf_succ {α : Type} (entry : Read α) (n : Nat) :
    listOf (n + 1) entry = (do
      let x ← entry
      let xs ← listOf n entry
      return x :: xs) := by
  simp only [listOf, listOfFrom]
  simp only [listOfFrom_eq entry n [_], listOf, List.reverse_cons, List.reverse_nil,
    List.nil_append, List.singleton_append]

/-- Reads a count and that many entries. -/
def counted {α : Type} (check : Bool) (entrySize : Nat) (entry : Read α) : Read (List α) := do
  listOf (← count check entrySize) entry

/-- Notes a finding. -/
def note (finding : Finding) : Read Unit := fun r =>
  .ok () { r with findings := r.findings.push finding }

end Read

end LuaChunk
