import LuaChunk.Instruction
import Mathlib.Algebra.Group.Int.Defs
import Mathlib.Algebra.Group.Nat.Defs

/-!
# Operations of a machine

On a machine numbers have a width, and slices and indices have bounds. An operation that leaves the
width or the bounds has no result, and a program that comes to it panics. Here are those operations
that chunks are read, written and listed with, each with the condition under which it is defined.

Operations that mask, wrap, cast or saturate always have a result; of these only the cast to a
signed number needs a definition.

## Key results

* `slice?_of_le`, `sub?_of_le`   slices and differences within their bounds
* `signed?_of_bounds`            signed numbers within their width
* `decode?_eq`                   every word can be taken apart into its fields
-/

namespace LuaChunk

namespace Machine

/-! ### Numbers -/

/-- An unsigned number, which has 64 bits. -/
def unsigned? (n : Nat) : Option Nat :=
  if n < 2 ^ 64 then some n else none

/-- The difference of two unsigned numbers. -/
def sub? (m n : Nat) : Option Nat :=
  if n ≤ m then some (m - n) else none

/-- A signed number of `width` bits. -/
def signed? (width : Nat) (i : Int) : Option Int :=
  if -2 ^ (width - 1) ≤ i ∧ i < 2 ^ (width - 1) then some i else none

/-- An unsigned number cast to a signed one of as many bits. -/
def toSigned (n : Nat) : Int :=
  Int.bmod n (2 ^ 64)

/-- A number of 64 bits at the most is one that the machine has. -/
theorem unsigned?_of_lt {n : Nat} (h : n < 2 ^ 64) : unsigned? n = some n :=
  if_pos h

/-- The smaller number can be taken from the larger one. -/
theorem sub?_of_le {m n : Nat} (h : n ≤ m) : sub? m n = some (m - n) :=
  if_pos h

/-- A number in the range of a width is one that the machine has. -/
theorem signed?_of_bounds {width : Nat} {i : Int} (hle : -2 ^ (width - 1) ≤ i)
    (hlt : i < 2 ^ (width - 1)) : signed? width i = some i :=
  if_pos ⟨hle, hlt⟩

/-- A number below `2 ^ 63` keeps its value when it is cast. -/
theorem toSigned_of_lt {n : Nat} (h : n < 2 ^ 63) : toSigned n = n := by
  unfold toSigned
  rw [Int.bmod_eq_of_le] <;> omega

/-! ### Slices -/

/-- The entries from `start` up to `stop`. -/
def slice? {α : Type} (xs : List α) (start stop : Nat) : Option (List α) :=
  if start ≤ stop ∧ stop ≤ xs.length then some ((xs.take stop).drop start) else none

/-- The number whose bytes, least significant first, are the first `width`. -/
def leValue? (width : Nat) (bs : Bytes) : Option Nat :=
  if width ≤ bs.length then some (Bytes.leValue (bs.take width)) else none

/-- A slice that ends inside a list is defined. -/
theorem slice?_of_le {α : Type} {xs : List α} {start n : Nat} (h : start + n ≤ xs.length) :
    slice? xs start (start + n) = some ((xs.drop start).take n) := by
  rw [slice?, if_pos ⟨Nat.le_add_right start n, h⟩, List.drop_take, Nat.add_sub_cancel_left]

/-- All bytes of a list can be taken as a number. -/
theorem leValue?_length (bs : Bytes) : leValue? bs.length bs = some (Bytes.leValue bs) := by
  rw [leValue?, if_pos (Nat.le_refl _), List.take_length]

end Machine

/-! ### Instructions -/

namespace Instruction

/-- The bits of a word from position `low` on, `width` of them. A word can be shifted by less than
its width. -/
def field? (ins : Instruction) (low width : Nat) : Option Nat :=
  if low < 32 ∧ width < 32 then some (ins.field low width) else none

/-- An instruction with all its fields taken from its word, whatever its opcode. The signed operand
is a difference of two numbers of 32 bits. -/
def decode? (word : UInt32) : Option Instruction := do
  let ins : Instruction := ⟨word⟩
  let _opcode ← ins.field? 0 6
  let _a ← ins.field? 6 8
  let _b ← ins.field? 23 9
  let _c ← ins.field? 14 9
  let bx ← ins.field? 14 18
  let _ax ← ins.field? 6 26
  let _sbx ← Machine.signed? 32 (bx - bias)
  return ins

/-- A signed operand has 18 bits. -/
theorem sbx_bounds (ins : Instruction) : -2 ^ 17 ≤ ins.sbx ∧ ins.sbx ≤ 2 ^ 17 := by
  have hbx : ins.bx < 1 <<< 18 := ins.field_lt 14 18
  have hbias : bias = 131071 := rfl
  simp only [sbx, hbias]
  omega

/-- Every word can be taken apart into its fields. -/
theorem decode?_eq (word : UInt32) : decode? word = some ⟨word⟩ := by
  -- 18 bits are in the range of 32
  obtain ⟨hle, hlt⟩ := sbx_bounds ⟨word⟩
  have hsbx : Machine.signed? 32 ((⟨word⟩ : Instruction).field 14 18 - bias) = some _ :=
    Machine.signed?_of_bounds (Int.le_trans (by decide) hle) (Int.lt_of_le_of_lt hlt (by decide))
  simp [decode?, field?, hsbx]

end Instruction

end LuaChunk
