/-!
# Byte strings

A chunk, a string constant and a name are all byte strings. This file holds what the rest of the
library does with them: cutting a fixed number of bytes off the front, and the little-endian reading
of a fixed-width field.

## Key results

* `split?_eq_some_iff`   a cut succeeds exactly on `front ++ back` with `front` of the asked length
* `leValue_leBytes`      a field of `width` bytes holds the lowest `8 * width` bits of a number
* `leBytes_leValue`      the bytes of a field are determined by its number and its width
-/

namespace LuaChunk

/-- A byte string, first byte first. -/
abbrev Bytes := List UInt8

namespace Bytes

/-! ### Cutting off the front -/

/-- Whether a byte string has `n` bytes or more; looks at no more than `n` of them. -/
def hasAtLeast : Nat → Bytes → Bool
  | 0, _ => true
  | _ + 1, [] => false
  | n + 1, _ :: bs => hasAtLeast n bs

/-- The check that looks at few bytes says what the length says. -/
@[simp] theorem hasAtLeast_iff {n : Nat} {bs : Bytes} : hasAtLeast n bs = true ↔ n ≤ bs.length := by
  induction n generalizing bs with
  | zero => simp [hasAtLeast]
  | succ n ih => cases bs <;> simp [hasAtLeast, ih]

/-- The first `n` bytes and the bytes after them, if there are that many. -/
def split? (n : Nat) (bs : Bytes) : Option (Bytes × Bytes) :=
  if hasAtLeast n bs then some (bs.take n, bs.drop n) else none

/-- A cut succeeds on a front of the asked length and whatever follows it, and on nothing else. -/
theorem split?_eq_some_iff {n : Nat} {bs front back : Bytes} :
    split? n bs = some (front, back) ↔ bs = front ++ back ∧ front.length = n := by
  simp only [split?, hasAtLeast_iff]
  constructor
  · intro h
    split at h
    -- there are enough bytes, and the front is as long as it was asked to be
    · simp only [Option.some.injEq, Prod.mk.injEq] at h
      obtain ⟨rfl, rfl⟩ := h
      simp; omega
    · simp at h
  -- conversely, the front is long enough for the check
  · rintro ⟨rfl, rfl⟩
    simp

/-- A cut fails for want of bytes only. -/
theorem split?_eq_none_iff {n : Nat} {bs : Bytes} : split? n bs = none ↔ bs.length < n := by
  simp [split?]

/-- What was put in front of a byte string is cut off again. -/
@[simp] theorem split?_append (front back : Bytes) :
    split? front.length (front ++ back) = some (front, back) :=
  split?_eq_some_iff.2 ⟨rfl, rfl⟩

/-! ### Little-endian fields -/

/-- The number whose base-256 digits are `bs`, least significant first. -/
def leValue : Bytes → Nat
  | [] => 0
  | b :: bs => b.toNat + 256 * leValue bs

/-- The lowest `width` base-256 digits of a number, least significant first. -/
def leBytes : Nat → Nat → Bytes
  | 0, _ => []
  | width + 1, n => UInt8.ofNat n :: leBytes width (n / 256)

@[simp] theorem length_leBytes (width n : Nat) : (leBytes width n).length = width := by
  induction width generalizing n with
  | zero => rfl
  | succ width ih => simp [leBytes, ih]

/-- One byte more is eight bits more. -/
private theorem bits_succ (width : Nat) : 1 <<< (8 * (width + 1)) = 256 * 1 <<< (8 * width) := by
  simp only [Nat.one_shiftLeft, Nat.mul_add, Nat.pow_add]
  omega

/-- The number in a field has no more bits than the field. -/
theorem leValue_lt (bs : Bytes) : leValue bs < 1 <<< (8 * bs.length) := by
  induction bs with
  | nil => decide
  | cons b bs ih =>
    have hb : b.toNat < 256 := b.toNat_lt
    simp only [leValue, List.length_cons, bits_succ]
    omega

/-- A field keeps the lowest bits of a number and loses the others. -/
theorem leValue_leBytes (width n : Nat) :
    leValue (leBytes width n) = n % (1 <<< (8 * width)) := by
  induction width generalizing n with
  | zero => simp [leBytes, leValue, Nat.mod_one]
  | succ width ih =>
    -- the lowest digit stands in front, and the others are the digits of the quotient
    rw [bits_succ, Nat.mod_mul]
    simp [leBytes, leValue, ih]

/-- No two fields of one width have the same number. -/
theorem leBytes_leValue (bs : Bytes) : leBytes bs.length (leValue bs) = bs := by
  induction bs with
  | nil => rfl
  | cons b bs ih =>
    have hb : b.toNat < 256 := b.toNat_lt
    -- the two halves of the number do not overlap, so that division takes them apart
    have hdiv : (b.toNat + 256 * leValue bs) / 256 = leValue bs := by omega
    have hmod : UInt8.ofNat (b.toNat + 256 * leValue bs) = b := by
      apply UInt8.toNat_inj.1
      simp only [UInt8.toNat_ofNat']
      omega
    simp only [List.length_cons, leBytes, leValue, hdiv, hmod, ih]

end Bytes

end LuaChunk
