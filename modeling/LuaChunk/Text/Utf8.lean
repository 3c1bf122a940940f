import LuaChunk.Bytes

/-!
# Reading bytes as text

Names and string constants are byte strings that need not be valid UTF-8. To show them they are read
as UTF-8 all the same: every well-formed sequence gives its character, and every longest run of
bytes that begins a sequence but does not complete one gives one replacement character.

The reading is a fold over the bytes. Its state is the text so far and the sequence that the last
bytes have begun.
-/

namespace LuaChunk.Utf8

/-- A sequence that has begun: the bits read so far, how many more bytes it takes, and the range in
which the next one must lie. -/
structure Sequence where
  value : Nat
  missing : Nat
  low : UInt8
  high : UInt8
  deriving Repr

/-- The sequence that a lead byte begins. The range of the second byte keeps out overlong forms,
surrogates and numbers past the last character. -/
def Sequence.ofLead? (b : UInt8) : Option Sequence :=
  if 0xC2 ≤ b ∧ b ≤ 0xDF then some ⟨b.toNat - 0xC0, 1, 0x80, 0xBF⟩
  else if b = 0xE0 then some ⟨0, 2, 0xA0, 0xBF⟩
  else if b = 0xED then some ⟨0xD, 2, 0x80, 0x9F⟩
  else if 0xE1 ≤ b ∧ b ≤ 0xEF then some ⟨b.toNat - 0xE0, 2, 0x80, 0xBF⟩
  else if b = 0xF0 then some ⟨0, 3, 0x90, 0xBF⟩
  else if 0xF1 ≤ b ∧ b ≤ 0xF3 then some ⟨b.toNat - 0xF0, 3, 0x80, 0xBF⟩
  else if b = 0xF4 then some ⟨4, 3, 0x80, 0x8F⟩
  else none

/-- The text read so far and the sequence that has begun, if any. -/
structure Progress where
  text : String
  pending : Option Sequence
  deriving Repr

/-- The character that stands for bytes that are no character. -/
def replacement : Char := '\ufffd'

namespace Progress

/-- Takes a byte where no sequence has begun. -/
def start (text : String) (b : UInt8) : Progress :=
  if b < 0x80 then ⟨text.push (Char.ofNat b.toNat), none⟩
  else match Sequence.ofLead? b with
    | some s => ⟨text, some s⟩
    | none => ⟨text.push replacement, none⟩

/-- Takes a byte. One that does not continue the sequence that has begun ends it, and is then taken
as if none had. -/
def step (p : Progress) (b : UInt8) : Progress :=
  match p.pending with
  | none => start p.text b
  | some s =>
    if s.low ≤ b ∧ b ≤ s.high then
      let value := s.value * 64 + b.toNat % 64
      if s.missing ≤ 1 then ⟨p.text.push (Char.ofNat value), none⟩
      else ⟨p.text, some ⟨value, s.missing - 1, 0x80, 0xBF⟩⟩
    else
      -- the byte may still begin a sequence of its own
      start (p.text.push replacement) b

/-- The text when the bytes have ended. -/
def finish (p : Progress) : String :=
  match p.pending with
  | none => p.text
  | some _ => p.text.push replacement

end Progress

/-- A byte string as text, with replacement characters where it is not well formed. -/
def decode (bs : Bytes) : String :=
  (bs.foldl Progress.step ⟨"", none⟩).finish

end LuaChunk.Utf8
