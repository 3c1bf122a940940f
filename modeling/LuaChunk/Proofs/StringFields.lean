import LuaChunk.Proofs.ShortestForm

/-!
# The encodings of a string

A string is stored with its size before it, in one byte or behind an escape in eight, so that some
strings can be stored in two ways. Here these ways are listed, byte by byte and apart from the
grammar; the reader is shown to take each of them for the string and nothing else, and the writer to
make the shortest.

## Key results

* `Read.Reads.takes_iff`             what a read takes whatever follows are the forms of its rule
* `StoredString.mem_encodings_iff`   the encodings of a string are its stored forms
* `string_codec`                     the reader takes the encodings, the writer makes the shortest
-/

namespace LuaChunk

/-! ### Where a read stops -/

namespace Read

variable {α β : Type} {x : Read α} {F : Form β α} {bs : Bytes} {a b : α}

/-- A read gives one value. -/
theorem Takes.value_unique {start : Nat} {notes notes' : Array Finding}
    (ha : Takes x start bs a notes) (hb : Takes x start bs b notes') : a = b := by
  have h := ha [] #[]
  rw [hb [] #[]] at h
  exact (EStateM.Result.ok.inj h).1.symm

/-- One success tells which form was taken, whatever stood behind it. -/
theorem Reads.exists_form {r r' : Reader} (hx : Reads x F) (h : x r = .ok a r')
    (hrest : r.rest = bs ++ r'.rest) : ∃ s, F.Fits s ∧ F.value s = a ∧ F.bytes s = bs := by
  obtain ⟨s, hs, hvalue, hbytes⟩ := hx.accepts h
  rw [hrest] at hbytes
  exact ⟨s, hs, hvalue, (List.append_cancel_right hbytes).symm⟩

/-- A read that notes nothing takes the bytes of the forms with a value, and it stops right behind
no others. -/
theorem Reads.takes_iff (hx : Reads x F) (hquiet : ∀ start s, F.findings start s = #[]) :
    (∀ start, Takes x start bs a #[]) ↔ ∃ s, F.Fits s ∧ F.value s = a ∧ F.bytes s = bs := by
  constructor
  · intro h
    exact hx.exists_form (h 0 [] #[]) rfl
  · rintro ⟨s, hs, rfl, rfl⟩ start
    have h := hx.takes s hs start
    rwa [hquiet start s] at h

end Read

/-! ### The encodings -/

namespace StoredString

open Read

variable {s : Option Bytes} {e : Bytes}

/-- The ways to store a string. A size of up to 254 may stand in one byte, and every size may stand
in eight bytes behind the escape; the size of an absent string is zero. -/
def encodings : Option Bytes → List Bytes
  | none => [[0x00], 0xFF :: List.replicate 8 0x00]
  | some content =>
    (if content.length ≤ 253 then [.ofNat (content.length + 1) :: content] else []) ++
      [0xFF :: Bytes.leBytes 8 (content.length + 1) ++ content]

/-- A short string has two encodings, a longer one only that behind the escape. -/
theorem mem_encodings_some {content : Bytes} :
    e ∈ encodings (some content) ↔
      (content.length ≤ 253 ∧ e = .ofNat (content.length + 1) :: content) ∨
        e = 0xFF :: Bytes.leBytes 8 (content.length + 1) ++ content := by
  by_cases hlen : content.length ≤ 253 <;> simp [encodings, hlen]

/-- The encodings of a string are its stored forms that fit: one with the size in one byte, and one
with the escape. -/
theorem mem_encodings_iff (hs : Sizable s) :
    e ∈ encodings s ↔
      ∃ escaped, Form.string.Fits ⟨s, escaped⟩ ∧ Form.string.bytes ⟨s, escaped⟩ = e := by
  rw [Bool.exists_bool]
  cases s with
  -- the escape stands before a size of zero
  | none => simp [encodings, @eq_comm _ e, Form.string, size, Bytes.leBytes]
  | some content =>
    -- the size is one more than the length, and 255 is taken by the escape
    have hshort : Form.string.Fits ⟨some content, false⟩ ↔ content.length ≤ 253 :=
      Nat.lt_succ_iff.trans Nat.succ_le_succ_iff
    have hlong : Form.string.Fits ⟨some content, true⟩ := hs
    rw [mem_encodings_some, hshort, and_iff_right hlong, @eq_comm _ e, @eq_comm _ e]
    rfl

/-- The encodings of a string are the bytes that a reader takes for it whatever follows. -/
theorem mem_encodings_iff_takes (hs : Sizable s) :
    e ∈ encodings s ↔ ∀ start, Takes Read.string start e s #[] := by
  rw [mem_encodings_iff hs, string_reads.takes_iff fun _ _ => rfl]
  constructor
  · rintro ⟨escaped, hfits, hbytes⟩
    exact ⟨⟨s, escaped⟩, hfits, rfl, hbytes⟩
  · rintro ⟨⟨content, escaped⟩, hfits, rfl, hbytes⟩
    exact ⟨escaped, hfits, hbytes⟩

/-- Only encodings are ever taken for a string, by a reader anywhere. -/
theorem mem_encodings_of_ok (hs : Sizable s) {r r' : Reader} (h : Read.string r = .ok s r')
    (hrest : r.rest = e ++ r'.rest) : e ∈ encodings s := by
  obtain ⟨⟨content, escaped⟩, hfits, rfl, hbytes⟩ := string_reads.exists_form h hrest
  exact (mem_encodings_iff hs).2 ⟨escaped, hfits, hbytes⟩

/-- Of two stored forms of a string, the other one is longer than the one that the writer makes. -/
theorem length_ofContent_lt {escaped : Bool} (h : Form.string.Fits ⟨s, escaped⟩)
    (hne : escaped ≠ (ofContent s).escaped) :
    (Form.string.bytes (.ofContent s)).length < (Form.string.bytes ⟨s, escaped⟩).length := by
  -- the writer does not take the longer of two forms, so that the other one has the escape
  have hother : (ofContent s).escaped = !escaped := Bool.eq_not.2 hne.symm
  have hle := length_ofContent_le h
  rw [length_bytes, length_bytes, content_ofContent, hother] at hle ⊢
  -- the other form has the escape
  cases escaped with
  | true => simp
  -- if it were the one in one byte, the writer would have made the longer one
  | false => simp at hle

/-- The writer makes one of the encodings, and every other one is longer. -/
theorem eq_or_length_lt_of_mem_encodings (hs : Sizable s) (he : e ∈ encodings s) :
    e = Form.string.bytes (.ofContent s) ∨
      (Form.string.bytes (.ofContent s)).length < e.length := by
  obtain ⟨escaped, hfits, rfl⟩ := (mem_encodings_iff hs).1 he
  by_cases heq : escaped = (ofContent s).escaped
  · left
    rw [heq]
    rfl
  · right
    exact length_ofContent_lt hfits heq

end StoredString

/-- The encodings of a string are the byte strings that a reader takes for it and stops right
behind, whatever follows; nothing else is ever taken for it. The writer makes the shortest of them,
and so no two strings are written alike. -/
theorem string_codec {s : Option Bytes} (hs : (s.getD []).length < 2 ^ 63) :
    (∃ written, Field.string s = .ok written ∧
      (∀ start, Read.Takes Read.string start written s #[]) ∧
      ∀ e ∈ StoredString.encodings s, e = written ∨ written.length < e.length) ∧
    (∀ e, e ∈ StoredString.encodings s ↔ ∀ start, Read.Takes Read.string start e s #[]) ∧
    (∀ e r r', Read.string r = .ok s r' → r.rest = e ++ r'.rest → e ∈ StoredString.encodings s) ∧
    ∀ t : Option Bytes, (t.getD []).length < 2 ^ 63 → t ≠ s →
      (StoredString.encodings s).Disjoint (StoredString.encodings t) := by
  have hsizable := StoredString.sizable_of_lt hs
  have hwritten := Read.string_reads.takes _ (StoredString.fits_ofContent hsizable)
  refine ⟨⟨_, Field.string_eq_ok s, hwritten, fun e => ?_⟩, fun e => ?_, fun e r r' => ?_,
    fun t ht hne e hes het => ?_⟩
  -- the writer makes the shortest, and so any other is longer
  · exact StoredString.eq_or_length_lt_of_mem_encodings hsizable
  · exact StoredString.mem_encodings_iff_takes hsizable
  · exact StoredString.mem_encodings_of_ok hsizable
  · -- the bytes would be read as both
    have hes' := (StoredString.mem_encodings_iff_takes hsizable).1 hes 0
    have het' := (StoredString.mem_encodings_iff_takes (StoredString.sizable_of_lt ht)).1 het 0
    exact hne (het'.value_unique hes')

/-- From 254 bytes on, the size does not fit in one byte next to the escape. -/
theorem string_codec_at_the_limit :
    (∀ e, (∀ start, Read.Takes Read.string start e (some (List.replicate 253 0x7A)) #[]) ↔
      e = 0xFE :: List.replicate 253 0x7A ∨
        e = [0xFF, 0xFE, 0, 0, 0, 0, 0, 0, 0] ++ List.replicate 253 0x7A) ∧
    ∀ e, (∀ start, Read.Takes Read.string start e (some (List.replicate 254 0x7A)) #[]) ↔
      e = [0xFF, 0xFF, 0, 0, 0, 0, 0, 0, 0] ++ List.replicate 254 0x7A := by
  have hlength : ∀ {n}, n < 2 ^ 63 → (List.replicate n (0x7A : UInt8)).length < 2 ^ 63 := by
    intro n hn
    rwa [List.length_replicate]
  have h253 := (string_codec (s := some (List.replicate 253 0x7A)) (hlength (by decide))).2.1
  have h254 := (string_codec (s := some (List.replicate 254 0x7A)) (hlength (by decide))).2.1
  constructor
  -- the byte 254 is the size of the longest string that fits in one byte
  · intro e
    rw [← h253 e, StoredString.mem_encodings_some, List.length_replicate]
    exact or_congr_left (and_iff_right (by decide))
  -- one byte more, and the size would be the escape
  · intro e
    rw [← h254 e, StoredString.mem_encodings_some, List.length_replicate]
    exact or_iff_right fun h => absurd h.1 (by decide)

end LuaChunk
