import LuaChunk.Proofs.Dumping
import LuaChunk.Proofs.Truncation

/-!
# What is checked in a header

A header is accepted if and only if it is the one that is written. What is wrong with any other is
told by the first check that fails: the literals come first, and one that is cut short differs; then
the widths, if all of them are there; then the samples, each if it is there. What a check finds
depends on the buffer alone and not on the checks before it, so that the checks are stated as a list
of places in the buffer, apart from any read.

## Key results

* `performs_header`             reading a header performs the checks of the list in their order
* `firstFault_of_difference`    a difference in a literal shows in that literal
* `header_decides`              which headers are accepted, and what is wrong with the others
-/

namespace LuaChunk

/-! ### Checks -/

/-- The literal fields in the order in which a header has them. -/
def LiteralField.all : List LiteralField :=
  [.signature, .version, .format, .tail]

/-- Where a header declares a width. -/
def WidthField.offset : WidthField → Nat
  | int => 12
  | sizeT => 13
  | instruction => 14
  | integer => 15
  | float => 16

/-- A check of a header. -/
inductive HeaderCheck
  /-- A literal field is as expected. -/
  | literal (field : LiteralField)
  /-- From an offset on, so many bytes are left. -/
  | room (offset size : Nat)
  /-- A width is the standard one. -/
  | width (field : WidthField)
  | integerSample
  | numberSample
  deriving DecidableEq, Repr

namespace HeaderCheck

/-- The checks behind the literals of a header, in their order. -/
def layout : List HeaderCheck :=
  [room 12 5] ++ WidthField.all.map width ++ [room 17 4, integerSample, room 21 8, numberSample]

/-- The checks of a header in their order. -/
def all : List HeaderCheck :=
  LiteralField.all.map literal ++ layout

/-- What a check finds wrong with a buffer. -/
def fault (bs : Bytes) : HeaderCheck → Option Cause
  | literal field =>
    let actual := (bs.drop field.offset).take field.expected.length
    if actual ≠ field.expected then some (.headerMismatch field field.expected actual) else none
  | room offset size =>
    let left := bs.length - offset
    if left < size then some (.bufferUnderrun size left) else none
  | width field =>
    bs[field.offset]?.bind fun actual =>
      let expected := Header.standard.width field
      if actual ≠ expected then some (.sizeMismatch field expected actual) else none
  | integerSample =>
    let stored := Bytes.leBytes 4 Header.sampleInteger.toInt.toNat
    if (bs.drop 17).take 4 ≠ stored then some .endiannessMismatch else none
  | numberSample =>
    let stored := Bytes.leBytes 8 Header.sampleNumber.bits.toNat
    if (bs.drop 21).take 8 ≠ stored then some .floatFormatMismatch else none

/-- What the first check finds that finds something. -/
def firstFault (bs : Bytes) : Option Cause :=
  all.findSome? (fault bs)

end HeaderCheck

/-! ### Reads that perform checks -/

namespace Read

open HeaderCheck

variable {α γ : Type} {bs : Bytes} {x : Read α} {f : α → Read γ} {checks checks' : List HeaderCheck}
  {start between stop : Nat} {P : α → Prop} {Q : γ → Prop}

/-- Begun at offset `start` of a buffer, `x` performs some checks: it fails with what the first of
them finds that finds something, and if none does, it goes on to offset `stop` with a value for
which `P` holds. -/
structure Performs (bs : Bytes) (x : Read α) (checks : List HeaderCheck) (start stop : Nat)
    (P : α → Prop) : Prop where
  ok : checks.findSome? (fault bs) = none → ∀ findings, ∃ a findings',
    x ⟨start, bs.drop start, findings⟩ = .ok a ⟨stop, bs.drop stop, findings'⟩ ∧ P a
  error : ∀ {cause}, checks.findSome? (fault bs) = some cause → ∀ findings, ∃ r,
    x ⟨start, bs.drop start, findings⟩ = .error cause r

/-- Two reads in a row perform the checks of the first, then those of the second. -/
theorem Performs.bind (hx : Performs bs x checks start between P)
    (hf : ∀ a, P a → Performs bs (f a) checks' between stop Q) :
    Performs bs (x >>= f) (checks ++ checks') start stop Q where
  ok h findings := by
    rw [List.findSome?_append, Option.or_eq_none_iff] at h
    obtain ⟨a, findings', hok, ha⟩ := hx.ok h.1 findings
    obtain ⟨b, findings'', hok', hb⟩ := (hf a ha).ok h.2 findings'
    exact ⟨b, findings'', bind_eq_ok.2 ⟨a, _, hok, hok'⟩, hb⟩
  error {cause} h findings := by
    rw [List.findSome?_append] at h
    cases hfirst : checks.findSome? (fault bs) with
    -- a check of the first read finds something
    | some first =>
      rw [hfirst, Option.some_or, Option.some.injEq] at h
      obtain ⟨r, herror⟩ := hx.error hfirst findings
      exact ⟨r, bind_eq_error.2 (.inl (h ▸ herror))⟩
    -- no check of the first read does, and one of the second may
    | none =>
      rw [hfirst, Option.none_or] at h
      obtain ⟨a, findings', hok, ha⟩ := hx.ok hfirst findings
      obtain ⟨r, herror⟩ := (hf a ha).error h findings'
      exact ⟨r, bind_eq_error.2 (.inr ⟨a, _, hok, herror⟩)⟩

/-- More can be forgotten of the value that a read goes on with. -/
theorem Performs.mono {P' : α → Prop} (h : Performs bs x checks start stop P)
    (hP : ∀ a, P a → P' a) : Performs bs x checks start stop P' where
  ok hnone findings := by
    obtain ⟨a, findings', hok, ha⟩ := h.ok hnone findings
    exact ⟨a, findings', hok, hP a ha⟩
  error := h.error

/-- A read that only gives a value performs no check. -/
theorem performs_pure (bs : Bytes) (start : Nat) (a : α) :
    Performs bs (pure a) [] start start fun b => b = a where
  ok _ findings := ⟨a, findings, rfl, rfl⟩
  error h := nomatch h

/-- A read performs one check if it succeeds exactly when the check finds nothing. -/
theorem performs_singleton {c : Prop} [Decidable c] {check : HeaderCheck} {cause : Cause}
    (hfault : check.fault bs = if c then some cause else none)
    (herror : c → ∀ findings, ∃ r, x ⟨start, bs.drop start, findings⟩ = .error cause r)
    (hok : ¬ c → ∀ findings, ∃ a findings',
      x ⟨start, bs.drop start, findings⟩ = .ok a ⟨stop, bs.drop stop, findings'⟩ ∧ P a) :
    Performs bs x [check] start stop P := by
  replace hfault : [check].findSome? (fault bs) = if c then some cause else none :=
    List.findSome?_singleton.trans hfault
  by_cases hc : c
  -- the check finds something
  · rw [if_pos hc] at hfault
    refine ⟨fun h => ?_, fun h findings => ?_⟩
    · exact nomatch hfault.symm.trans h
    · obtain rfl := Option.some.inj (hfault.symm.trans h)
      exact herror hc findings
  -- it finds nothing
  · rw [if_neg hc] at hfault
    refine ⟨fun _ => hok hc, fun h => ?_⟩
    exact nomatch hfault.symm.trans h

/-- A check of what was read, in front of what follows. -/
theorem Performs.guard {c : Prop} [Decidable c] {check : HeaderCheck} {cause : Cause}
    (hfault : check.fault bs = if c then some cause else none)
    (hx : Performs bs x checks start stop P) :
    Performs bs (if c then (throw cause : Read Unit) >>= fun _ => x else x) (check :: checks)
      start stop P := by
  have hcheck : Performs bs (if c then throw cause else pure () : Read Unit) [check] start start
      fun _ => True := by
    refine performs_singleton hfault (fun hc findings => ?_) fun hc findings => ?_
    · rw [if_pos hc]
      exact ⟨_, rfl⟩
    · rw [if_neg hc]
      exact ⟨(), findings, rfl, trivial⟩
  -- the check stands in front of `x`, which a failure never reaches
  have hbind : (if c then (throw cause : Read Unit) >>= fun _ => x else x) =
      (if c then throw cause else pure ()) >>= fun _ => x := by
    split <;> rfl
  rw [hbind]
  exact hcheck.bind fun _ _ => hx

/-- A piece checks that there is room for it, and takes the bytes that stand there. -/
theorem Piece.performs {n : Nat} (h : Piece n x) (bs : Bytes) (start : Nat) :
    Performs bs x [.room start n] start (start + n)
      fun a => ∃ notes, Takes x start ((bs.drop start).take n) a notes := by
  -- the check looks for as many bytes as the piece has
  have hfault : (HeaderCheck.room start n).fault bs =
      if (bs.drop start).length < n then some (.bufferUnderrun n (bs.drop start).length)
      else none := by
    rw [List.length_drop]
    rfl
  refine performs_singleton hfault (fun hlt findings => ⟨_, h.fails hlt⟩) fun hlt findings => ?_
  -- there is room, and the piece is what stands in the buffer from there on
  have hlen : ((bs.drop start).take n).length = n := List.length_take_of_le (Nat.not_lt.1 hlt)
  obtain ⟨a, notes, htakes⟩ := h.takes start hlen
  have hok := htakes ((bs.drop start).drop n) findings
  rw [List.take_append_drop, hlen, List.drop_drop] at hok
  exact ⟨a, _, hok, notes, htakes⟩

/-! ### The checks of a header -/

/-- Reading a literal checks it. -/
theorem performs_literal (bs : Bytes) (field : LiteralField) :
    Performs bs (literal field) [.literal field] field.offset
      (field.offset + field.expected.length) fun _ => True := by
  refine performs_singleton rfl (fun hne findings => ?_) fun heq findings => ?_
  -- the bytes that stand there are others
  · rw [literal_eq]
    exact ⟨_, if_neg hne⟩
  -- they are the expected ones, and are taken
  · rw [Decidable.not_not] at heq
    refine ⟨(), findings, ?_, trivial⟩
    rw [literal_eq]
    dsimp only
    rw [if_pos heq, heq, List.drop_drop]
    rfl

/-- What is declared is what stands in the buffer. -/
theorem performs_widths (bs : Bytes) :
    Performs bs widths [.room 12 5] 12 17
      fun declared => ∀ field : WidthField, bs[field.offset]? = some (declared.width field) := by
  refine (widths_piece.performs bs 12).mono fun declared ⟨notes, htakes⟩ => ?_
  have hbytes : (bs.drop 12).take 5 = declared.toBytes := by
    simpa using widths_eq_ok (htakes [] #[])
  -- byte by byte
  have hat (i : Nat) (hi : i < 5) : bs[12 + i]? = declared.toBytes[i]? := by
    rw [← hbytes, List.getElem?_take_of_lt hi, List.getElem?_drop]
  intro field
  cases field
  · exact hat 0 (by decide)
  · exact hat 1 (by decide)
  · exact hat 2 (by decide)
  · exact hat 3 (by decide)
  · exact hat 4 (by decide)

/-- What the checks of widths find is the first width that differs. -/
theorem findSome?_width {declared : Header}
    (h : ∀ field : WidthField, bs[field.offset]? = some (declared.width field))
    (fields : List WidthField) :
    (fields.map HeaderCheck.width).findSome? (fault bs) =
      (fields.find? fun field => declared.width field != Header.standard.width field).map
        fun field => .sizeMismatch field (Header.standard.width field) (declared.width field) := by
  induction fields with
  | nil => rfl
  | cons field fields ih =>
    rw [List.map_cons, List.findSome?_cons, List.find?_cons, fault, h field, Option.bind_some, ih]
    -- a width as it should be is passed over
    by_cases heq : declared.width field = Header.standard.width field
    · simp [heq]
    -- the first one that differs is what is found
    · have hne : (declared.width field != Header.standard.width field) = true := by simpa using heq
      simp [heq, hne]

/-- Comparing the widths that were declared checks the widths in the buffer. -/
theorem performs_checkWidths {declared : Header}
    (h : ∀ field : WidthField, bs[field.offset]? = some (declared.width field)) :
    Performs bs (checkWidths declared) (WidthField.all.map .width) 17 17 fun _ => True := by
  have hfault := findSome?_width h WidthField.all
  unfold checkWidths
  cases hfind : WidthField.all.find?
      fun field => declared.width field != Header.standard.width field with
  -- every width is the standard one
  | none =>
    rw [hfind, Option.map_none] at hfault
    refine ⟨fun _ findings => ⟨(), findings, rfl, trivial⟩, fun h => ?_⟩
    exact nomatch hfault.symm.trans h
  -- the first that is not is the one that is reported
  | some field =>
    rw [hfind, Option.map_some] at hfault
    refine ⟨fun h => ?_, fun h findings => ?_⟩
    · exact nomatch hfault.symm.trans h
    · obtain rfl := Option.some.inj (hfault.symm.trans h)
      exact ⟨_, rfl⟩

/-- The integer sample is told by the bytes in which it is stored. -/
theorem eq_sampleInteger_iff {stored : Bytes} {n : Int64} {notes : Array Finding}
    (h : Takes integer start stored n notes) :
    n = Header.sampleInteger ↔ stored = Bytes.leBytes 4 Header.sampleInteger.toInt.toNat := by
  obtain ⟨i, hi, rfl⟩ := map_eq_ok.1 (h [] #[])
  obtain ⟨i, -, rfl, hstored⟩ := int_reads.accepts hi
  rw [List.append_nil, List.append_nil] at hstored
  subst hstored
  constructor
  -- the number settles its four bytes
  · intro heq
    have hi : i = Header.sampleInteger.toInt32 := by
      rw [← heq]
      exact (Int32.toInt32_toInt64 i).symm
    rw [hi]
    rfl
  -- and they settle the number
  · intro heq
    have hbytes : Form.int.bytes i = Form.int.bytes Header.sampleInteger.toInt32 := heq
    rw [Form.int_unambiguous.bytes_inj trivial trivial hbytes]
    rfl

/-- The number sample is told by the bytes in which it is stored. -/
theorem eq_sampleNumber_iff {stored : Bytes} {x : Binary64} {notes : Array Finding}
    (h : Takes number start stored x notes) :
    x = Header.sampleNumber ↔ stored = Bytes.leBytes 8 Header.sampleNumber.bits.toNat := by
  -- what was read is the sample if its bytes are, since one pattern only equals it
  obtain ⟨x, -, rfl, hstored⟩ := number_reads.accepts (h [] #[])
  rw [List.append_nil, List.append_nil] at hstored
  subst hstored
  constructor
  · rintro rfl
    rfl
  · intro heq
    have hbytes : Form.number.bytes x = Form.number.bytes Header.sampleNumber := heq
    exact Form.number_unambiguous.bytes_inj trivial trivial hbytes

/-- The number sample is checked last, for room and then for its bytes. -/
theorem performs_numberSample (bs : Bytes) (declared : Header) :
    Performs bs
      (do if !(← number).numEq Header.sampleNumber then throw .floatFormatMismatch
          return declared : Read Header)
      [.room 21 8, .numberSample] 21 29 fun _ => True := by
  refine (number_piece.performs bs 21).bind fun x ⟨notes, htakes⟩ => ?_
  refine .guard ?_ ((performs_pure bs 29 declared).mono fun _ _ => trivial)
  have hiff : (!x.numEq Header.sampleNumber) = true ↔
      (bs.drop 21).take 8 ≠ Bytes.leBytes 8 Header.sampleNumber.bits.toNat := by
    rw [Bool.not_eq_true', ← Bool.not_eq_true, numEq_sampleNumber_iff, eq_sampleNumber_iff htakes]
  simp only [hiff]
  rfl

/-- A header is checked as the list of its checks has it. -/
theorem performs_header (bs : Bytes) :
    Performs bs header HeaderCheck.all 0 29 fun _ => True := by
  -- read by read; what the widths and the samples are is handed on to the checks of them
  refine (performs_literal bs .signature).bind fun _ _ => ?_
  refine (performs_literal bs .version).bind fun _ _ => ?_
  refine (performs_literal bs .format).bind fun _ _ => ?_
  refine (performs_literal bs .tail).bind fun _ _ => ?_
  refine (performs_widths bs).bind fun declared hdeclared => ?_
  refine (performs_checkWidths hdeclared).bind fun _ _ => ?_
  refine (integer_piece.performs bs 17).bind fun n ⟨notes, htakes⟩ => ?_
  refine .guard ?_ (performs_numberSample bs declared)
  simp only [ne_eq, eq_sampleInteger_iff htakes]
  rfl

/-- The header that is written is read, up to its end. -/
theorem header_of_take {bs : Bytes} (h : bs.take 29 = Header.bytes) :
    header (.ofBytes bs) = .ok Header.standard ⟨29, bs.drop 29, #[]⟩ := by
  have htakes := header_reads.takes () trivial 0 (bs.drop 29) #[]
  have hbytes : Form.header.bytes () ++ bs.drop 29 = bs := by
    rw [← List.take_append_drop 29 bs, h]
    rfl
  rwa [hbytes] at htakes

end Read

namespace HeaderCheck

variable {bs : Bytes}

/-- Nothing is wrong with a header if and only if it is the one that is written. -/
theorem firstFault_eq_none_iff : firstFault bs = none ↔ bs.take 29 = Header.bytes := by
  constructor
  · intro h
    -- no check fails, so that the header is read, and only one header is
    obtain ⟨_, _, hok, -⟩ := (Read.performs_header bs).ok h #[]
    obtain ⟨_, -, -, hrest⟩ := Read.header_reads.accepts hok
    have hbs : bs = Header.bytes ++ bs.drop 29 := hrest
    rw [hbs]
    exact List.take_left' rfl
  · intro h
    cases hfault : firstFault bs with
    | none => rfl
    | some cause =>
      obtain ⟨r, herror⟩ := (Read.performs_header bs).error hfault #[]
      exact nomatch (Read.header_of_take h).symm.trans herror

/-! ### Differences in the literals -/

/-- What a buffer shows that differs from a header at an offset in front of the widths. -/
def mismatchAt (bs : Bytes) (offset : Nat) : Cause :=
  let field := LiteralField.at offset
  .headerMismatch field field.expected ((bs.drop field.offset).take field.expected.length)

/-- A literal stands in the header at its offset. -/
theorem take_drop_bytes (field : LiteralField) :
    (Header.bytes.drop field.offset).take field.expected.length = field.expected := by
  cases field <;> rfl

/-- In front of the first difference every literal is as expected. -/
theorem fault_literal_of_le {field : LiteralField} {k : Nat}
    (hfront : bs.take k = Header.bytes.take k)
    (hle : field.offset + field.expected.length ≤ k) : fault bs (.literal field) = none := by
  -- the literal ends in front of `k`
  have hcut (cs : Bytes) : (cs.drop field.offset).take field.expected.length =
      ((cs.take k).drop field.offset).take field.expected.length := by
    rw [List.drop_take, List.take_take, Nat.min_eq_left (by omega)]
  refine if_neg (Decidable.not_not.2 ?_)
  rw [hcut, hfront, ← hcut, take_drop_bytes]

/-- The literal with a difference is not as expected. -/
theorem fault_literal_of_ne {field : LiteralField} {k : Nat} (hne : bs[k]? ≠ Header.bytes[k]?)
    (hle : field.offset ≤ k) (hlt : k < field.offset + field.expected.length) :
    fault bs (.literal field) = some (.headerMismatch field field.expected
      ((bs.drop field.offset).take field.expected.length)) := by
  have hat (cs : Bytes) :
      ((cs.drop field.offset).take field.expected.length)[k - field.offset]? = cs[k]? := by
    rw [List.getElem?_take_of_lt (by omega), List.getElem?_drop, Nat.add_sub_cancel' hle]
  -- the byte at `k` is one of those that the literal is compared with
  refine if_pos fun heq => hne ?_
  rw [← hat bs, heq, ← take_drop_bytes, hat]

/-- Of the literals, those in front of the one at an offset end before it. -/
theorem exists_literals_eq : ∀ k < 12, ∃ front back,
    LiteralField.all = front ++ .at k :: back ∧
      ∀ field ∈ front, field.offset + field.expected.length ≤ k := by
  have hsplit : ∀ k < 12, LiteralField.all =
      LiteralField.all.filter (fun field => field.offset + field.expected.length ≤ k)
        ++ .at k :: LiteralField.all.filter fun field => k < field.offset := by decide
  exact fun k hk => ⟨_, _, hsplit k hk, fun field hfield =>
    of_decide_eq_true (List.mem_filter.1 hfield).2⟩

/-- An offset in front of the widths lies inside the literal that it belongs to. -/
theorem offset_at : ∀ k < 12, (LiteralField.at k).offset ≤ k ∧
    k < (LiteralField.at k).offset + (LiteralField.at k).expected.length := by
  decide

/-- The first byte that differs from a header in front of the widths shows in the literal where it
stands, whatever follows. -/
theorem firstFault_of_difference {k : Nat} (hk : k < 12)
    (hfront : bs.take k = Header.bytes.take k) (hne : bs[k]? ≠ Header.bytes[k]?) :
    firstFault bs = some (mismatchAt bs k) := by
  obtain ⟨hle, hlt⟩ := offset_at k hk
  obtain ⟨front, back, hliterals, hpass⟩ := exists_literals_eq k hk
  have hall : all = front.map literal ++ literal (.at k) :: (back.map literal ++ layout) := by
    rw [all, hliterals, List.map_append, List.map_cons, List.append_assoc, List.cons_append]
  -- the literals in front pass, and the one at `k` does not
  refine List.findSome?_eq_some_iff.2
    ⟨_, _, _, hall, fault_literal_of_ne hne hle hlt, List.forall_mem_map.2 fun field hfield => ?_⟩
  exact fault_literal_of_le hfront (hpass field hfield)

section Header

variable (h : bs.take 29 = Header.bytes) {k : Nat}
include h

/-- A buffer that begins with a header is at least as long. -/
theorem le_length_of_take : 29 ≤ bs.length := by
  have hlen : min 29 bs.length = 29 := by
    rw [← List.length_take, h]
    rfl
  omega

/-- It has the bytes of the header in their places. -/
theorem getElem?_of_take (hk : k < 29) : bs[k]? = Header.bytes[k]? := by
  rw [← h, List.getElem?_take_of_lt hk]

/-- It begins with every part that the header begins with. -/
theorem take_of_take (hk : k < 29) : bs.take k = Header.bytes.take k := by
  rw [← h, List.take_take, Nat.min_eq_left (Nat.le_of_lt hk)]

/-- A header that lacks one byte of its literals: the byte that takes its place is another. -/
theorem firstFault_eraseIdx (hk : k < 12) :
    firstFault (bs.eraseIdx k) = some (mismatchAt (bs.eraseIdx k) k) := by
  have hlen := le_length_of_take h
  have hnext : ∀ k < 12, Header.bytes[k + 1]? ≠ Header.bytes[k]? := by decide
  refine firstFault_of_difference hk ?_ ?_
  -- what stands in front of the byte is as it was
  · rw [List.eraseIdx_eq_take_drop_succ, List.take_left' (List.length_take_of_le (by omega))]
    exact take_of_take h (by omega)
  -- in its place stands the next byte, which no literal has twice in a row
  · rw [List.getElem?_eraseIdx_of_ge (Nat.le_refl k), getElem?_of_take h (by omega)]
    exact hnext k hk

/-- A header with one byte of its literals changed. -/
theorem firstFault_set (hk : k < 12) {b : UInt8} (hb : bs[k]? ≠ some b) :
    firstFault (bs.set k b) = some (mismatchAt (bs.set k b) k) := by
  have hlen := le_length_of_take h
  refine firstFault_of_difference hk ?_ ?_
  · rw [List.take_set_of_le (Nat.le_refl k)]
    exact take_of_take h (by omega)
  · rw [List.getElem?_set_self (by omega), ← getElem?_of_take h (by omega)]
    exact hb.symm

end Header

end HeaderCheck

/-! ### Headers in a load and in a dump -/

/-- What is wrong with a header is what is wrong with the chunk. -/
theorem outcome_load_of_firstFault {bs : Bytes} {cause : Cause}
    (h : HeaderCheck.firstFault bs = some cause) (options : LoadOptions) (table : StringTable)
    (name : String) : (load options table name bs).outcome = .error (.ofCause name cause) := by
  obtain ⟨r, herror⟩ := (Read.performs_header bs).error h #[]
  have hparts : Read.parts options.toReadOptions (.ofBytes bs) = .error cause r :=
    Read.bind_eq_error.2 (.inl herror)
  have hclosure : Read.closure options.toReadOptions (.ofBytes bs) = .error cause r := by
    rw [Read.closure_eq]
    exact Read.bind_eq_error.2 (.inl hparts)
  exact outcome_load_of_error hclosure

/-- Every dump begins with the header. -/
theorem take_of_dump {c : Closure Bytes} {strip : Bool} {dumped : Bytes}
    (h : dump c strip = .ok dumped) : dumped.take 29 = Header.bytes := by
  obtain ⟨pieces, hpieces, rfl⟩ := spells_of_dump h
  -- the header is the first piece that is written
  cases pieces with
  | nil => contradiction
  | cons piece pieces =>
    obtain ⟨hpiece, -⟩ := List.cons.inj hpieces
    obtain rfl := Except.ok.inj hpiece
    exact List.take_left' rfl

/-- A header is accepted if and only if the buffer begins with the 29 bytes with which every dump
begins, and the reader then stands behind them. Any other header, and any load of it, is rejected
for what the first check finds that finds something. A header one byte of whose literals is deleted
or changed is rejected for the literal in which the byte stood. -/
theorem header_decides (bs : Bytes) :
    (∀ header r, Read.header (.ofBytes bs) = .ok header r ↔
      (29 ≤ bs.length ∧ bs.take 29 = Header.bytes) ∧
        header = Header.standard ∧ r = ⟨29, bs.drop 29, #[]⟩) ∧
    (∀ cause, (∃ r, Read.header (.ofBytes bs) = .error cause r) ↔
      HeaderCheck.firstFault bs = some cause) ∧
    (∀ cause, HeaderCheck.firstFault bs = some cause → ∀ options table name,
      (load options table name bs).outcome = .error (.ofCause name cause)) ∧
    (∀ c strip dumped, dump c strip = .ok dumped → dumped.take 29 = Header.bytes) ∧
    (bs.take 29 = Header.bytes → ∀ k < 12,
      HeaderCheck.firstFault (bs.eraseIdx k) =
        some (HeaderCheck.mismatchAt (bs.eraseIdx k) k) ∧
      ∀ b, bs[k]? ≠ some b → HeaderCheck.firstFault (bs.set k b) =
        some (HeaderCheck.mismatchAt (bs.set k b) k)) := by
  refine ⟨fun header r => ⟨fun hok => ?_, ?_⟩, fun cause => ⟨?_, fun h => ?_⟩,
    fun cause h options table name => outcome_load_of_firstFault h options table name,
    fun c strip dumped => take_of_dump, fun h k hk =>
      ⟨HeaderCheck.firstFault_eraseIdx h hk, fun b => HeaderCheck.firstFault_set h hk⟩⟩
  -- a header is read when no check finds anything, and then it is known
  · cases hfault : HeaderCheck.firstFault bs with
    | none =>
      have htake := HeaderCheck.firstFault_eq_none_iff.1 hfault
      rw [Read.header_of_take htake, EStateM.Result.ok.injEq] at hok
      exact ⟨⟨HeaderCheck.le_length_of_take htake, htake⟩, hok.1.symm, hok.2.symm⟩
    | some cause =>
      obtain ⟨r', herror⟩ := (Read.performs_header bs).error hfault #[]
      exact nomatch hok.symm.trans herror
  · rintro ⟨⟨-, htake⟩, rfl, rfl⟩
    exact Read.header_of_take htake
  -- a header that fails is not the one that is written, so some check finds something
  · rintro ⟨r, herror⟩
    cases hfault : HeaderCheck.firstFault bs with
    | none =>
      have hok := Read.header_of_take (HeaderCheck.firstFault_eq_none_iff.1 hfault)
      exact nomatch hok.symm.trans herror
    | some cause' =>
      obtain ⟨r', herror'⟩ := (Read.performs_header bs).error hfault #[]
      have heq := herror'.symm.trans herror
      rw [EStateM.Result.error.injEq] at heq
      rw [heq.1]
  · exact (Read.performs_header bs).error h #[]

/-- The header of a chunk as it is, without a byte of its tail, and with two faults of which the one
in the widths is found first. -/
theorem header_decides_sample :
    let bs := StoredChunk.sample.bytes
    let faulty := (Header.bytes.set 14 8).set 28 0
    Read.header (.ofBytes bs) = .ok Header.standard ⟨29, bs.drop 29, #[]⟩ ∧
      HeaderCheck.firstFault (bs.eraseIdx 9) =
        some (.headerMismatch .tail Header.tail [0x19, 0x93, 0x0d, 0x1a, 0x0a, 0x04]) ∧
      HeaderCheck.firstFault faulty = some (.sizeMismatch .instruction 4 8) ∧
      ∃ r, Read.header (.ofBytes faulty) = .error (.sizeMismatch .instruction 4 8) r := by
  intro bs faulty
  have htake : bs.take 29 = Header.bytes := rfl
  have hfault : HeaderCheck.firstFault faulty = some (.sizeMismatch .instruction 4 8) := by decide
  obtain ⟨hok, -, -, -, hliteral⟩ := header_decides bs
  obtain ⟨-, herror, -⟩ := header_decides faulty
  exact ⟨(hok _ _).2 ⟨⟨HeaderCheck.le_length_of_take htake, htake⟩, rfl, rfl⟩,
    (hliteral htake 9 (by decide)).1, hfault, (herror _).2 hfault⟩

end LuaChunk
