import LuaChunk.Proofs.Dumping

/-!
# Writing into a buffer of fixed size

A buffer that cannot grow is filled front to back. Copying into it copies as many bytes as there is
room for; writing copies again and again until all is copied, and fails when there is no room for a
single byte. What stands in the buffer after any number of such writes depends on the bytes alone
and not on how they are cut into pieces: it begins with as many of them as fit. A sink of fixed
capacity is such a buffer without the bytes that were in it before.

## Key results

* `Slice.copyAll_eq`      what a write leaves in a buffer, and when it fails
* `Slice.write_pieces`    what several writes leave in it, however the bytes are cut
* `Sink.write_fills`      a sink of fixed capacity takes what a buffer takes
* `write_into_buffer`     writing a closure that was loaded into a buffer of fixed size
-/

namespace LuaChunk

/-! ### Buffers -/

/-- A buffer that is being filled. -/
structure Slice where
  /-- What has been written, from the front of the buffer on. -/
  written : Bytes
  /-- What stands in the buffer behind it. -/
  left : Bytes

namespace Slice

variable {s : Slice} {bs cs : Bytes}

/-- A buffer into which nothing has been written. -/
def ofBytes (bs : Bytes) : Slice :=
  ⟨[], bs⟩

/-- All bytes of a buffer. -/
def bytes (s : Slice) : Bytes :=
  s.written ++ s.left

/-- Copies as many bytes into a buffer as fit, and tells how many these are. -/
def copy (s : Slice) (bs : Bytes) : Nat × Slice :=
  let n := min bs.length s.left.length
  (n, ⟨s.written ++ bs.take n, s.left.drop n⟩)

/-- Copies bytes into a buffer until all of them are copied, and tells whether they were; gives up
when none is copied. -/
def copyAll (s : Slice) : Bytes → Bool × Slice
  | [] => (true, s)
  | b :: bs =>
    let (n, after) := s.copy (b :: bs)
    if n = 0 then (false, after) else after.copyAll ((b :: bs).drop n)
termination_by bs => bs.length
decreasing_by
  simp only [List.length_drop, List.length_cons]
  omega

/-- Writes fields in order, up to the first that cannot be written. -/
def write (s : Slice) : List Field → Option WriteError × Slice
  | [] => (none, s)
  | .error e :: _ => (some e, s)
  | .ok bs :: fields =>
    match s.copyAll bs with
    | (true, after) => after.write fields
    | (false, after) => (some .sinkFull, after)

/-! ### Filling -/

/-- A buffer after bytes of which it takes as many as fit. -/
def fill (s : Slice) (bs : Bytes) : Slice :=
  ⟨s.written ++ bs.take s.left.length, s.left.drop bs.length⟩

@[simp] theorem fill_nil (s : Slice) : s.fill [] = s := by
  simp [fill]

/-- Filling with bytes is filling with one part of them after the other. -/
theorem fill_append (s : Slice) (bs cs : Bytes) : s.fill (bs ++ cs) = (s.fill bs).fill cs := by
  simp only [fill, List.take_append, List.length_append, List.length_drop, List.append_assoc,
    List.drop_drop]

/-- Bytes that fit take their room away. -/
theorem length_left_fill (s : Slice) (bs : Bytes) :
    (s.fill bs).left.length = s.left.length - bs.length :=
  List.length_drop

/-- A buffer neither grows nor shrinks. -/
theorem length_bytes_fill (s : Slice) (bs : Bytes) :
    (s.fill bs).bytes.length = s.bytes.length := by
  simp only [fill, bytes, List.length_append, List.length_take, List.length_drop]
  omega

/-- A buffer in which nothing is left takes nothing. -/
theorem fill_of_left_eq_nil (h : s.left = []) (bs : Bytes) : s.fill bs = s := by
  obtain ⟨written, left⟩ := s
  obtain rfl : left = [] := h
  simp [fill]

/-- Copying once fills the buffer, and copies what fits. -/
theorem copy_eq (s : Slice) (bs : Bytes) :
    s.copy bs = (min bs.length s.left.length, s.fill bs) := by
  have htake : bs.take (min bs.length s.left.length) = bs.take s.left.length := by
    rw [Nat.min_comm, ← List.take_take, List.take_length]
  have hdrop : s.left.drop (min bs.length s.left.length) = s.left.drop bs.length := by
    -- either all bytes fit, or the buffer is full
    rcases Nat.le_total bs.length s.left.length with hle | hle
    · rw [Nat.min_eq_left hle]
    · rw [Nat.min_eq_right hle, List.drop_length, List.drop_eq_nil_of_le hle]
  simp only [copy, fill, htake, hdrop]

/-- A write leaves what fits in the buffer, and fails if that is not all. -/
theorem copyAll_eq (s : Slice) (bs : Bytes) :
    s.copyAll bs = (decide (bs.length ≤ s.left.length), s.fill bs) := by
  fun_induction copyAll s bs with
  -- there is nothing to copy
  | case1 s => simp
  | case2 s b bs after hcopy =>
    -- nothing was copied, so that nothing was left
    rw [copy_eq, Prod.mk.injEq] at hcopy
    obtain ⟨hmin, rfl⟩ := hcopy
    rw [List.length_cons] at hmin ⊢
    rw [decide_eq_false (by omega)]
  -- some bytes were copied, and the others are tried again
  | case3 s b bs n after hcopy hn ih =>
    rw [copy_eq, Prod.mk.injEq] at hcopy
    obtain ⟨rfl, rfl⟩ := hcopy
    rw [ih, length_left_fill, List.length_drop]
    -- all was copied, or the buffer is full; either way the rest adds nothing
    rcases Nat.le_total (b :: bs).length s.left.length with hle | hle
    · rw [Nat.min_eq_left hle, List.drop_length, fill_nil, Nat.sub_self, decide_eq_true hle,
        decide_eq_true (Nat.zero_le _)]
    · have hleft : (s.fill (b :: bs)).left = [] := List.drop_eq_nil_of_le hle
      rw [fill_of_left_eq_nil hleft, Nat.min_eq_right hle]
      congr 2
      rw [eq_iff_iff]
      omega

/-- What fields leave in a buffer that can all be written depends on their bytes alone. -/
theorem write_pieces (s : Slice) (pieces : List Bytes) :
    s.write (pieces.map .ok) =
      (if pieces.flatten.length ≤ s.left.length then none else some .sinkFull,
        s.fill pieces.flatten) := by
  induction pieces generalizing s with
  | nil => simp [write]
  | cons piece pieces ih =>
    -- an empty piece always fits, at the end of the buffer as well
    rw [List.map_cons, write, copyAll_eq, List.flatten_cons, List.length_append, fill_append]
    -- the first piece fits, and the others have the room that it leaves
    by_cases hroom : piece.length ≤ s.left.length
    · rw [decide_eq_true hroom]
      have hrest : pieces.flatten.length ≤ s.left.length - piece.length ↔
          piece.length + pieces.flatten.length ≤ s.left.length := by omega
      simp only [ih, length_left_fill, hrest]
    · -- the piece fills the buffer, and nothing comes behind it
      have hleft : (s.fill piece).left = [] := List.drop_eq_nil_of_le (by omega)
      rw [decide_eq_false hroom, fill_of_left_eq_nil hleft, if_neg (by omega)]

/-- A buffer that takes all bytes begins with them and is otherwise as it was; one that does not
holds as many of them as fit. -/
theorem bytes_fill_ofBytes (buffer bs : Bytes) :
    ((ofBytes buffer).fill bs).bytes = bs.take buffer.length ++ buffer.drop bs.length :=
  rfl

end Slice

/-! ### Sinks of fixed capacity -/

/-- Whether a sink has taken what a buffer has, and can take what the buffer can. -/
structure Sink.Fills (sink : Sink) (s : Slice) : Prop where
  capacity : sink.capacity = some s.bytes.length
  written : sink.written.toList = s.written

namespace Sink

variable {sink : Sink} {s : Slice}

/-- A sink of fixed capacity begins as a buffer of that size. -/
theorem fixed_fills (buffer : Bytes) : (fixed buffer.length).Fills (.ofBytes buffer) where
  capacity := rfl
  written := rfl

/-- A sink of fixed capacity takes bytes as a buffer does. -/
theorem put_fills (h : sink.Fills s) (bs : Bytes) :
    (sink.put bs).1 = (s.copyAll bs).1 ∧ (sink.put bs).2.Fills (s.copyAll bs).2 := by
  have hsize : sink.written.size = s.written.length := by
    rw [← h.written, Array.length_toList]
  -- the capacity that is left is the room that is left
  have haccepts : sink.accepts bs.length = min bs.length s.left.length := by
    simp only [accepts, h.capacity, hsize, Slice.bytes, List.length_append, Nat.add_sub_cancel_left]
  rw [s.copyAll_eq]
  simp only [put, haccepts]
  refine ⟨?_, ?_, ?_⟩
  · rw [decide_eq_decide]
    omega
  · rw [s.length_bytes_fill]
    exact h.capacity
  · rw [Array.toList_appendList, h.written, ← (Prod.mk.inj (s.copy_eq bs)).2]

/-- On any fields, a sink of fixed capacity fails as a buffer does, and takes what the buffer
takes. -/
theorem write_fills (h : sink.Fills s) (fields : List Field) :
    (sink.write fields).1 = (s.write fields).1 ∧
      (sink.write fields).2.Fills (s.write fields).2 := by
  induction fields generalizing sink s with
  | nil => exact ⟨rfl, h⟩
  | cons f fields ih =>
    cases f with
    | error e => exact ⟨rfl, h⟩
    | ok bs =>
      obtain ⟨hall, hfills⟩ := put_fills h bs
      rw [write, Slice.write]
      generalize sink.put bs = put at hall hfills
      generalize s.copyAll bs = copied at hall hfills
      obtain ⟨all, sink'⟩ := put
      obtain ⟨all', s'⟩ := copied
      -- both go on with the next field or both give up
      obtain rfl : all = all' := hall
      cases all with
      | true => exact ih hfills
      | false => exact ⟨rfl, hfills⟩

end Sink

/-! ### Closures -/

/-- What writing a closure into a buffer leaves in it, where the closure can be dumped. -/
theorem Slice.write_fields {c : Closure Bytes} {strip : Bool} {dumped : Bytes}
    (hdump : dump c strip = .ok dumped) (s : Slice) :
    s.write (c.fields strip) =
      (if dumped.length ≤ s.left.length then none else some .sinkFull, s.fill dumped) := by
  obtain ⟨pieces, hfields, rfl⟩ := spells_of_dump hdump
  rw [hfields, s.write_pieces]

/-- A writer to a sink of fixed capacity writes what a buffer takes, and fails as it does. -/
theorem Writer.write_fixed {c : Closure Bytes} {strip : Bool} {dumped : Bytes}
    (hdump : dump c strip = .ok dumped) (capacity : Nat) :
    (Writer.write ⟨.fixed capacity, strip⟩ c).1 =
        (if dumped.length ≤ capacity then none else some .sinkFull) ∧
      (Writer.write ⟨.fixed capacity, strip⟩ c).2.bytes = dumped.take capacity := by
  obtain ⟨buffer, rfl⟩ : ∃ buffer : Bytes, capacity = buffer.length :=
    ⟨List.replicate capacity 0, List.length_replicate.symm⟩
  obtain ⟨hfailure, hfills⟩ := Sink.write_fills (Sink.fixed_fills buffer) (c.fields strip)
  rw [Slice.write_fields hdump] at hfailure hfills
  exact ⟨hfailure, hfills.written⟩

/-- A closure that was loaded is written into a buffer of fixed size if and only if its dump fits.
The buffer then begins with the dump and is otherwise as it was, and one more chunk is counted. If
the dump does not fit, the write fails for want of room, the buffer holds as much of the dump as
fits, and nothing is counted. It does not matter into which pieces the dump is cut when it is
written. -/
theorem write_into_buffer (options : LoadOptions) (table : StringTable) (name : String) (bs : Bytes)
    (c : Closure StringHandle) (hlen : bs.length < 2 ^ 31)
    (hload : (load options table name bs).outcome = .ok c) (strip : Bool) :
    ∃ dumped, dump c.contents strip = .ok dumped ∧
      ∀ (buffer : Bytes) (counters : Counters),
        let inBuffer := (Slice.ofBytes buffer).write (c.contents.fields strip)
        let inSink := Writer.write ⟨.fixed buffer.length, strip⟩ c.contents
        inSink.1 = inBuffer.1 ∧ (inBuffer.1 = none ↔ dumped.length ≤ buffer.length) ∧
        (dumped.length ≤ buffer.length →
          inBuffer.2.bytes = dumped ++ buffer.drop dumped.length ∧ inSink.2.bytes = dumped ∧
          counters.afterWrite inBuffer.1 =
            { counters with chunksDumped := counters.chunksDumped + 1 }) ∧
        (buffer.length < dumped.length →
          inBuffer.1 = some .sinkFull ∧ inBuffer.2.bytes = dumped.take buffer.length ∧
          inSink.2.bytes = dumped.take buffer.length ∧
          counters.afterWrite inBuffer.1 = counters) ∧
        ∀ pieces : List Bytes, pieces.flatten = dumped →
          (Slice.ofBytes buffer).write (pieces.map .ok) = inBuffer := by
  have hdump := dump_eq_ok (wellFormed_of_load hlen hload).writable strip
  refine ⟨_, hdump, fun buffer counters => ?_⟩
  intro inBuffer inSink
  generalize (StoredChunk.ofClosure c.contents strip).bytes = dumped at hdump ⊢
  obtain ⟨hsink, hwritten⟩ := Writer.write_fixed hdump buffer.length
  have hbuffer : inBuffer = (if dumped.length ≤ buffer.length then none else some .sinkFull,
      (Slice.ofBytes buffer).fill dumped) := Slice.write_fields hdump (.ofBytes buffer)
  have hbytes : inBuffer.2.bytes = dumped.take buffer.length ++ buffer.drop dumped.length := by
    rw [hbuffer, Slice.bytes_fill_ofBytes]
  refine ⟨?_, ?_, fun hfits => ⟨?_, ?_, ?_⟩, fun hfull => ⟨?_, ?_, hwritten, ?_⟩,
    fun pieces hpieces => ?_⟩
  -- the sink fails as the buffer does
  · rw [hbuffer]
    exact hsink
  · rw [hbuffer]
    simp
  -- the dump fits
  · rw [hbytes, List.take_of_length_le hfits]
  · exact hwritten.trans (List.take_of_length_le hfits)
  · rw [hbuffer, if_pos hfits]
    rfl
  -- it does not
  · rw [hbuffer, if_neg (Nat.not_le_of_lt hfull)]
  · rw [hbytes, List.drop_eq_nil_of_le (Nat.le_of_lt hfull), List.append_nil]
  · rw [hbuffer, if_neg (Nat.not_le_of_lt hfull)]
    rfl
  -- the pieces are written as their bytes are
  · rw [Slice.write_pieces, hpieces, hbuffer]
    rfl

/-- The stripped dump of the sample in a buffer with a byte too much, and in one that ends inside
the dump. -/
theorem write_into_buffer_sample :
    let table := StringTable.empty 0
    let chunk := StoredChunk.sample
    let c := chunk.closure.map (table.internAll chunk.strings).handle
    (load {} table "sample" chunk.bytes).outcome = .ok c ∧ chunk.bytes.length < 2 ^ 31 ∧
      ∃ dumped, dump c.contents true = .ok dumped ∧ 100 < dumped.length ∧
        ((Slice.ofBytes (List.replicate (dumped.length + 1) 7)).write
          (c.contents.fields true)).2.bytes = dumped ++ [7] ∧
        (Writer.write ⟨.fixed 100, true⟩ c.contents).1 = some .sinkFull := by
  intro table chunk c
  have hload : (load {} table "sample" chunk.bytes).outcome = .ok c :=
    outcome_load_sample true table "sample"
  have hcontents : c.contents = chunk.closure := Closure.contents_map_handle ..
  obtain ⟨dumped, hdump, hwrite⟩ :=
    write_into_buffer {} table "sample" chunk.bytes c length_sample_lt hload true
  -- the length of the dump is known only by evaluating it
  have hlong : 100 < dumped.length := by
    have hlength : (dump chunk.closure true).toOption.map List.length = some 140 := by
      decide +kernel
    rw [← hcontents, hdump] at hlength
    rw [Option.some.inj hlength]
    decide
  obtain ⟨-, -, hfits, -⟩ := hwrite (List.replicate (dumped.length + 1) 7) {}
  obtain ⟨hsame, -, -, hfull, -⟩ := hwrite (List.replicate 100 0) {}
  refine ⟨hload, length_sample_lt, dumped, hdump, hlong, ?_, hsame.trans (hfull ?_).1⟩
  -- the buffer with a byte too much keeps that byte
  · rw [(hfits ?_).1, List.drop_replicate, Nat.add_sub_cancel_left]
    · rfl
    · rw [List.length_replicate]
      exact Nat.le_succ _
  · rwa [List.length_replicate]

end LuaChunk
