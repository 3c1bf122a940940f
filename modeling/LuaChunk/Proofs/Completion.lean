import LuaChunk.Proofs.Noting

/-!
# What a failed read can be completed to

A read that fails has taken some bytes and noted something of them. The bytes need not be the front
of anything that could be read to its end: the last of them may be what is wrong. But all that was
noted was noted of bytes in front, and these can be completed, by a read without early checks, to
something that is read to its end.

## Key results

* `Completable.bind`       the law passes from two reads to one after the other
* `prototype_completable`  it holds of function records
* `parts_completable`      and of chunks up to the comparison of the number of upvalues
* `noted_of_ok`            what is noted of a chunk
* `noted_of_error`         what is noted of a buffer that is rejected is noted of some chunk's front
-/

namespace LuaChunk

namespace Read

variable {α β γ : Type}

/-- Whatever `x` notes before it fails, it notes of bytes with which something that it can read
begins. -/
structure Completable (x : Read α) : Prop where
  retraces : Retraces x x
  finishes : ∀ start, ∃ bs a notes, Takes x start bs a notes
  completes : ∀ {start bs findings cause r}, x ⟨start, bs, findings⟩ = .error cause r →
    ∃ front back a notes, front <+: bs ∧ Takes x start (front ++ back) a notes ∧
      ∃ cause' r', x ⟨start, front, findings⟩ = .error cause' r' ∧ r'.findings = r.findings

/-- What two reads note one after the other can be completed if what each of them notes can. -/
theorem Completable.bind {x : Read α} {f : α → Read γ} (hx : Completable x)
    (hf : ∀ a, Completable (f a)) : Completable (x >>= f) where
  retraces := hx.retraces.bind fun a => (hf a).retraces
  finishes start := by
    obtain ⟨bs, a, notes, htakes⟩ := hx.finishes start
    obtain ⟨cs, b, notes', htakes'⟩ := (hf a).finishes (start + bs.length)
    exact ⟨_, b, _, htakes.bind htakes'⟩
  completes {start bs findings cause r} h := by
    rcases bind_eq_error.1 h with h | ⟨a, between, hok, h⟩
    · -- what completes `x` is followed by something that `f` can read
      obtain ⟨front, back, a, notes, hfront, htakes, cause', r', herror, hsame⟩ := hx.completes h
      obtain ⟨cs, b, notes', htakes'⟩ := (hf a).finishes (start + (front ++ back).length)
      refine ⟨front, back ++ cs, b, notes ++ notes', hfront, ?_, cause', r', ?_, hsame⟩
      · rw [← List.append_assoc]
        exact htakes.bind htakes'
      · exact bind_eq_error.2 (.inl herror)
    -- what `x` has taken stands in front of what completes `f`
    · obtain ⟨taken, rest, notes, rfl, rfl, htakes⟩ := hx.retraces.ok hok
      obtain ⟨front, back, b, notes', hfront, htakes', cause', r', herror, hsame⟩ :=
        (hf a).completes h
      refine ⟨taken ++ front, back, b, notes ++ notes', ?_, ?_, cause', r', ?_, hsame⟩
      · exact (List.prefix_append_right_inj taken).2 hfront
      · rw [List.append_assoc]
        exact htakes.bind htakes'
      · exact bind_eq_error.2 (.inr ⟨a, _, htakes front findings, herror⟩)

namespace Completable

/-- Of a read that notes nothing when it fails, nothing needs to be kept. -/
theorem of_failsQuietly {x : Read α} (hx : Retraces x x) (hend : FailsAtEnd x)
    (hquiet : FailsQuietly x) (hfinishes : ∀ start, ∃ bs a notes, Takes x start bs a notes) :
    Completable x where
  retraces := hx
  finishes := hfinishes
  completes {start bs findings cause r} h := by
    obtain ⟨whole, a, notes, htakes⟩ := hfinishes start
    obtain ⟨cause', hcause'⟩ := hend start findings
    exact ⟨[], whole, a, notes, List.nil_prefix, htakes, cause', _, hcause',
      (hquiet _ _ _ h).symm⟩

/-- A read of a fixed number of bytes is completed by any bytes of that number. -/
theorem piece {n : Nat} {x : Read α} (h : Piece n x) : Completable x where
  retraces := h.retraces
  finishes start := ⟨_, h.takes start (List.length_replicate (n := n) (a := 0))⟩
  completes {start bs findings cause r} herror := by
    obtain ⟨hlt, -, rfl⟩ := h.eq_of_error herror
    obtain ⟨cause', hcause'⟩ := h.failsAtEnd (Nat.zero_lt_of_lt hlt) start findings
    obtain ⟨a, notes, htakes⟩ := h.takes start (List.length_replicate (n := n) (a := 0))
    exact ⟨[], _, a, notes, List.nil_prefix, htakes, cause', _, hcause', rfl⟩

theorem pure (a : α) : Completable (pure a) :=
  .piece (pure_piece a)

theorem map {x : Read α} (hx : Completable x) (f : α → γ) : Completable (do return f (← x)) :=
  hx.bind fun _ => .pure _

theorem listOf {x : Read α} (hx : Completable x) (n : Nat) : Completable (listOf n x) := by
  induction n with
  | zero => exact .pure []
  | succ n ih =>
    rw [listOf_succ]
    exact hx.bind fun _ => ih.map _

theorem nat (width : Nat) : Completable (nat width) :=
  .map (.piece (raw_piece width)) _

/-- A counted sequence is completed if its entries are. -/
theorem counted {x : Read α} (hx : Completable x) (entrySize : Nat) :
    Completable (counted false entrySize x) := by
  rw [Read.counted, count_bind]
  exact (nat 4).bind hx.listOf

end Completable

/-- A count of zero is followed by nothing. -/
theorem counted_finishes (entrySize : Nat) (x : Read α) (start : Nat) :
    ∃ bs a notes, Takes (counted false entrySize x) start bs a notes := by
  have hcount : Takes (nat 4) start (Bytes.leBytes 4 0) 0 #[] := takes_nat (by decide) start
  rw [Read.counted, count_bind]
  exact ⟨_, [], _, hcount.bind (takes_pure _ [])⟩

/-- An absent string completes a read of a string. -/
theorem string_completable : Completable string :=
  .of_failsQuietly string_steps.retraces string_failsAtEnd string_quiet.failsQuietly
    fun start => ⟨_, _, _, string_reads.takes ⟨none, false⟩ (by decide) start⟩

theorem int_completable : Completable int :=
  (Completable.nat 4).map _

theorem byte_completable : Completable byte :=
  .piece byte_piece

theorem truth_completable : Completable truth :=
  byte_completable.map _

/-- The constant without a value completes a read of a constant. -/
theorem constant_completable : Completable constant :=
  .of_failsQuietly constant_steps.retraces constant_failsAtEnd constant_failsQuietly
    fun start => ⟨_, _, _, constant_reads.takes .nil trivial start⟩

theorem upvalue_completable : Completable upvalue :=
  truth_completable.bind fun _ => byte_completable.map _

/-- A local variable is completed by a name and two numbers. -/
theorem localVariable_completable : Completable localVariable :=
  string_completable.bind fun _ => int_completable.bind fun _ => int_completable.map _

/-- There may be no names at all, however many upvalues there are. -/
theorem upvalueNames_completable (options : ReadOptions) (us : List Upvalue) :
    Completable (upvalueNames options.unchecked us) := by
  refine .of_failsQuietly (upvalueNames_steps options us).right.retraces ?_
    (upvalueNames_quiet _ us).failsQuietly fun start => ?_
  · exact ((nat_failsAtEnd 3).bind _).bind _
  · have hnone : Form.string.counted.Fits [] := by decide
    exact ⟨_, _, _, takes_upvalueNames options.unchecked hnone (Nat.zero_le us.length) start⟩

/-- Where no record may be opened any more, there can still be no record. -/
theorem children_completable_zero (options : ReadOptions) :
    Completable (counted false minRecordSize (prototype options.unchecked 0)) := by
  refine .of_failsQuietly ?_ ?_ ?_ (counted_finishes minRecordSize _)
  · exact (counted_steps false minRecordSize (prototype_steps options 0)
      (prototype_failsAtEnd options.unchecked 0)).right.retraces
  · exact ((nat_failsAtEnd 3).bind _).bind _
  · exact (counted_quiet _ _ (Quiet.throw _)).failsQuietly

/-- A record can be completed if its children can. -/
theorem record_completable {options : ReadOptions} {room : Nat}
    (hchildren : Completable (counted false minRecordSize (prototype options.unchecked room))) :
    Completable (prototype options.unchecked (room + 1)) :=
  -- the fields in the order in which they are read
  .bind (.piece offset_piece) fun _ => string_completable.bind fun _ =>
    int_completable.bind fun _ => int_completable.bind fun _ => byte_completable.bind fun _ =>
    truth_completable.bind fun _ => byte_completable.bind fun _ =>
    (((Completable.nat 4).map _).counted 4).bind fun _ =>
    (constant_completable.counted 1).bind fun _ => (upvalue_completable.counted 2).bind fun _ =>
    hchildren.bind fun _ => (int_completable.counted 4).bind fun _ =>
    (localVariable_completable.counted 9).bind fun _ =>
    (upvalueNames_completable options _).bind fun _ => .bind (.piece (note_piece _)) fun _ =>
    .pure _

/-- A function record is completed as long as records may be opened. -/
theorem prototype_completable (options : ReadOptions) (room : Nat) :
    Completable (prototype options.unchecked (room + 1)) := by
  induction room with
  -- the innermost record has no children, as none may be opened
  | zero => exact record_completable (children_completable_zero options)
  | succ room ih => exact record_completable (ih.counted minRecordSize)

/-! ### Chunks -/

/-- What a successful read has taken, where it stops, and what it has noted. -/
theorem Reads.eq_of_ok {x : Read α} {F : Form β α} (hx : Reads x F) {start : Nat} {bs : Bytes}
    {findings : Array Finding} {a : α} {r : Reader} (hok : x ⟨start, bs, findings⟩ = .ok a r) :
    ∃ s, F.Fits s ∧ F.value s = a ∧ bs = F.bytes s ++ r.rest ∧
      r = ⟨start + (F.bytes s).length, r.rest, findings ++ F.findings start s⟩ := by
  obtain ⟨s, hs, rfl, hrest⟩ := hx.accepts hok
  have hbs : bs = F.bytes s ++ r.rest := hrest
  have htakes := hx.takes s hs start r.rest findings
  rw [← hbs, hok] at htakes
  exact ⟨s, hs, rfl, hbs, (EStateM.Result.ok.inj htakes).2⟩

/-- Bytes that are compared can be compared again on their own. -/
theorem literal_retraces (field : LiteralField) : Retraces (literal field) (literal field) where
  ok {start bs findings a r} hok := by
    -- they are the expected ones, whatever follows
    obtain ⟨s, hs, rfl, hbs, hr⟩ := (literal_reads field).eq_of_ok hok
    exact ⟨_, r.rest, _, hbs, hr, (literal_reads field).takes s hs start⟩
  error {start bs findings cause r} herror := by
    rw [literal_eq] at herror
    dsimp only at herror
    split at herror
    · exact nomatch herror
    · next hne =>
      -- the bytes that were compared differ on their own as well
      obtain ⟨-, rfl⟩ := EStateM.Result.error.inj herror
      refine ⟨bs.take field.expected.length, bs.drop field.expected.length, #[],
        (List.take_append_drop ..).symm, by simp [Reader.advance],
        .headerMismatch field field.expected (bs.take field.expected.length), ?_⟩
      rw [literal_eq]
      simp only [List.take_take, Nat.min_self, if_neg hne]
      simp [Reader.advance]

/-- The literals of a header are compared one after the other. -/
theorem literals_retraces : Retraces literals literals :=
  (literal_retraces _).bind fun _ => (literal_retraces _).bind fun _ =>
    (literal_retraces _).bind fun _ => literal_retraces _

/-- What was read of a chunk can be read again on its own without early checks. -/
theorem parts_retraces (options : ReadOptions) :
    Retraces (parts options) (parts options.unchecked) := by
  rw [parts_eq, parts_eq]
  exact literals_retraces.bind fun _ => (body_steps options).retraces

/-- A header is completed by the one header that there is. -/
theorem header_completable : Completable header := by
  refine .of_failsQuietly ?_ ?_ header_quiet.failsQuietly fun start =>
    ⟨_, _, _, header_reads.takes () trivial start⟩
  · rw [header_eq]
    exact literals_retraces.bind fun _ => layout_steps.retraces
  · exact fun start findings => ⟨_, rfl⟩

/-- What is noted of a chunk before it fails can be completed to a chunk. -/
theorem parts_completable (options : ReadOptions) : Completable (parts options.unchecked) :=
  header_completable.bind fun _ => byte_completable.bind fun _ =>
    (prototype_completable options options.maxDepth).map _

/-- What is noted of a chunk that is read to its end. -/
theorem noted_of_ok {options : ReadOptions} {bs : Bytes} {a : UInt8 × Prototype Bytes} {r : Reader}
    (hok : parts options (.ofBytes bs) = .ok a r) :
    ∃ chunk : StoredChunk, chunk.main.Fits ∧ chunk.main.height ≤ options.maxDepth ∧
      a = (chunk.upvalueCount, chunk.main.asStored) ∧ bs = chunk.bytes ++ r.rest ∧
      r.offset = chunk.bytes.length ∧ r.findings = chunk.marks.findings := by
  obtain ⟨front, rest, notes, rfl, rfl, htakes⟩ := (parts_retraces options).ok hok
  have hfront := htakes [] #[]
  obtain ⟨chunk, hmain, hheight, rfl, hbytes⟩ := parts_eq_ok hfront
  obtain rfl : front = chunk.bytes := List.append_cancel_right hbytes
  -- the notes are those of the chunk, since the same read takes the same bytes
  have hchunk := (parts_notesAt options hmain hheight).takes [] #[]
  obtain ⟨-, hr⟩ := EStateM.Result.ok.inj (hfront.symm.trans hchunk)
  have hfindings : #[] ++ notes = #[] ++ chunk.marks.findings := congrArg Reader.findings hr
  exact ⟨chunk, hmain, hheight, rfl, rfl, Nat.zero_add _, hfindings.trans Array.empty_append⟩

/-- What is noted before a chunk fails was noted of the front of some chunk. -/
theorem noted_of_error {options : ReadOptions} {bs : Bytes} {cause : Cause} {r : Reader}
    (herror : parts options (.ofBytes bs) = .error cause r) :
    ∃ chunk : StoredChunk, chunk.main.Fits ∧ chunk.main.height ≤ options.maxDepth ∧
      ∃ n < chunk.bytes.length, chunk.bytes.take n <+: bs.take r.offset ∧
        r.findings = chunk.marks.within n := by
  obtain ⟨taken, rest, notes, rfl, rfl, _, hfails⟩ := (parts_retraces options).error herror
  -- what was noted can be completed, and this is a chunk
  obtain ⟨front, back, a, notes', hfront, htakes, cause', r', hcut, hfindings⟩ :=
    (parts_completable options).completes hfails
  obtain ⟨chunk, hmain, hheight, -, hbytes⟩ := parts_eq_ok (htakes [] #[])
  have hchunk : front ++ back = chunk.bytes := List.append_cancel_right hbytes
  -- the front that has been noted, cut off the completed chunk, is where the failure is
  have htake : chunk.bytes.take front.length = front := by rw [← hchunk, List.take_left]
  have hnotes := parts_notesAt options hmain hheight
  have hlt : front.length < chunk.bytes.length := by
    -- a whole chunk would not have failed
    refine Nat.lt_of_not_le fun hle => ?_
    have hok := hnotes.takes [] #[]
    rw [List.append_nil, ← List.take_of_length_le hle, htake, hcut] at hok
    contradiction
  obtain ⟨_, _, hcut', hwithin⟩ := hnotes.cut hlt #[]
  rw [htake, hcut] at hcut'
  obtain ⟨-, rfl⟩ := EStateM.Result.error.inj hcut'
  rw [Array.empty_append, Nat.zero_add, hfindings] at hwithin
  refine ⟨chunk, hmain, hheight, front.length, hlt, ?_, hwithin⟩
  rw [htake, Nat.zero_add, List.take_left]
  exact hfront

/-- What is noted of a chunk that is read to a closure. -/
theorem noted_of_closure_ok {options : ReadOptions} {bs : Bytes} {stored : Closure Bytes}
    {r : Reader} (hok : closure options (.ofBytes bs) = .ok stored r) :
    ∃ chunk, (Form.chunk options.maxDepth).Fits chunk ∧ stored = chunk.closure ∧
      bs = chunk.bytes ++ r.rest ∧ r.findings = chunk.marks.findings := by
  rw [closure_eq] at hok
  -- the parts have been read, and the number of upvalues is right
  obtain ⟨a, between, hparts, hassemble⟩ := bind_eq_ok.1 hok
  obtain ⟨chunk, hmain, hheight, rfl, hbytes, -, hfindings⟩ := noted_of_ok hparts
  obtain ⟨hcount, rfl, rfl⟩ := assemble_eq_ok hassemble
  rw [chunk.main.length_upvalues_asStored] at hcount
  exact ⟨chunk, ⟨⟨hmain, hcount⟩, hheight⟩,
    congrArg (Closure.mk _) (chunk.main.inheritSources_asStored none), hbytes, hfindings⟩

end Read

end LuaChunk
