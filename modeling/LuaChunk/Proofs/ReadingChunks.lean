import LuaChunk.Proofs.ReadingRecords

/-!
# Reading chunks

The reads of headers and of whole chunks follow their rules of the grammar. A header is one fixed
string of bytes, although its parts are checked in different ways: the widths as a whole, and the
samples by their values.

## Key results

* `header_reads`        what `Read.header` accepts is the one header that there is
* `closure_reads`       what `Read.closure` accepts are the stored forms of chunks
-/

namespace LuaChunk

namespace Read

/-! ### Headers -/

/-- What is read where fixed bytes are expected are those bytes. -/
theorem literal_reads (field : LiteralField) :
    Reads (literal field) (Form.literal field.expected) where
  takes _ _ start := by
    have h : Takes (upTo field.expected.length) start field.expected field.expected #[] := by
      intro rest findings
      simp [upTo, Reader.advance]
    refine (h.bind (f := fun actual => if actual ≠ field.expected then _ else pure ()) ?_).of_eq
      (List.append_nil _) rfl Array.append_empty
    rw [if_neg (not_not_intro rfl)]
    exact takes_pure _ ()
  accepts {r a r'} h := by
    obtain ⟨actual, _, hactual, h⟩ := bind_eq_ok.1 h
    simp only [upTo, EStateM.Result.ok.injEq] at hactual
    obtain ⟨rfl, rfl⟩ := hactual
    -- a buffer that ends too early gives fewer bytes, which differ as well
    by_cases heq : r.rest.take field.expected.length = field.expected
    · rw [if_neg (not_not_intro heq)] at h
      obtain ⟨-, rfl⟩ := pure_eq_ok.1 h
      refine ⟨(), trivial, rfl, ?_⟩
      calc r.rest
        _ = r.rest.take field.expected.length ++ r.rest.drop field.expected.length :=
          (List.take_append_drop ..).symm
        _ = field.expected ++ r.rest.drop field.expected.length := by rw [heq]
    -- any other bytes are turned down
    · rw [if_pos heq] at h
      exact absurd h throw_ne_ok

/-- The bytes that declare widths are taken as these widths. -/
theorem takes_widths (declared : Header) (start : Nat) :
    Takes widths start declared.toBytes declared #[] := by
  intro rest findings
  simp [widths, Header.toBytes, Reader.advance]

/-- Widths that are read stood in the buffer as they are declared. -/
theorem widths_eq_ok {declared : Header} {r r' : Reader} (h : widths r = .ok declared r') :
    r.rest = declared.toBytes ++ r'.rest := by
  simp only [widths] at h
  split at h
  · next hrest =>
    simp only [EStateM.Result.ok.injEq] at h
    obtain ⟨rfl, rfl⟩ := h
    exact hrest
  -- five bytes are not left
  · simp [underrun] at h

/-- No widths but the standard ones pass. -/
theorem checkWidths_eq_ok {declared : Header} {r r' : Reader} :
    checkWidths declared r = .ok () r' ↔ declared = Header.standard ∧ r = r' := by
  constructor
  · intro h
    cases hfind : WidthField.all.find?
        fun field => declared.width field != Header.standard.width field with
    -- a width that differs is reported
    | some field =>
      simp only [checkWidths, hfind] at h
      exact absurd h throw_ne_ok
    | none =>
      -- no width differs
      simp only [checkWidths, hfind] at h
      have hwidth : ∀ field ∈ WidthField.all,
          declared.width field = Header.standard.width field := by
        intro field hfield
        simpa using List.find?_eq_none.1 hfind field hfield
      simp only [WidthField.all, List.forall_mem_cons, Header.width] at hwidth
      obtain ⟨hint, hsizeT, hinstruction, hinteger, hnumber, -⟩ := hwidth
      obtain ⟨_, _, _, _, _⟩ := declared
      simp only at hint hsizeT hinstruction hinteger hnumber
      subst hint hsizeT hinstruction hinteger hnumber
      exact ⟨rfl, (pure_eq_ok.1 h).2⟩
  -- the standard widths pass all checks
  · rintro ⟨rfl, rfl⟩
    rfl

/-- Reads what follows the widths of a header. -/
private def samples (declared : Header) : Read Header := do
  if (← integer) ≠ Header.sampleInteger then throw .endiannessMismatch
  if !(← number).numEq Header.sampleNumber then throw .floatFormatMismatch
  return declared

/-- The integer sample as it stands in four bytes. -/
private def storedInteger : Int32 :=
  Header.sampleInteger.toInt32

/-- The two samples, as a chunk has them, are taken and pass the checks. -/
private theorem takes_samples (declared : Header) (start : Nat) :
    Takes (samples declared) start
      (Form.int.bytes storedInteger ++ Form.number.bytes Header.sampleNumber) declared #[] := by
  have hinteger : Takes integer start (Form.int.bytes storedInteger) Header.sampleInteger #[] :=
    (int_reads.takes storedInteger trivial start).map Int32.toInt64
  have hsame : ¬(!(Form.number.value Header.sampleNumber).numEq Header.sampleNumber) = true := by
    decide
  unfold samples
  -- the integer, which is the expected one
  refine (hinteger.bind ?_).of_eq rfl rfl Array.append_empty
  dsimp only
  rw [if_neg (not_not_intro rfl)]
  -- the number, of which the same is true
  refine ((number_reads.takes Header.sampleNumber trivial _).bind ?_).of_eq (List.append_nil _) rfl
    Array.append_empty
  rw [if_neg hsame]
  exact takes_pure _ declared

/-- No pattern equals the sample but its own: the sample is neither a zero nor a NaN. -/
theorem numEq_sampleNumber_iff (x : Binary64) :
    x.numEq Header.sampleNumber = true ↔ x = Header.sampleNumber := by
  constructor
  -- zeros are equal although they differ, but the sample is none
  · intro h
    have hzero : Header.sampleNumber.isZero = false := by decide
    simp only [Binary64.numEq, hzero, Bool.and_false, Bool.or_false, Bool.and_eq_true,
      beq_iff_eq] at h
    exact h.2
  · rintro rfl
    decide

/-- The samples are accepted in one pattern only. -/
private theorem samples_eq_ok {declared h : Header} {r r' : Reader}
    (hok : samples declared r = .ok h r') :
    declared = h ∧ r.rest =
      Form.int.bytes storedInteger ++ Form.number.bytes Header.sampleNumber ++ r'.rest := by
  obtain ⟨n, _, hinteger, hok⟩ := bind_eq_ok.1 hok
  by_cases hn : n = Header.sampleInteger
  -- the integer is right, so it is the number that decides
  · simp only [hn, ne_eq, not_true_eq_false, if_false] at hok
    obtain ⟨x, _, hnumber, hok⟩ := bind_eq_ok.1 hok
    cases hx : x.numEq Header.sampleNumber with
    | false =>
      simp only [hx, Bool.not_false, if_true] at hok
      obtain ⟨_, _, hthrow, _⟩ := bind_eq_ok.1 hok
      exact absurd hthrow throw_ne_ok
    | true =>
      simp only [hx, Bool.not_true, Bool.false_eq_true, if_false] at hok
      obtain ⟨rfl, rfl⟩ := pure_eq_ok.1 hok
      have heq : x = Header.sampleNumber := (numEq_sampleNumber_iff x).1 hx
      -- both samples are read back to the bytes that they have in a chunk
      obtain ⟨i, hi, rfl⟩ := map_eq_ok.1 hinteger
      obtain ⟨i, _, rfl, hrest⟩ := int_reads.accepts hi
      obtain ⟨x, _, rfl, hrest'⟩ := number_reads.accepts hnumber
      have hstored : i = storedInteger := by
        rw [storedInteger, ← hn]
        exact (Int32.toInt32_toInt64 i).symm
      subst heq hstored
      refine ⟨rfl, ?_⟩
      rw [hrest, hrest', List.append_assoc]
  -- another integer is a chunk of the other byte order
  · simp only [ne_eq, hn, not_false_eq_true, if_true] at hok
    obtain ⟨_, _, hthrow, _⟩ := bind_eq_ok.1 hok
    exact absurd hthrow throw_ne_ok

/-- What `Read.header` accepts is the one header that there is. -/
theorem header_reads : Reads header Form.header where
  takes _ _ start := by
    refine Takes.of_eq (((literal_reads .signature).takes () trivial start).bind <|
      ((literal_reads .version).takes () trivial _).bind <|
      ((literal_reads .format).takes () trivial _).bind <|
      ((literal_reads .tail).takes () trivial _).bind <|
      (takes_widths Header.standard _).bind <|
      (takes_pure _ ()).bind <| takes_samples Header.standard _) ?_ rfl rfl
    rfl
  accepts {r h r'} hok := by
    -- the four literals, the widths, their check and the samples have succeeded
    obtain ⟨_, _, hsignature, hok⟩ := bind_eq_ok.1 hok
    obtain ⟨_, _, hversion, hok⟩ := bind_eq_ok.1 hok
    obtain ⟨_, _, hformat, hok⟩ := bind_eq_ok.1 hok
    obtain ⟨_, _, htail, hok⟩ := bind_eq_ok.1 hok
    obtain ⟨declared, _, hwidths, hok⟩ := bind_eq_ok.1 hok
    obtain ⟨_, _, hcheck, hok⟩ := bind_eq_ok.1 hok
    obtain ⟨rfl, rfl⟩ := checkWidths_eq_ok.1 hcheck
    obtain ⟨rfl, hrest⟩ := samples_eq_ok hok
    -- so each of them is what stands in the header
    obtain ⟨_, _, -, hrest₁⟩ := (literal_reads _).accepts hsignature
    obtain ⟨_, _, -, hrest₂⟩ := (literal_reads _).accepts hversion
    obtain ⟨_, _, -, hrest₃⟩ := (literal_reads _).accepts hformat
    obtain ⟨_, _, -, hrest₄⟩ := (literal_reads _).accepts htail
    refine ⟨(), trivial, rfl, ?_⟩
    rw [hrest₁, hrest₂, hrest₃, hrest₄, widths_eq_ok hwidths, hrest]
    rfl

/-! ### Closures -/

/-- What is read as a main function are records at depth zero. -/
theorem mainFunction_reads (options : ReadOptions) :
    Reads (mainFunction options) (Form.function 0 (options.maxDepth + 1)) :=
  prototype_reads (Nat.zero_add _)

/-- Ends the read of a chunk whose parts are known. -/
private def close (declared : UInt8) (main : Prototype Bytes) : Read (Closure Bytes) := do
  let actual := main.record.upvalues.length
  if declared.toNat ≠ actual then
    throw (.upvalueCountMismatch declared.toNat actual)
  return ⟨declared, main.inheritSources none⟩

/-- A chunk whose upvalues are as many as declared is closed with its sources resolved. -/
private theorem close_of_eq {declared : UInt8} {main : Prototype Bytes}
    (h : declared.toNat = main.record.upvalues.length) :
    close declared main = pure ⟨declared, main.inheritSources none⟩ := by
  unfold close
  dsimp only
  rw [if_neg (not_not_intro h)]

/-- A chunk can only be closed if its upvalues are as many as declared. -/
private theorem close_eq_ok {declared : UInt8} {main : Prototype Bytes} {c : Closure Bytes}
    {r r' : Reader} (h : close declared main r = .ok c r') :
    declared.toNat = main.record.upvalues.length ∧ ⟨declared, main.inheritSources none⟩ = c ∧
      r = r' := by
  by_cases heq : declared.toNat = main.record.upvalues.length
  -- as many as declared, so that the closure is given back
  · rw [close_of_eq heq] at h
    exact ⟨heq, pure_eq_ok.1 h⟩
  -- any other number is refused
  · unfold close at h
    dsimp only at h
    rw [if_pos heq] at h
    obtain ⟨_, _, hthrow, _⟩ := bind_eq_ok.1 h
    exact absurd hthrow throw_ne_ok

/-- What `Read.closure` accepts are the stored forms of chunks. -/
theorem closure_reads (options : ReadOptions) :
    Reads (closure options) (Form.chunk options.maxDepth) where
  takes chunk h start := by
    obtain ⟨⟨hmain, hcount⟩, hheight⟩ := h
    have hclose : ∀ start, Takes (close chunk.upvalueCount chunk.main.asStored) start []
        chunk.closure #[] := by
      intro start
      -- the upvalues are counted before the sources are resolved
      rw [close_of_eq (hcount.trans chunk.main.length_upvalues_asStored.symm),
        chunk.main.inheritSources_asStored]
      exact takes_pure start chunk.closure
    refine Takes.of_eq ((header_reads.takes () trivial start).bind <|
      (byte_reads.takes chunk.upvalueCount trivial _).bind <|
      ((mainFunction_reads options).takes chunk.main
        ⟨hmain, Nat.lt_succ_of_le hheight⟩ _).bind <| hclose _) ?_ rfl ?_
    · exact congrArg (Header.bytes ++ chunk.upvalueCount :: ·) (List.append_nil _)
    · show #[] ++ (#[] ++ (_ ++ #[])) = _
      rw [Array.append_empty, Array.empty_append, Array.empty_append]
      rfl
  accepts {r c r'} h := by
    -- the parts of a chunk in the order in which they are read
    obtain ⟨_, _, hheader, h⟩ := bind_eq_ok.1 h
    obtain ⟨_, _, hdeclared, h⟩ := bind_eq_ok.1 h
    obtain ⟨_, _, hmain, h⟩ := bind_eq_ok.1 h
    obtain ⟨hcount, rfl, rfl⟩ := close_eq_ok h
    -- each part is a form of its rule
    obtain ⟨_, _, -, hrest⟩ := header_reads.accepts hheader
    obtain ⟨declared, _, rfl, hrest'⟩ := byte_reads.accepts hdeclared
    obtain ⟨main, hfits, rfl, hrest''⟩ := (mainFunction_reads options).accepts hmain
    refine ⟨⟨declared, main⟩, ⟨⟨hfits.1, ?_⟩, Nat.le_of_lt_succ hfits.2⟩, ?_, ?_⟩
    · exact hcount.trans main.length_upvalues_asStored
    · exact congrArg (Closure.mk declared) (main.inheritSources_asStored none).symm
    · rw [hrest, hrest', hrest'']
      simp only [Form.chunk, StoredChunk.bytes, List.append_assoc, List.cons_append]
      rfl

end Read

end LuaChunk
