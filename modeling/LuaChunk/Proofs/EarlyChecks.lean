import LuaChunk.Proofs.Truncation

/-!
# Leaving out the early checks of counts

A count is checked against the rest of the buffer before any entry is read. With the checks and
without them the same buffers load, to the same closures and the same tables: a check fails only
where the entries could not all have been read. Without the checks a failure can come later and for
another cause, but only where there was a want of bytes with them.

## Key results

* `AgreesUnless.bind`     agreement but for some failures passes to one read after the other
* `Steps.failsFast`       where two reads differ, the one with the checks fails for want of bytes
* `closure_failsFast`     so do the reads of a whole chunk
* `closure_ok_unchecked`  without the checks no other buffers are accepted
* `load_checkCounts`      what the checks change of a load
-/

namespace LuaChunk

namespace Read

variable {α γ : Type}

/-- Whether `x` does as `y` does, except that it can fail for one of some causes where `y` goes
on. -/
def AgreesUnless (P : Cause → Prop) (x y : Read α) : Prop :=
  ∀ r, x r = y r ∨ ∃ cause r', P cause ∧ x r = .error cause r'

/-- A read does as it does itself. -/
theorem AgreesUnless.refl {P : Cause → Prop} (x : Read α) : AgreesUnless P x x :=
  fun _ => .inl rfl

theorem AgreesUnless.bind {P : Cause → Prop} {x y : Read α} {f g : α → Read γ}
    (hx : AgreesUnless P x y) (hf : ∀ a, AgreesUnless P (f a) (g a)) :
    AgreesUnless P (x >>= f) (y >>= g) := by
  intro r
  -- the first reads agree, and then both fail or both go on
  rcases hx r with heq | ⟨cause, r', hcause, herror⟩
  · cases hread : x r with
    | error cause r' =>
      left
      rw [bind_eq_error.2 (.inl hread), bind_eq_error.2 (.inl (heq ▸ hread))]
    | ok a r' =>
      have hread' : y r = .ok a r' := heq ▸ hread
      rw [bind_of_ok hread, bind_of_ok hread']
      exact hf a r'
  -- the first read fails for one of the causes, and so do both together
  · exact .inr ⟨cause, r', hcause, bind_eq_error.2 (.inl herror)⟩

/-- Reads that agree but for some failures do so entry by entry. -/
theorem AgreesUnless.listOf {P : Cause → Prop} {x y : Read α} (h : AgreesUnless P x y) (n : Nat) :
    AgreesUnless P (listOf n x) (listOf n y) := by
  induction n with
  | zero => exact .refl _
  | succ n ih =>
    rw [listOf_succ, listOf_succ]
    exact h.bind fun _ => ih.bind fun _ => .refl _

/-- Where the two reads differ, a check of `x` fails for want of bytes. -/
theorem Steps.failsFast {x y : Read α} (h : Steps x y) :
    AgreesUnless (∃ m n, · = .bufferUnderrun m n) x y := by
  induction h with
  | piece h => exact .refl _
  | throw hsettled hliteral => exact .refl _
  | bind _ _ ihx ihf => exact ihx.bind ihf
  | @check _ n x y hx hend ih =>
    intro r
    -- the check fails, for want of the bytes it asks for
    by_cases hlt : r.rest.length < n
    · right
      exact ⟨_, _, ⟨_, _, rfl⟩, bind_eq_error.2 (.inl (ensure_eq_error.2 ⟨hlt, rfl, rfl⟩))⟩
    -- the check succeeds without moving, and the reads go on alike
    · have hensure : ensure n r = .ok () r := ensure_eq_ok.2 ⟨Nat.le_of_not_lt hlt, rfl⟩
      rw [bind_of_ok hensure]
      exact ih r

/-- Where the reads of a chunk differ, the one with the checks fails for want of bytes. -/
theorem closure_failsFast (options : ReadOptions) :
    AgreesUnless (∃ m n, · = .bufferUnderrun m n) (closure options)
      (closure options.unchecked) := by
  rw [closure_eq, closure_eq, parts_eq, parts_eq]
  exact (AgreesUnless.bind (.refl literals) fun _ => (body_steps options).failsFast).bind
    fun parts => .refl (assemble parts)

/-- Without the checks no other buffers are accepted, since those that are begin with a chunk. -/
theorem closure_ok_unchecked {options : ReadOptions} {r r' : Reader} {c : Closure Bytes}
    (h : closure options.unchecked r = .ok c r') : closure options r = .ok c r' := by
  rcases closure_failsFast options r with heq | ⟨_, r'', -, hunderrun⟩
  -- what both accept is accepted in the same way
  · exact heq.trans h
  -- the chunk that was accepted fits, and so is read with the checks too
  · obtain ⟨chunk, hfits, -, hrest⟩ := (closure_reads options.unchecked).accepts h
    obtain ⟨start, bs, findings⟩ := r
    have hbs : bs = (Form.chunk options.maxDepth).bytes chunk ++ r'.rest := hrest
    have hok := (closure_reads options).takes chunk hfits start r'.rest findings
    rw [hbs] at hunderrun
    exact nomatch hok.symm.trans hunderrun

end Read

/-- A load depends on the reading of the buffer and on what is kept of it. -/
theorem load_congr (options options' : LoadOptions) (table : StringTable) (name : String)
    {bs : Bytes} (hkeep : options.keepDebug = options'.keepDebug)
    (hread : Read.closure options.toReadOptions (.ofBytes bs) =
      Read.closure options'.toReadOptions (.ofBytes bs)) :
    load options table name bs = load options' table name bs := by
  simp only [load, hread, hkeep]

/-- Without the checks a load does the same, or else it fails where the one with them fails for want
of bytes. -/
theorem load_eq_or_underrun (options : LoadOptions) (table : StringTable) (name : String)
    (bs : Bytes) :
    load options table name bs = load { options with checkCounts := false } table name bs ∨
      ∃ requested remaining error,
        (load options table name bs).outcome =
          .error (.ofCause name (.bufferUnderrun requested remaining)) ∧
        (load { options with checkCounts := false } table name bs).outcome = .error error := by
  rcases Read.closure_failsFast options.toReadOptions (.ofBytes bs) with
    heq | ⟨_, r, ⟨m, n, rfl⟩, hunderrun⟩
  -- both loads read the same
  · exact .inl (load_congr options { options with checkCounts := false } table name rfl heq)
  · right
    cases hread : Read.closure options.toReadOptions.unchecked (.ofBytes bs) with
    | ok stored r' =>
      -- a chunk that is there is read with the checks as well
      have hok : Read.closure options.toReadOptions (.ofBytes bs) = .ok stored r' :=
        Read.closure_ok_unchecked hread
      rw [hok] at hunderrun
      contradiction
    | error cause r' =>
      exact ⟨m, n, _, outcome_load_of_error hunderrun, outcome_load_of_error hread⟩

/-- With the early checks of counts and without them the same buffers load, with the same outcome
and the same table. What fails with them for any cause but a want of bytes fails in the same way
without them, and what fails for want of bytes fails in some way. -/
theorem load_checkCounts (options : LoadOptions) (table : StringTable) (name : String)
    (bs : Bytes) :
    let guarded := load { options with checkCounts := true } table name bs
    let unguarded := load { options with checkCounts := false } table name bs
    (∀ c, guarded.outcome = .ok c ↔ unguarded.outcome = .ok c) ∧
    (∀ c, guarded.outcome = .ok c → guarded.table = unguarded.table) ∧
    (∀ error, guarded.outcome = .error error →
      (∀ requested remaining, error.cause ≠ .bufferUnderrun requested remaining) →
        unguarded.outcome = .error error) ∧
    ∀ error requested remaining, guarded.outcome = .error error →
      error.cause = .bufferUnderrun requested remaining →
        ∃ error', unguarded.outcome = .error error' := by
  intro guarded unguarded
  have h : guarded = unguarded ∨ ∃ requested remaining error,
      guarded.outcome = .error (.ofCause name (.bufferUnderrun requested remaining)) ∧
      unguarded.outcome = .error error :=
    load_eq_or_underrun { options with checkCounts := true } table name bs
  rcases h with heq | ⟨m, n, error', hguarded, hunguarded⟩
  -- the reports are the same, and all else follows from that
  · rw [heq]
    exact ⟨fun _ => Iff.rfl, fun _ _ => rfl, fun _ herror _ => herror,
      fun error _ _ herror _ => ⟨error, herror⟩⟩
  -- both fail, the one with the checks for want of bytes
  · rw [hguarded, hunguarded]
    refine ⟨fun c => ⟨nofun, nofun⟩, fun c => nofun, fun error herror hcause => ?_,
      fun _ _ _ _ _ => ⟨error', rfl⟩⟩
    exact absurd (congrArg LoadError.cause (Except.error.inj herror)).symm (hcause m n)

/-- A chunk that loads, a signature that is wrong, and a record that ends behind a count of words
that is as large as it can be. -/
theorem load_checkCounts_sample :
    let table := StringTable.empty 0
    let chunk := StoredChunk.sample
    let c := chunk.closure.map (table.internAll chunk.strings).handle
    let wrong : LoadError := ⟨"wrong", .headerMismatch .signature Header.signature [0x1b, 0, 0, 0]⟩
    let cut := Header.bytes ++ List.replicate 13 0 ++ Bytes.leBytes 4 (2 ^ 32 - 1)
    ((load {} table "sample" chunk.bytes).outcome = .ok c ∧
      (load { checkCounts := false } table "sample" chunk.bytes).outcome = .ok c) ∧
    ((load {} table "wrong" [0x1b, 0, 0, 0]).outcome = .error wrong ∧
      (load { checkCounts := false } table "wrong" [0x1b, 0, 0, 0]).outcome = .error wrong) ∧
    (load {} table "cut" cut).outcome =
        .error ⟨"cut", .bufferUnderrun 17179869180 0⟩ ∧
      ∃ error, (load { checkCounts := false } table "cut" cut).outcome = .error error := by
  intro table chunk c wrong cut
  have hload : (load {} table "sample" chunk.bytes).outcome = .ok c :=
    outcome_load_sample true table "sample"
  have hwrong : (load {} table "wrong" [0x1b, 0, 0, 0]).outcome = .error wrong := rfl
  have hcut : (load {} (.empty 0) "cut"
      (Header.bytes ++ List.replicate 13 0 ++ Bytes.leBytes 4 (2 ^ 32 - 1))).outcome =
        .error ⟨"cut", .bufferUnderrun 17179869180 0⟩ := by rfl
  exact ⟨⟨hload, ((load_checkCounts {} table "sample" chunk.bytes).1 c).1 hload⟩,
    ⟨hwrong, (load_checkCounts {} table "wrong" _).2.2.1 wrong hwrong nofun⟩,
    hcut, (load_checkCounts {} table "cut" cut).2.2.2 _ _ _ hcut rfl⟩

end LuaChunk
