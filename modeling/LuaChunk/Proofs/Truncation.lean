import LuaChunk.Proofs.Extension
import Mathlib.Tactic.IntervalCases

/-!
# Reading a buffer that is cut short

A chunk that is cut anywhere before its end does not load. It cannot load, because it would load to
the same length with the missing bytes behind it; and it fails for want of bytes, because any other
failure would remain. In front of the widths a cut shows as a literal that is too short.

## Key results

* `ignored_load_append`       a load takes a chunk and leaves what follows it
* `Steps.ne_headerMismatch`   behind the literals no header is compared any more
* `literals_take`             how a cut inside the literals shows
* `load_take`                 how a cut before the end of a chunk shows
-/

namespace LuaChunk

/-- How many bytes a load has left behind the main function. -/
def LoadReport.ignored (report : LoadReport) : Nat :=
  (report.events.map fun
    | .ignoring trailing => trailing
    | _ => 0).sum

/-- The literal field at an offset in front of the widths. -/
def LiteralField.at (offset : Nat) : LiteralField :=
  if offset < 4 then .signature else if offset < 5 then .version else if offset < 6 then .format
  else .tail

/-- Where a literal field begins. -/
def LiteralField.offset : LiteralField → Nat
  | signature => 0
  | version => 4
  | format => 5
  | tail => 6

/-- What a load leaves is told in its events, once. -/
theorem ignored_load_of_ok {options : LoadOptions} {table : StringTable} {name : String}
    {bs : Bytes} {stored : Closure Bytes} {r : Reader}
    (h : Read.closure options.toReadOptions (.ofBytes bs) = .ok stored r) :
    (load options table name bs).ignored = r.remaining := by
  -- the events of the records tell of no bytes that are left
  have hquiet : (r.records.map Event.readFunction).map (fun
      | .ignoring trailing => trailing
      | _ => 0) = List.replicate r.records.length 0 := by
    rw [List.map_map]
    exact List.map_const' ..
  simp only [load, h, LoadReport.ignored]
  by_cases hremaining : r.remaining = 0
  · simp [hremaining, hquiet]
  · simp [hremaining, hquiet]

/-- What stands behind a chunk is what a load leaves. -/
theorem ignored_load_append (options : LoadOptions) (table : StringTable) (name : String)
    {chunk : StoredChunk} (h : (Form.chunk options.maxDepth).Fits chunk) (rest : Bytes) :
    (load options table name (chunk.bytes ++ rest)).ignored = rest.length :=
  ignored_load_of_ok ((Read.closure_reads options.toReadOptions).takes chunk h 0 rest #[])

namespace Read

variable {α : Type}

/-- A read that is put together from steps never fails for a literal of the header. -/
theorem Steps.ne_headerMismatch {x y : Read α} (h : Steps x y) {r r' : Reader} {cause : Cause}
    (herror : x r = .error cause r') (field : LiteralField) (expected actual : Bytes) :
    cause ≠ .headerMismatch field expected actual := by
  induction h generalizing r r' with
  | piece h =>
    -- a piece fails for want of bytes
    obtain ⟨-, rfl, -⟩ := h.eq_of_error herror
    exact nofun
  | throw hsettled hliteral =>
    obtain ⟨rfl, -⟩ := EStateM.Result.error.inj herror
    exact hliteral field expected actual
  | bind _ _ ihx ihf =>
    -- the cause is that of the first read or of the second
    rcases bind_eq_error.1 herror with herror | ⟨a, between, -, herror⟩
    · exact ihx herror
    · exact ihf a herror
  | check _ _ ih =>
    rcases bind_eq_error.1 herror with herror | ⟨_, between, -, herror⟩
    -- an early check fails for want of bytes
    · obtain ⟨-, rfl, -⟩ := ensure_eq_error.1 herror
      exact nofun
    · exact ih herror

/-- A cut inside the literals shows in the one that it hits. -/
theorem literals_take {k : Nat} (hk : k < 12) :
    ∃ r, literals (.ofBytes (Header.bytes.take k)) =
      .error (.headerMismatch (.at k) (LiteralField.at k).expected
        ((Header.bytes.take k).drop (LiteralField.at k).offset)) r := by
  -- twelve cuts, each of which runs into its literal
  interval_cases k <;> exact ⟨_, rfl⟩

/-- The literals are the first twelve bytes of a header. -/
theorem takes_literals (start : Nat) : Takes literals start (Header.bytes.take 12) () #[] :=
  Takes.of_eq (((literal_reads .signature).takes () trivial start).bind <|
    ((literal_reads .version).takes () trivial _).bind <|
    ((literal_reads .format).takes () trivial _).bind <|
    (literal_reads .tail).takes () trivial _) rfl rfl rfl

/-- Behind the literals the read of a chunk never fails for one. -/
theorem closure_ne_headerMismatch {options : ReadOptions} {rest : Bytes} {r : Reader}
    {cause : Cause}
    (herror : closure options (.ofBytes (Header.bytes.take 12 ++ rest)) = .error cause r)
    (field : LiteralField) (expected actual : Bytes) :
    cause ≠ .headerMismatch field expected actual := by
  rw [closure_eq, parts_eq] at herror
  -- the header and what follows, or the comparison of upvalues
  rcases bind_eq_error.1 herror with herror | ⟨parts, _, -, herror⟩
  · have hliterals := takes_literals 0 rest #[]
    rcases bind_eq_error.1 herror with herror | ⟨_, _, -, herror⟩
    · exact nomatch herror.symm.trans hliterals
    · exact (body_steps options).ne_headerMismatch herror field expected actual
  · exact (assemble_steps parts).ne_headerMismatch herror field expected actual

/-- How a cut before the end of a chunk shows: inside the literals in the one that it hits, and
behind them as a want of bytes. -/
theorem closure_take {options : ReadOptions} {bs : Bytes} {stored : Closure Bytes} {r : Reader}
    (hok : closure options (.ofBytes bs) = .ok stored r) {k : Nat}
    (hk : k < bs.length - r.remaining) :
    ∃ cause r', closure options (.ofBytes (bs.take k)) = .error cause r' ∧
      (k < 12 → cause = .headerMismatch (.at k) (LiteralField.at k).expected
        ((bs.take k).drop (LiteralField.at k).offset)) ∧
      (12 ≤ k → ∃ requested remaining, remaining < requested ∧
        cause = .bufferUnderrun requested remaining) := by
  obtain ⟨chunk, -, -, hrest⟩ := (closure_reads options).accepts hok
  have hbs : bs = Header.bytes ++ (chunk.upvalueCount :: chunk.main.bytes ++ r.rest) := by
    rw [← List.append_assoc]
    exact hrest
  have hlen : Header.bytes.length = 29 := rfl
  rcases Nat.lt_or_ge k 12 with hlt | hle
  -- inside the literals the cut hits the same bytes as in a header that stands alone
  · have htake : bs.take k = Header.bytes.take k := by
      rw [hbs]
      exact List.take_append_of_le_length (by omega)
    obtain ⟨r', hliterals⟩ := literals_take hlt
    refine ⟨_, r', ?_, fun _ => rfl, fun hle => absurd hlt (Nat.not_lt.2 hle)⟩
    rw [closure_eq, parts_eq, htake]
    exact bind_eq_error.2 (.inl (bind_eq_error.2 (.inl hliterals)))
  -- behind them, a cause that more bytes can remove
  · obtain ⟨cause, r', herror, hsettled, hroom⟩ := (closure_extensible options).error_of_take hok hk
    refine ⟨cause, r', herror, fun hlt => absurd hlt (Nat.not_lt.2 hle), fun _ => ?_⟩
    have htake : (bs.take k).take 12 = Header.bytes.take 12 := by
      rw [List.take_take, Nat.min_eq_left hle, hbs]
      exact List.take_append_of_le_length (by omega)
    rw [← List.take_append_drop 12 (bs.take k), htake] at herror
    -- what more bytes can remove is a literal cut short or a want of bytes
    cases cause with
    | headerMismatch field expected actual =>
      exact absurd rfl (closure_ne_headerMismatch herror field expected actual)
    | bufferUnderrun m n => exact ⟨m, n, hroom m n rfl, rfl⟩
    | _ => exact absurd trivial hsettled

end Read

/-- A chunk that is cut anywhere before its end does not load. A cut inside the literals of the
header shows in the literal that it hits, with what is left of it; any other cut shows as a want of
bytes. -/
theorem load_take (options : LoadOptions) (table : StringTable) (name : String) (bs : Bytes)
    (c : Closure StringHandle) (hload : (load options table name bs).outcome = .ok c) (k : Nat)
    (hk : k < bs.length - (load options table name bs).ignored) :
    ∃ cause, (load options table name (bs.take k)).outcome = .error (.ofCause name cause) ∧
      (k < 4 → cause = .headerMismatch .signature Header.signature (bs.take k)) ∧
      (k = 4 → cause = .headerMismatch .version [Header.version] []) ∧
      (k = 5 → cause = .headerMismatch .format [Header.format] []) ∧
      (6 ≤ k → k < 12 → cause = .headerMismatch .tail Header.tail ((bs.take k).drop 6)) ∧
      (12 ≤ k → ∃ requested remaining, remaining < requested ∧
        cause = .bufferUnderrun requested remaining) := by
  cases hread : Read.closure options.toReadOptions (.ofBytes bs) with
  | error cause r =>
    rw [outcome_load_of_error hread] at hload
    contradiction
  | ok stored r =>
    rw [ignored_load_of_ok hread] at hk
    obtain ⟨cause, r', herror, hliteral, hunderrun⟩ := Read.closure_take hread hk
    refine ⟨cause, outcome_load_of_error herror, fun hlt => ?_, ?_, ?_, fun hle hlt => ?_,
      hunderrun⟩
    -- in the signature, which begins with the buffer
    · have hat : LiteralField.at k = .signature := if_pos hlt
      rw [hliteral (by omega), hat]
      rfl
    -- in front of the version, so that nothing of it is left
    · rintro rfl
      rw [hliteral (by decide)]
      exact congrArg _ (List.drop_eq_nil_of_le (List.length_take_le 4 bs))
    -- in front of the format
    · rintro rfl
      rw [hliteral (by decide)]
      exact congrArg _ (List.drop_eq_nil_of_le (List.length_take_le 5 bs))
    -- in the bytes that are compared last
    · have hat : LiteralField.at k = .tail := by
        rw [LiteralField.at, if_neg (by omega), if_neg (by omega), if_neg (by omega)]
      rw [hliteral hlt, hat]
      rfl

/-- A sample with two bytes behind it, cut in the middle. -/
theorem load_take_sample :
    let table := StringTable.empty 0
    let bs := StoredChunk.sample.bytes ++ [0, 0]
    let c := StoredChunk.sample.closure.map (table.internAll StoredChunk.sample.strings).handle
    (load {} table "sample" bs).outcome = .ok c ∧
      60 < bs.length - (load {} table "sample" bs).ignored ∧
      ∃ cause, (load {} table "sample" (bs.take 60)).outcome = .error (.ofCause "sample" cause) ∧
        ∃ requested remaining, remaining < requested ∧
          cause = .bufferUnderrun requested remaining := by
  intro table bs c
  have hfits : (Form.chunk 200).Fits StoredChunk.sample := by decide
  have hload : (load {} table "sample" bs).outcome = .ok c :=
    outcome_load_append {} table "sample" hfits [0, 0]
  have hk : 60 < bs.length - (load {} table "sample" bs).ignored := by decide +kernel
  obtain ⟨cause, herror, -, -, -, -, hunderrun⟩ := load_take {} table "sample" bs c hload 60 hk
  exact ⟨hload, hk, cause, herror, hunderrun (by decide)⟩

end LuaChunk
