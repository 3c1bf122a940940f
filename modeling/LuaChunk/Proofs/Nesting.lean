import LuaChunk.Proofs.EarlyChecks
import LuaChunk.Proofs.RoundTrip

/-!
# The limit on nesting

The limit is looked at only where a function record begins. Under a smaller limit a buffer is read
in the same way, up to the first record that is nested too deep; whatever happens before that record
happens under every larger limit as well, and what is behind it does not matter. A chunk that loads
therefore has one least limit under which it loads, the height of its tree.

## Key results

* `prototype_agrees`    a record is read alike under two limits, or too deep for the smaller one
* `load_eq_or_tooDeep`  so is a buffer loaded
* `load_maxDepth`       what the limit decides of a load
-/

namespace LuaChunk

/-- The options with another limit on nesting. -/
def LoadOptions.withLimit (options : LoadOptions) (limit : Nat) : LoadOptions :=
  { options with maxDepth := limit }

namespace Read

/-- Where `room` records may be opened under the smaller limit, the larger one leaves room for as
many more as it is larger, and both count the same depth. -/
theorem prototype_agrees {options options' : ReadOptions} {more : Nat}
    (hlimit : options'.maxDepth = options.maxDepth + more)
    (hcheck : options'.checkCounts = options.checkCounts) {room : Nat}
    (hroom : room ≤ options.maxDepth + 1) :
    AgreesUnless (· = .nestingTooDeep options.maxDepth) (prototype options room)
      (prototype options' (room + more)) := by
  induction room with
  -- no record may be opened under the smaller limit
  | zero => exact fun r => .inr ⟨_, r, rfl, rfl⟩
  | succ room ih =>
    have hchildren : AgreesUnless (· = .nestingTooDeep options.maxDepth)
        (counted options.checkCounts minRecordSize (prototype options room))
        (counted options.checkCounts minRecordSize (prototype options' (room + more))) :=
      AgreesUnless.bind (.refl _) (.listOf (ih (Nat.le_of_succ_le hroom)))
    have hdepth : options'.maxDepth - (room + more) = options.maxDepth - room := by omega
    rw [Nat.add_right_comm, prototype, prototype, hdepth]
    unfold upvalueNames
    rw [hcheck]
    -- the fields in the order in which they are read; only the children differ
    exact .bind (.refl _) fun _ => .bind (.refl _) fun _ => .bind (.refl _) fun _ =>
      .bind (.refl _) fun _ => .bind (.refl _) fun _ => .bind (.refl _) fun _ =>
      .bind (.refl _) fun _ => .bind (.refl _) fun _ => .bind (.refl _) fun _ =>
      .bind (.refl _) fun _ => hchildren.bind fun _ => .refl _

/-- A chunk is read alike under two limits, or is nested too deep for the smaller one. -/
theorem closure_agrees {options options' : ReadOptions}
    (hlimit : options.maxDepth ≤ options'.maxDepth)
    (hcheck : options'.checkCounts = options.checkCounts) :
    AgreesUnless (· = .nestingTooDeep options.maxDepth) (closure options) (closure options') := by
  -- the main function is all that looks at the limit
  obtain ⟨more, hmore⟩ := Nat.exists_eq_add_of_le hlimit
  have hmain : AgreesUnless (· = .nestingTooDeep options.maxDepth) (mainFunction options)
      (mainFunction options') := by
    unfold mainFunction
    rw [hmore, Nat.add_right_comm]
    exact prototype_agrees hmore hcheck (Nat.le_refl _)
  exact .bind (.refl _) fun _ => .bind (.refl _) fun _ => hmain.bind fun _ => .refl _

end Read

/-- Under a smaller limit a load is the same, or it fails because the limit is passed. -/
theorem load_eq_or_tooDeep (options : LoadOptions) (table : StringTable) (name : String)
    (bs : Bytes) {limit limit' : Nat} (hle : limit ≤ limit') :
    load (options.withLimit limit) table name bs = load (options.withLimit limit') table name bs ∨
      (load (options.withLimit limit) table name bs).outcome =
        .error (.ofCause name (.nestingTooDeep limit)) := by
  have hagrees : Read.AgreesUnless (· = .nestingTooDeep limit)
      (Read.closure (options.withLimit limit).toReadOptions)
      (Read.closure (options.withLimit limit').toReadOptions) := Read.closure_agrees hle rfl
  rcases hagrees (.ofBytes bs) with heq | ⟨_, r, rfl, herror⟩
  · exact .inl (load_congr _ _ table name rfl heq)
  · exact .inr (outcome_load_of_error herror)

/-- A chunk that loads under one limit loads to the same closure under every limit that is not below
the height of the closure. -/
theorem outcome_load_withLimit {options : LoadOptions} {table : StringTable} {name : String}
    {bs : Bytes} {limit limit' : Nat} {c : Closure StringHandle}
    (h : (load (options.withLimit limit) table name bs).outcome = .ok c)
    (hheight : c.prototype.height ≤ limit') :
    (load (options.withLimit limit') table name bs).outcome = .ok c := by
  obtain ⟨chunk, hfits, hcontents, rest, rfl⟩ := exists_chunk_of_load h
  -- the closure is nested as deeply as the records of the chunk, whether or not it was changed
  have hmain : c.prototype.height = chunk.main.height := by
    rw [← c.height_contents, hcontents]
    refine LoadOptions.keep_cases _ chunk.closure (chunk.main.height_prototype none) ?_
    exact (FunctionTree.height_mapRecords ..).trans (chunk.main.height_prototype none)
  have hfits' : (Form.chunk limit').Fits chunk := ⟨hfits.1, hmain ▸ hheight⟩
  -- under both limits the closure is that of the chunk
  rw [outcome_load_append (options.withLimit limit) table name hfits] at h
  rw [outcome_load_append (options.withLimit limit') table name hfits', ← h]
  rfl

/-- What the limit on nesting decides of a load. A load that does not fail for its limit is the same
under every larger one: it has the same outcome, leaves the same table and tells of the same events.
A closure that loads under some limit loads under every limit that is not below its height, and
under a limit below that the load fails for the limit, and for nothing else. -/
theorem load_maxDepth (options : LoadOptions) (table : StringTable) (name : String) (bs : Bytes) :
    (∀ limit limit', limit ≤ limit' →
      (∀ error passed, (load (options.withLimit limit) table name bs).outcome = .error error →
        error.cause ≠ .nestingTooDeep passed) →
      load (options.withLimit limit') table name bs =
        load (options.withLimit limit) table name bs) ∧
    ∀ limit c, (load (options.withLimit limit) table name bs).outcome = .ok c → ∀ limit',
      (c.prototype.height ≤ limit' →
        (load (options.withLimit limit') table name bs).outcome = .ok c) ∧
      (limit' < c.prototype.height →
        (load (options.withLimit limit') table name bs).outcome =
          .error (.ofCause name (.nestingTooDeep limit'))) := by
  refine ⟨fun limit limit' hle hcause => ?_, fun limit c hload limit' =>
    ⟨outcome_load_withLimit hload, fun hlt => ?_⟩⟩
  -- a load that does not fail for its limit is the same under a larger one
  · rcases load_eq_or_tooDeep options table name bs hle with heq | herror
    · exact heq.symm
    · exact absurd rfl (hcause _ limit herror)
  -- a load under a limit below the height fails, since under it nothing so deep can load
  · have hheight : c.prototype.height ≤ limit := height_le_of_load hload
    rcases load_eq_or_tooDeep options table name bs (Nat.le_of_lt (Nat.lt_of_lt_of_le hlt hheight))
      with heq | herror
    · -- what loads under a limit keeps to it
      rw [← heq] at hload
      have hheight' : c.prototype.height ≤ limit' := height_le_of_load hload
      omega
    · exact herror

/-- A sample whose main function has one function inside it, read without a limit to speak of, with
the least limit and with one that is too small; and a signature that is wrong under every limit. -/
theorem load_maxDepth_sample :
    let options : LoadOptions := {}
    let table := StringTable.empty 0
    let chunk := StoredChunk.sample
    let c := chunk.closure.map (table.internAll chunk.strings).handle
    let wrong : LoadError := ⟨"wrong", .headerMismatch .signature Header.signature [0x1b, 0, 0, 0]⟩
    c.prototype.height = 1 ∧
      (load (options.withLimit 200) table "sample" chunk.bytes).outcome = .ok c ∧
      (load (options.withLimit 1) table "sample" chunk.bytes).outcome = .ok c ∧
      (load (options.withLimit 0) table "sample" chunk.bytes).outcome =
        .error (.ofCause "sample" (.nestingTooDeep 0)) ∧
      (load (options.withLimit 0) table "wrong" [0x1b, 0, 0, 0]).outcome = .error wrong ∧
      load (options.withLimit 7) table "wrong" [0x1b, 0, 0, 0] =
        load (options.withLimit 0) table "wrong" [0x1b, 0, 0, 0] := by
  intro options table chunk c wrong
  have hheight : c.prototype.height = 1 := by
    show (Prototype.map _ (chunk.main.prototype none)).height = 1
    rw [Prototype.map, FunctionTree.height_mapRecords, StoredFunction.height_prototype]
    decide
  have hload : (load (options.withLimit 200) table "sample" chunk.bytes).outcome = .ok c :=
    outcome_load_sample true table "sample"
  have hwrong : (load (options.withLimit 0) table "wrong" [0x1b, 0, 0, 0]).outcome = .error wrong :=
    rfl
  have hcause : ∀ error passed,
      (load (options.withLimit 0) table "wrong" [0x1b, 0, 0, 0]).outcome = .error error →
        error.cause ≠ .nestingTooDeep passed := by
    rintro error passed herror
    obtain rfl := Except.error.inj (hwrong.symm.trans herror)
    exact nofun
  obtain ⟨-, hlimits⟩ := load_maxDepth options table "sample" chunk.bytes
  exact ⟨hheight, hload, (hlimits 200 c hload 1).1 (Nat.le_of_eq hheight),
    (hlimits 200 c hload 0).2 (by rw [hheight]; exact Nat.one_pos), hwrong,
    (load_maxDepth options table "wrong" [0x1b, 0, 0, 0]).1 0 7 (Nat.zero_le 7) hcause⟩

end LuaChunk
