import LuaChunk.Proofs.ReadingChunks
import LuaChunk.Proofs.Unambiguity
import LuaChunk.Load

/-!
# What is accepted

Loading adds nothing to reading but a table for the strings, and the handles it gives out have the
contents they were made for. A buffer loads if and only if it begins with a chunk of the grammar;
which closure it loads to is settled by that chunk, and what stands behind the chunk plays no part.

## Key results

* `contents_map_handle`     the strings of a loaded closure are those of the chunk
* `outcome_load_append`     a buffer that begins with a chunk loads, whatever follows
* `exists_chunk_of_load`    a buffer that loads begins with a chunk
* `contents_of_load`        what holds of every chunk that fits holds of what is loaded
* `load_iff_describes`      the loader accepts exactly the grammar
-/

namespace LuaChunk

/-! ### Handles -/

/-- The handle of a string holds that string. -/
@[simp] theorem StringTable.content_handle (t : StringTable) (content : Bytes) :
    (t.handle content).content = content := by
  unfold StringTable.handle StringTable.intern
  split <;> rfl

/-- A constant whose string was replaced by its handle has the same contents. -/
@[simp] theorem Constant.map_content_map_handle (t : StringTable) (k : Constant Bytes) :
    (k.map t.handle).map StringHandle.content = k := by
  cases k <;> simp [Constant.map]

/-- So has a record. -/
theorem FunctionRecord.map_content_map_handle (t : StringTable) (r : FunctionRecord Bytes) :
    (r.map t.handle).map StringHandle.content = r := by
  simp [FunctionRecord.map, Function.comp_def]

/-- The strings of a loaded closure are those of the chunk. -/
theorem Closure.contents_map_handle (t : StringTable) (c : Closure Bytes) :
    (c.map t.handle).contents = c := by
  have h : (c.prototype.map t.handle).map StringHandle.content = c.prototype := by
    unfold Prototype.map
    rw [FunctionTree.mapRecords_mapRecords]
    exact FunctionTree.mapRecords_of_forall_eq (FunctionRecord.map_content_map_handle t) _
  exact congrArg (Closure.mk c.upvalueCount) h

/-! ### Loading -/

/-- What a load keeps of a closure. -/
def LoadOptions.keep (options : LoadOptions) (c : Closure Bytes) : Closure Bytes :=
  if options.keepDebug then c else c.dropDebug

/-- What is kept is the closure, or the closure without debug information. -/
@[elab_as_elim] theorem LoadOptions.keep_cases {motive : Closure Bytes → Prop}
    (options : LoadOptions) (c : Closure Bytes) (whole : motive c) (dropped : motive c.dropDebug) :
    motive (options.keep c) := by
  unfold keep
  split
  · exact whole
  · exact dropped

/-- What does not depend on debug information is told of a closure whether or not it is kept. -/
theorem LoadOptions.mapRecords_keep {ο : Type} {f : FunctionRecord Bytes → ο}
    (h : ∀ r : FunctionRecord Bytes, f r.dropDebug = f r) (options : LoadOptions)
    (c : Closure Bytes) :
    FunctionTree.mapRecords f (options.keep c).prototype =
      FunctionTree.mapRecords f c.prototype := by
  refine options.keep_cases c rfl ?_
  show FunctionTree.mapRecords f (FunctionTree.mapRecords _ c.prototype) = _
  simp only [FunctionTree.mapRecords_mapRecords, h]

variable {options : LoadOptions} {table : StringTable} {name : String}

/-- A chunk that is read loads, to what is kept of it. -/
theorem outcome_load_of_ok {bs : Bytes} {stored : Closure Bytes} {r : Reader}
    (h : Read.closure options.toReadOptions (Reader.ofBytes bs) = .ok stored r) :
    (load options table name bs).outcome =
      .ok ((options.keep stored).map (table.internAll r.strings).handle) := by
  simp only [load, h]
  rfl

/-- A chunk that is not read does not load, for the same cause. -/
theorem outcome_load_of_error {bs : Bytes} {cause : Cause} {r : Reader}
    (h : Read.closure options.toReadOptions (Reader.ofBytes bs) = .error cause r) :
    (load options table name bs).outcome = .error (.ofCause name cause) := by
  simp only [load, h]

/-- The contents of the string constants of a chunk, in the order in which they are read. -/
def StoredChunk.strings (chunk : StoredChunk) : List Bytes :=
  Reader.strings ⟨0, [], (Form.chunk 0).findings 0 chunk⟩

/-- A buffer that begins with a chunk loads, and to the same closure whatever follows. -/
theorem outcome_load_append (options : LoadOptions) (table : StringTable) (name : String)
    {chunk : StoredChunk} (h : (Form.chunk options.maxDepth).Fits chunk) (rest : Bytes) :
    (load options table name (chunk.bytes ++ rest)).outcome =
      .ok ((options.keep chunk.closure).map (table.internAll chunk.strings).handle) := by
  -- what is noted on the way does not depend on `rest`, and neither does the table
  have hread := (Read.closure_reads options.toReadOptions).takes chunk h 0 rest #[]
  rw [Array.empty_append] at hread
  exact (outcome_load_of_ok hread).trans rfl

/-- A buffer that loads begins with a chunk. -/
theorem exists_chunk_of_load {bs : Bytes} {loaded : Closure StringHandle}
    (h : (load options table name bs).outcome = .ok loaded) :
    ∃ chunk, (Form.chunk options.maxDepth).Fits chunk ∧
      loaded.contents = options.keep chunk.closure ∧ chunk.bytes <+: bs := by
  cases hread : Read.closure options.toReadOptions (Reader.ofBytes bs) with
  -- a chunk that is not read does not load
  | error cause r =>
    rw [outcome_load_of_error hread] at h
    contradiction
  -- what is read is a chunk, at the front of the buffer
  | ok stored r =>
    obtain ⟨chunk, hfits, rfl, hrest⟩ := (Read.closure_reads _).accepts hread
    rw [outcome_load_of_ok hread, Except.ok.injEq] at h
    refine ⟨chunk, hfits, ?_, r.rest, hrest.symm⟩
    rw [← h, Closure.contents_map_handle]
    rfl

/-- What is loaded is as every chunk at the front of the buffer is, if that does not depend on debug
information. -/
theorem contents_of_load {P : Closure Bytes → Prop} {bs : Bytes} {loaded : Closure StringHandle}
    (h : (load options table name bs).outcome = .ok loaded)
    (hchunk : ∀ chunk, (Form.chunk options.maxDepth).Fits chunk → chunk.bytes <+: bs →
      P chunk.closure)
    (hdrop : ∀ c, P c → P c.dropDebug) : P loaded.contents := by
  obtain ⟨chunk, hfits, hcontents, hprefix⟩ := exists_chunk_of_load h
  have hwhole := hchunk chunk hfits hprefix
  rw [hcontents]
  exact options.keep_cases chunk.closure hwhole (hdrop _ hwhole)

/-! ### The accepted buffers -/

/-- Whether a buffer begins with a chunk that stands for a closure and in which no function is
nested deeper than `limit`. -/
def Describes (limit : Nat) (bs : Bytes) (c : Closure Bytes) : Prop :=
  ∃ chunk, (Form.chunk limit).Fits chunk ∧ chunk.closure = c ∧ chunk.bytes <+: bs

/-- Loading with debug information accepts exactly the buffers that begin with a chunk. It gives the
one closure that the buffer describes, and gives it whatever follows the chunk. -/
theorem load_iff_describes (limit : Nat) (check : Bool) (table : StringTable) (name : String)
    (bs : Bytes) :
    let options : LoadOptions := { maxDepth := limit, checkCounts := check, keepDebug := true }
    (∀ c, (∃ loaded, (load options table name bs).outcome = .ok loaded ∧ loaded.contents = c) ↔
      Describes limit bs c) ∧
    (∀ c d, Describes limit bs c → Describes limit bs d → c = d) ∧
    (∀ chunk, (Form.chunk limit).Fits chunk → chunk.bytes <+: bs → ∀ rest,
      (load options table name (chunk.bytes ++ rest)).outcome =
        (load options table name bs).outcome) := by
  intro options
  refine ⟨fun c => ⟨?_, ?_⟩, ?_, ?_⟩
  -- what loads is described
  · rintro ⟨loaded, hload, rfl⟩
    obtain ⟨chunk, hfits, hcontents, hprefix⟩ := exists_chunk_of_load hload
    exact ⟨chunk, hfits, hcontents.symm, hprefix⟩
  -- what is described loads
  · rintro ⟨chunk, hfits, rfl, rest, rfl⟩
    exact ⟨_, outcome_load_append options table name hfits rest, Closure.contents_map_handle ..⟩
  -- two chunks that begin the same buffer are one
  · rintro _ _ ⟨chunk, hfits, rfl, rest, hrest⟩ ⟨chunk', hfits', rfl, rest', hrest'⟩
    rw [(StoredChunk.append_inj hfits.1 hfits'.1 (hrest.trans hrest'.symm)).1]
  -- what stands behind the chunk plays no part
  · rintro chunk hfits ⟨rest, rfl⟩ rest'
    rw [outcome_load_append options table name hfits, outcome_load_append options table name hfits]

/-! ### A sample -/

/-- A chunk that the writer would not write: nearly every phrase is in a form that it does not
choose. -/
def StoredChunk.sample : StoredChunk where
  upvalueCount := 2
  main := .node
    { source := ⟨some [0x40, 0x61], true⟩
      lineDefined := 0
      lastLineDefined := 0
      numParams := 0
      isVararg := 2
      maxStackSize := 2
      code := [⟨0x00800026⟩]
      constants := [.nil, .boolean 7, .float ⟨0x7FF8000000000001⟩, .integer (-1),
        .string true ⟨some [0x6B], false⟩, .string false ⟨none, false⟩]
      upvalues := [⟨1, 0⟩, ⟨0, 3⟩]
      lineInfo := [1]
      locals := [⟨⟨none, false⟩, 0, 1⟩]
      upvalueNames := [⟨some [], true⟩] }
    [.node
      { source := ⟨some [], false⟩
        lineDefined := 1
        lastLineDefined := 2
        numParams := 1
        isVararg := 0
        maxStackSize := 2
        code := []
        constants := []
        upvalues := []
        lineInfo := []
        locals := []
        upvalueNames := [] }
      []]

example : Describes 1 StoredChunk.sample.bytes StoredChunk.sample.closure :=
  ⟨_, by decide, rfl, List.prefix_refl _⟩

/-- The sample is short enough to be dumped again. -/
theorem length_sample_lt : StoredChunk.sample.bytes.length < 2 ^ 31 := by
  decide +kernel

/-- The sample loads, whatever the table and the name. -/
theorem outcome_load_sample (keepDebug : Bool) (table : StringTable) (name : String) :
    let options : LoadOptions := { keepDebug }
    (load options table name StoredChunk.sample.bytes).outcome =
      .ok ((options.keep StoredChunk.sample.closure).map
        (table.internAll StoredChunk.sample.strings).handle) := by
  intro options
  have hfits : (Form.chunk 200).Fits StoredChunk.sample := by decide
  have hload := outcome_load_append options table name hfits []
  rwa [List.append_nil] at hload

end LuaChunk
