import LuaChunk.Proofs.WellFormed

/-!
# Dumping what was loaded

A closure that was loaded from a buffer of reasonable size is well-formed, so that its dump succeeds
and is its written form. Loading that form gives the closure back, or the stripped closure if the
dump was stripped, whenever the limit on nesting lets it.

## Key results

* `load_dump_append`       a dump of a well-formed closure loads to what was dumped
* `eq_of_dump_eq`          equal dumps are dumps of equal closures
* `dump_loaded`            loading, dumping and loading again is loading
* `stripped_dump_loaded`   a stripped dump shows what is left of a closure when it is stripped
-/

namespace LuaChunk

/-! ### What is loaded -/

@[simp] theorem Closure.height_contents (c : Closure StringHandle) :
    c.contents.prototype.height = c.prototype.height :=
  FunctionTree.height_mapRecords ..

@[simp] theorem Closure.strip_strip (c : Closure Bytes) : c.strip.strip = c.strip :=
  congrArg (Closure.mk c.upvalueCount) c.prototype.strip_strip

/-- A stripped closure has no debug information to drop. -/
theorem Closure.dropDebug_strip (c : Closure Bytes) : c.strip.dropDebug = c.strip :=
  congrArg (Closure.mk c.upvalueCount) c.prototype.dropDebug_strip

/-- There is nothing to keep of a stripped closure that stripping has not kept. -/
theorem LoadOptions.keep_strip (options : LoadOptions) (c : Closure Bytes) :
    options.keep c.strip = c.strip :=
  options.keep_cases c.strip rfl c.dropDebug_strip

section Loaded

variable {options : LoadOptions} {table : StringTable} {name : String} {bs : Bytes}
  {loaded : Closure StringHandle}

/-- A closure that was loaded from a buffer of reasonable size can be written and read back. -/
theorem wellFormed_of_load (hlen : bs.length < 2 ^ 31)
    (h : (load options table name bs).outcome = .ok loaded) : loaded.contents.WellFormed := by
  refine contents_of_load h (fun _ hfits hprefix => ?_) fun _ hc => hc.dropDebug
  exact wellFormed_closure hfits.1 (Nat.lt_of_le_of_lt hprefix.length_le hlen)

/-- A closure that was loaded is nested no deeper than was allowed. -/
theorem height_le_of_load (h : (load options table name bs).outcome = .ok loaded) :
    loaded.prototype.height ≤ options.maxDepth := by
  rw [← loaded.height_contents]
  refine contents_of_load (P := fun c => c.prototype.height ≤ options.maxDepth) h
    (fun chunk hfits _ => ?_) fun c hc => ?_
  · simpa [StoredChunk.closure] using hfits.2
  · simpa [Closure.dropDebug, Prototype.dropDebug] using hc

end Loaded

/-! ### Loading a dump -/

/-- A dump of a well-formed closure loads to the closure, stripped if the dump was, and whatever
follows it. -/
theorem load_dump_append {c : Closure Bytes} (h : c.WellFormed) {strip : Bool} {dumped : Bytes}
    (hdump : dump c strip = .ok dumped) (options : LoadOptions) (table : StringTable)
    (name : String) (hheight : c.prototype.height ≤ options.maxDepth) (rest : Bytes) :
    ∃ loaded, (load options table name (dumped ++ rest)).outcome = .ok loaded ∧
      loaded.contents = options.keep (if strip then c.strip else c) := by
  obtain rfl := bytes_ofClosure_of_dump (h.writable.stored strip) hdump
  have hload := outcome_load_append options table name (h.fits_ofClosure_of_height strip hheight)
    rest
  rw [h.closure_ofClosure strip] at hload
  exact ⟨_, hload, Closure.contents_map_handle ..⟩

/-- A well-formed closure has a dump, which loads to what was dumped. -/
theorem load_dump {c : Closure Bytes} (h : c.WellFormed) (strip : Bool) :
    ∃ dumped, dump c strip = .ok dumped ∧
      ∀ (options : LoadOptions) table name, c.prototype.height ≤ options.maxDepth →
        ∃ loaded, (load options table name dumped).outcome = .ok loaded ∧
          loaded.contents = options.keep (if strip then c.strip else c) := by
  have hdump := dump_eq_ok h.writable strip
  refine ⟨_, hdump, fun options table name hheight => ?_⟩
  have hload := load_dump_append h hdump options table name hheight []
  rwa [List.append_nil] at hload

/-- A dump tells all of a closure, or all that stripping leaves of it. -/
theorem eq_of_dump_eq {c d : Closure Bytes} (hc : c.WellFormed) (hd : d.WellFormed) (strip : Bool)
    (h : dump c strip = dump d strip) :
    (if strip then c.strip else c) = if strip then d.strip else d := by
  rw [dump_eq_ok hc.writable, dump_eq_ok hd.writable, Except.ok.injEq] at h
  -- equal bytes are one chunk, which stands for one closure
  have hchunk := StoredChunk.bytes_inj (hc.fits_ofClosure strip) (hd.fits_ofClosure strip) h
  have hclosure := congrArg StoredChunk.closure hchunk
  rwa [hc.closure_ofClosure, hd.closure_ofClosure] at hclosure

/-- Loading, dumping and loading again is loading. -/
theorem dump_loaded (options : LoadOptions) (table : StringTable) (name : String) (bs : Bytes)
    (c : Closure StringHandle) (hlen : bs.length < 2 ^ 31)
    (hload : (load options table name bs).outcome = .ok c) :
    ∃ dumped, dump c.contents false = .ok dumped ∧ c.prototype.height ≤ options.maxDepth ∧
      ∀ (options' : LoadOptions) table' name', options'.keepDebug = true →
        c.prototype.height ≤ options'.maxDepth →
          ∃ c', (load options' table' name' dumped).outcome = .ok c' ∧
            c'.contents = c.contents := by
  have hc := wellFormed_of_load hlen hload
  obtain ⟨dumped, hdump, hagain⟩ := load_dump hc false
  refine ⟨dumped, hdump, height_le_of_load hload, fun options' table' name' hkeep hheight => ?_⟩
  -- contents are nested as deeply as the closure, so that the limit is not passed
  rw [← c.height_contents] at hheight
  obtain ⟨c', hload', hcontents⟩ := hagain options' table' name' hheight
  refine ⟨c', hload', hcontents.trans ?_⟩
  rw [LoadOptions.keep, if_pos hkeep]
  rfl

/-- The sample, which is not in the form that the writer gives it. -/
theorem dump_loaded_sample :
    let table := StringTable.empty 0
    let c := StoredChunk.sample.closure.map (table.internAll StoredChunk.sample.strings).handle
    (load {} table "sample" StoredChunk.sample.bytes).outcome = .ok c ∧
      ∃ dumped, dump c.contents false = .ok dumped ∧ c.prototype.height ≤ 200 ∧
        ∃ c', (load {} table "dump" dumped).outcome = .ok c' ∧ c'.contents = c.contents := by
  intro table c
  have hload : (load {} table "sample" StoredChunk.sample.bytes).outcome = .ok c :=
    outcome_load_sample true table "sample"
  obtain ⟨dumped, hdump, hheight, hagain⟩ :=
    dump_loaded {} table "sample" _ c length_sample_lt hload
  exact ⟨hload, dumped, hdump, hheight, hagain {} table "dump" rfl hheight⟩

/-! ### Stripped dumps -/

/-- A stripped dump does not depend on what stripping takes away. -/
theorem dump_strip (c : Closure Bytes) : dump c.strip true = dump c true := by
  -- the writer strips what it is given, which a second time changes nothing
  have hfields : c.strip.fields true = c.fields true := by
    simp only [Closure.fields, Closure.strip, if_pos, Prototype.strip_strip]
  simp only [dump, Writer.write, hfields]

/-- A stripped dump of what was loaded loads to what stripping leaves, dumps to itself, and is equal
for two closures that were loaded if and only if stripping leaves the same of both. -/
theorem stripped_dump_loaded (options : LoadOptions) (table : StringTable) (name : String)
    (bs : Bytes) (c : Closure StringHandle) (hlen : bs.length < 2 ^ 31)
    (hload : (load options table name bs).outcome = .ok c) :
    (∃ dumped, dump c.contents true = .ok dumped ∧
      ∀ (options' : LoadOptions) table' name', c.prototype.height ≤ options'.maxDepth →
        ∃ c', (load options' table' name' dumped).outcome = .ok c' ∧
          c'.contents = c.contents.strip ∧ dump c'.contents true = .ok dumped) ∧
    (∀ (options' : LoadOptions) table' name' bs' c', bs'.length < 2 ^ 31 →
      (load options' table' name' bs').outcome = .ok c' →
        (dump c.contents true = dump c'.contents true ↔ c.contents.strip = c'.contents.strip)) := by
  have hc := wellFormed_of_load hlen hload
  constructor
  -- the stripped dump loads to what stripping leaves, and that is dumped alike
  · obtain ⟨dumped, hdump, hagain⟩ := load_dump hc true
    refine ⟨dumped, hdump, fun options' table' name' hheight => ?_⟩
    rw [← c.height_contents] at hheight
    obtain ⟨c', hload', hcontents⟩ := hagain options' table' name' hheight
    rw [if_pos rfl, LoadOptions.keep_strip] at hcontents
    refine ⟨c', hload', hcontents, ?_⟩
    rw [hcontents, dump_strip, hdump]
  -- equal dumps are those of equal remains, and the other way round
  · intro options' table' name' bs' c' hlen' hload'
    have hc' := wellFormed_of_load hlen' hload'
    refine ⟨eq_of_dump_eq hc hc' true, fun hstrip => ?_⟩
    rw [← dump_strip c.contents, hstrip, dump_strip]

/-- Two loads of the same chunk, with debug information and without. -/
theorem stripped_dump_loaded_sample :
    let table := StringTable.empty 0
    let chunk := StoredChunk.sample
    let c := chunk.closure.map (table.internAll chunk.strings).handle
    let d := chunk.closure.dropDebug.map (table.internAll chunk.strings).handle
    (load {} table "sample" chunk.bytes).outcome = .ok c ∧
      (load { keepDebug := false } table "sample" chunk.bytes).outcome = .ok d ∧
      (∃ dumped, dump c.contents true = .ok dumped ∧
        ∃ c', (load {} table "dump" dumped).outcome = .ok c' ∧
          c'.contents = c.contents.strip ∧ dump c'.contents true = .ok dumped) ∧
      dump c.contents true = dump d.contents true := by
  intro table chunk c d
  have hload : (load {} table "sample" chunk.bytes).outcome = .ok c :=
    outcome_load_sample true table "sample"
  have hload' : (load { keepDebug := false } table "sample" chunk.bytes).outcome = .ok d :=
    outcome_load_sample false table "sample"
  obtain ⟨⟨dumped, hdump, hagain⟩, hsame⟩ := stripped_dump_loaded {} table "sample" _ c
    length_sample_lt hload
  have hheight : c.prototype.height ≤ 200 := height_le_of_load hload
  refine ⟨hload, hload', ⟨dumped, hdump, hagain {} table "dump" hheight⟩, ?_⟩
  -- the two closures differ in nothing that stripping leaves
  refine (hsame _ table "sample" _ d length_sample_lt hload').2 ?_
  rw [Closure.contents_map_handle, Closure.contents_map_handle]
  exact congrArg (Closure.mk _) chunk.closure.prototype.strip_dropDebug.symm

end LuaChunk
