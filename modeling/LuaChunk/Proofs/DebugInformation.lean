import LuaChunk.Proofs.Representation

/-!
# Loading with debug information and without

Whether debug information is kept is of no matter to a load until the chunk has been read: the debug
sections are read and checked in either case, and what is not kept is taken out of the closure
afterwards. A closure without debug information can be dumped as it is, and its dump has none to
keep or to leave out.

## Key results

* `load_keepDebug_false`      a load without debug information, told by one that keeps it
* `withoutDebugOf_dropDebug`  what is left of a function differs in debug information alone
* `load_dump_dropDebug`       a dump of what is left loads to it, whichever way it is loaded
* `load_debug_projection`     loading without debug information projects what is loaded
-/

namespace LuaChunk

/-! ### Records that differ in debug information -/

/-- Whether two records agree in all but line information, local variables and the names of
upvalues. -/
structure FunctionRecord.AgreesButDebug {σ : Type} (r s : FunctionRecord σ) : Prop where
  source : s.source = r.source
  lineDefined : s.lineDefined = r.lineDefined
  lastLineDefined : s.lastLineDefined = r.lastLineDefined
  numParams : s.numParams = r.numParams
  isVararg : s.isVararg = r.isVararg
  maxStackSize : s.maxStackSize = r.maxStackSize
  code : s.code = r.code
  constants : s.constants = r.constants
  upvalues : s.upvalues.map (fun u => (u.inStack, u.index)) =
    r.upvalues.map fun u => (u.inStack, u.index)

/-- Dropping debug information changes nothing else of a record. -/
theorem FunctionRecord.agreesButDebug_dropDebug {σ : Type} (r : FunctionRecord σ) :
    r.AgreesButDebug r.dropDebug where
  source := rfl
  lineDefined := rfl
  lastLineDefined := rfl
  numParams := rfl
  isVararg := rfl
  maxStackSize := rfl
  code := rfl
  constants := rfl
  -- of upvalues only the names are debug information
  upvalues := List.map_map

/-- Whether a function is another one without debug information: a path that leads nowhere in one
leads nowhere in the other, and wherever it leads there are as many functions inside, and records
that differ in debug information alone, of which the first has none. -/
def Prototype.WithoutDebugOf {σ : Type} (q p : Prototype σ) : Prop :=
  ∀ path, Option.Rel
    (fun s t => t.children.length = s.children.length ∧ s.record.AgreesButDebug t.record ∧
      t.record.WithoutDebug)
    (p.at? path) (q.at? path)

/-- Wherever a path leads, what is left of a function differs in debug information alone. -/
theorem Prototype.withoutDebugOf_dropDebug {σ : Type} (p : Prototype σ) :
    p.dropDebug.WithoutDebugOf p := by
  intro path
  rw [dropDebug, FunctionTree.at?_mapRecords]
  cases p.at? path with
  | none => exact .none
  | some s =>
    refine .some ⟨?_, ?_, ?_⟩
    -- as many functions inside
    · rw [FunctionTree.children_mapRecords, List.length_map]
    -- and a record without debug information that otherwise agrees
    · rw [FunctionTree.record_mapRecords]
      exact s.record.agreesButDebug_dropDebug
    · rw [FunctionTree.record_mapRecords]
      exact s.record.withoutDebug_dropDebug

/-! ### Loading without debug information -/

/-- Debug information is dropped only once. -/
theorem Closure.dropDebug_dropDebug {σ : Type} (c : Closure σ) :
    c.dropDebug.dropDebug = c.dropDebug := by
  simp only [dropDebug, Prototype.dropDebug, FunctionTree.mapRecords_mapRecords,
    Prototype.dropDebug_dropDebug_record]

/-- It makes no difference whether strings are replaced before debug information is dropped or
after. -/
theorem Closure.dropDebug_map {σ τ : Type} (f : σ → τ) (c : Closure σ) :
    (c.map f).dropDebug = c.dropDebug.map f := by
  simp only [dropDebug, map, Prototype.dropDebug, Prototype.map, FunctionTree.mapRecords_mapRecords]
  rfl

/-- The contents of what is left are what is left of the contents. -/
theorem Closure.contents_dropDebug (c : Closure StringHandle) :
    c.dropDebug.contents = c.contents.dropDebug :=
  (c.dropDebug_map _).symm

/-- There is nothing to keep of a closure without debug information that has not been kept. -/
theorem LoadOptions.keep_dropDebug (options : LoadOptions) (c : Closure Bytes) :
    options.keep c.dropDebug = c.dropDebug :=
  options.keep_cases c.dropDebug rfl c.dropDebug_dropDebug

/-- Whatever the buffer holds, a load without debug information leaves the table and the events of
one that keeps it, and differs from it in the closure alone. -/
theorem load_keepDebug_false (options : LoadOptions) (table : StringTable) (name : String)
    (bs : Bytes) :
    let kept := load { options with keepDebug := true } table name bs
    let dropped := load { options with keepDebug := false } table name bs
    dropped.table = kept.table ∧ dropped.events = kept.events ∧
      dropped.outcome = kept.outcome.map Closure.dropDebug := by
  intro kept dropped
  simp only [kept, dropped, load]
  -- the two loads share one read, which knows nothing of the choice between them
  cases Read.closure options.toReadOptions (Reader.ofBytes bs) with
  -- a failure says nothing of debug information
  | error cause r => exact ⟨rfl, rfl, rfl⟩
  -- the functions that are left are as many as before
  | ok stored r =>
    have hcount : stored.dropDebug.prototype.count = stored.prototype.count :=
      FunctionTree.count_mapRecords ..
    simp [hcount, Except.map, Closure.dropDebug_map]

/-! ### Dumping what is left -/

section Loaded

variable {options : LoadOptions} {table : StringTable} {name : String} {bs : Bytes}
  {c : Closure StringHandle}

/-- A load gives the handles of an earlier one if it gives the contents and goes on with its
table. -/
theorem eq_of_contents_eq (htable : table.Consistent)
    (h : (load options table name bs).outcome = .ok c) {options' : LoadOptions} {name' : String}
    {bs' : Bytes} {c' : Closure StringHandle}
    (h' : (load options' (load options table name bs).table name' bs').outcome = .ok c')
    (hcontents : c'.contents = c.contents) : c' = c := by
  have hstrings : c'.contents.prototype.strings = c.contents.prototype.strings := by rw [hcontents]
  rw [eq_map_handle_of_load h', table_load_of_strings_eq htable h h' hstrings, hcontents,
    ← eq_map_handle_of_load h]

/-- A dump of a closure without debug information loads to it, whether debug information is kept or
not, and with the same handles if the load goes on with its table. -/
theorem load_dump_dropDebug (hlen : bs.length < 2 ^ 31)
    (h : (load options table name bs).outcome = .ok c)
    (hdropped : c.contents.dropDebug = c.contents) :
    ∃ dumped, dump c.contents false = .ok dumped ∧
      ∀ (options' : LoadOptions) table' name', c.prototype.height ≤ options'.maxDepth →
        (∃ again, (load options' table' name' dumped).outcome = .ok again ∧
          again.contents = c.contents) ∧
        (table.Reachable →
          (load options' (load options table name bs).table name' dumped).outcome = .ok c) := by
  obtain ⟨dumped, hdump, hload⟩ := load_dump (wellFormed_of_load hlen h) false
  have hagain : ∀ (options' : LoadOptions) table' name', c.prototype.height ≤ options'.maxDepth →
      ∃ again, (load options' table' name' dumped).outcome = .ok again ∧
        again.contents = c.contents := by
    intro options' table' name' hheight
    rw [← c.height_contents] at hheight
    obtain ⟨again, houtcome, hcontents⟩ := hload options' table' name' hheight
    refine ⟨again, houtcome, hcontents.trans ?_⟩
    -- what was loaded and dumped has no debug information that a load could leave out
    rw [if_neg Bool.false_ne_true, ← hdropped, LoadOptions.keep_dropDebug]
  refine ⟨dumped, hdump, fun options' table' name' hheight =>
    ⟨hagain options' table' name' hheight, fun htable => ?_⟩⟩
  obtain ⟨again, houtcome, hcontents⟩ :=
    hagain options' (load options table name bs).table name' hheight
  rw [houtcome, eq_of_contents_eq htable.consistent h houtcome hcontents]

end Loaded

/-- Loading without debug information fails exactly when loading with it does, with the same error,
and leaves the same table and the same events. If both succeed, the closures are as many functions
nested in the same way, whose records differ in debug information alone, of which the second closure
has none. Stripped, both dump to the same bytes; unstripped, the second has a dump that loads to it
again, whether debug information is kept or not. -/
theorem load_debug_projection (options : LoadOptions) (table : StringTable) (name : String)
    (bs : Bytes) :
    let kept := load { options with keepDebug := true } table name bs
    let dropped := load { options with keepDebug := false } table name bs
    dropped.table = kept.table ∧ dropped.events = kept.events ∧
    (∀ error, dropped.outcome = .error error ↔ kept.outcome = .error error) ∧
    ∀ c c', kept.outcome = .ok c → dropped.outcome = .ok c' →
      c'.upvalueCount = c.upvalueCount ∧ c'.prototype.WithoutDebugOf c.prototype ∧
      dump c.contents true = dump c'.contents true ∧
      (bs.length < 2 ^ 31 → ∃ dumped, dump c'.contents false = .ok dumped ∧
        c'.prototype.height ≤ options.maxDepth ∧
        ∀ (options' : LoadOptions) table' name', c'.prototype.height ≤ options'.maxDepth →
          (∃ again, (load options' table' name' dumped).outcome = .ok again ∧
            again.contents = c'.contents) ∧
          (table.Reachable → (load options' dropped.table name' dumped).outcome = .ok c')) := by
  intro kept dropped
  obtain ⟨htable, hevents, houtcome⟩ := load_keepDebug_false options table name bs
  refine ⟨htable, hevents, fun error => ?_, fun c c' hkept hdropped => ?_⟩
  -- dropping debug information turns no error into a closure, nor a closure into an error
  · rw [show dropped.outcome = kept.outcome.map Closure.dropDebug from houtcome]
    cases kept.outcome <;> simp [Except.map]
  · have hc : c.dropDebug = c' := by
      have h := houtcome.symm.trans hdropped
      rwa [show (load _ table name bs).outcome = .ok c from hkept, Except.map, Except.ok.injEq] at h
    have hstrip : c'.contents.strip = c.contents.strip := by
      rw [← hc, Closure.contents_dropDebug]
      exact congrArg (Closure.mk _) c.contents.prototype.strip_dropDebug
    subst hc
    refine ⟨rfl, c.prototype.withoutDebugOf_dropDebug, ?_, fun hlen => ?_⟩
    -- a stripped dump writes what the closure is when stripped, which is the same for both
    · rw [← dump_strip c.contents, ← hstrip, dump_strip]
    -- nothing is left to drop, so the dump loads to the closure as it is
    · have hnone : c.dropDebug.contents.dropDebug = c.dropDebug.contents := by
        rw [Closure.contents_dropDebug, Closure.dropDebug_dropDebug]
      have hheight : c.dropDebug.prototype.height ≤
          ({ options with keepDebug := false } : LoadOptions).maxDepth := height_le_of_load hdropped
      obtain ⟨dumped, hdump, hagain⟩ := load_dump_dropDebug hlen hdropped hnone
      exact ⟨dumped, hdump, hheight, hagain⟩

/-- The sample has line information, a local variable and an upvalue with a name. -/
theorem load_debug_projection_sample :
    let table := StringTable.empty 0
    let chunk := StoredChunk.sample
    let c := chunk.closure.map (table.internAll chunk.strings).handle
    let c' := chunk.closure.dropDebug.map (table.internAll chunk.strings).handle
    (load {} table "sample" chunk.bytes).outcome = .ok c ∧
      (load { keepDebug := false } table "sample" chunk.bytes).outcome = .ok c' ∧
      c.prototype.record.lineInfo = [1] ∧ c'.prototype.WithoutDebugOf c.prototype ∧
      dump c.contents true = dump c'.contents true ∧
      ∃ dumped, dump c'.contents false = .ok dumped ∧
        (load {} (load { keepDebug := false } table "sample" chunk.bytes).table "dump"
          dumped).outcome = .ok c' := by
  intro table chunk c c'
  have hload : (load {} table "sample" chunk.bytes).outcome = .ok c :=
    outcome_load_sample true table "sample"
  have hload' : (load { keepDebug := false } table "sample" chunk.bytes).outcome = .ok c' :=
    outcome_load_sample false table "sample"
  obtain ⟨-, -, -, hproject⟩ := load_debug_projection {} table "sample" chunk.bytes
  obtain ⟨-, hwithout, hstripped, hdump⟩ := hproject c c' hload hload'
  obtain ⟨dumped, hdumped, hheight, hagain⟩ := hdump length_sample_lt
  exact ⟨hload, hload', rfl, hwithout, hstripped, dumped, hdumped,
    (hagain {} table "dump" hheight).2 (.empty 0)⟩

end LuaChunk
