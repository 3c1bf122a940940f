import LuaChunk.Proofs.RoundTrip
import LuaChunk.Proofs.StringEnds

/-!
# Dumping what was loaded from a buffer of any size

From a very long buffer more entries can be loaded than the writer is willing to count, and a dump
can fail. Where it succeeds, the writer has checked all that is needed for the dump to be read back;
the rest, which it does not check, holds of every closure that was loaded.

## Key results

* `all_checked_of_fields`   where no field is refused, every sequence has a count
* `storable_of_load`        what holds of every closure that was loaded
* `load_of_dump`            a dump that succeeds loads to what was dumped
* `code_of_load_dump`       with every instruction in its place, even where a source is lost
-/

namespace LuaChunk

/-! ### What the writer checks -/

/-- Whether the writer refuses nothing of a record with a number of children: every sequence has a
count, and every integer fits in four bytes. -/
structure FunctionRecord.Checked (r : FunctionRecord Bytes) (children : Nat) : Prop where
  code : r.code.length < 2 ^ 31
  constants : r.constants.length < 2 ^ 31
  upvalues : r.upvalues.length < 2 ^ 31
  children : children < 2 ^ 31
  lineInfo : r.lineInfo.length < 2 ^ 31
  locals : r.locals.length < 2 ^ 31
  integer : ∀ i, .integer i ∈ r.constants → i.toInt32.toInt64 = i

namespace Field

/-- Whether all of several fields can be written. -/
def AllOk (fields : List Field) : Prop :=
  ∀ f ∈ fields, ∃ bs, f = .ok bs

/-- Of fields in a row, all can be written if those of both parts can. -/
theorem allOk_append {fields fields' : List Field} :
    AllOk (fields ++ fields') ↔ AllOk fields ∧ AllOk fields' :=
  List.forall_mem_append

/-- A field and those behind it can all be written if each of them can. -/
theorem allOk_cons {f : Field} {fields : List Field} :
    AllOk (f :: fields) ↔ (∃ bs, f = .ok bs) ∧ AllOk fields :=
  List.forall_mem_cons

/-- Where the fields of all entries can be written, so can those of each entry. -/
theorem allOk_flatMap {α : Type} {fields : α → List Field} {xs : List α}
    (h : AllOk (xs.flatMap fields)) : ∀ x ∈ xs, AllOk (fields x) :=
  fun x hx f hf => h f (List.mem_flatMap.2 ⟨x, hx, hf⟩)

/-- Fields that can all be written are some bytes together. -/
theorem exists_spells_of_allOk {fields : List Field} (h : AllOk fields) :
    ∃ bs, Spells fields bs := by
  induction fields with
  | nil => exact ⟨[], spells_nil⟩
  | cons f fields ih =>
    obtain ⟨⟨bs, rfl⟩, hfields⟩ := allOk_cons.1 h
    obtain ⟨cs, hspells⟩ := ih hfields
    exact ⟨_, hspells.cons bs⟩

/-- A count that is not refused is below `2 ^ 31`. -/
theorem lt_of_count_eq_ok {n : Nat} {bs : Bytes} (h : count n = .ok bs) : n < 2 ^ 31 := by
  rw [count, Nat.one_shiftLeft] at h
  split at h
  · assumption
  · contradiction

/-- An integer that is not refused fits in four bytes. -/
theorem integer_fits {i : Int64} (h : AllOk (constant (.integer i))) : i.toInt32.toInt64 = i := by
  obtain ⟨-, hbody⟩ := allOk_cons.1 h
  simp only [constantBody] at hbody
  -- the integer goes through four bytes and back
  split at hbody
  · assumption
  -- any other one is refused
  · obtain ⟨⟨bs, hrefused⟩, -⟩ := allOk_cons.1 hbody
    contradiction

end Field

/-- What it tells of a record that its fields can be written, whichever source is written. -/
theorem FunctionRecord.checked_of_fields {r : FunctionRecord Bytes} {source : Option Bytes}
    {n : Nat} {strip : Bool}
    (hhead : Field.AllOk ({ r with source } : FunctionRecord Bytes).headFields)
    (hchildren : ∃ bs, Field.count n = .ok bs)
    (hdebug : Field.AllOk (if strip then noDebugFields else r.debugFields))
    (hstrip : strip = true → r.lineInfo = [] ∧ r.locals = []) : r.Checked n := by
  -- each count of the head is a field of its own
  simp only [headFields, Field.allOk_append, Field.allOk_cons] at hhead
  obtain ⟨⟨⟨-, ⟨_, hcode⟩, -⟩, ⟨_, hconstants⟩, hconstant⟩, ⟨_, hupvalues⟩, -⟩ := hhead
  obtain ⟨_, hchildren⟩ := hchildren
  have hlists : r.lineInfo.length < 2 ^ 31 ∧ r.locals.length < 2 ^ 31 := by
    -- what is left out has no entries in the record either
    cases strip with
    | true =>
      obtain ⟨hlineInfo, hlocals⟩ := hstrip rfl
      simp [hlineInfo, hlocals]
    | false =>
      simp only [debugFields, Field.allOk_append, Field.allOk_cons, Bool.false_eq_true,
        if_false] at hdebug
      obtain ⟨⟨⟨⟨_, hlineInfo⟩, -⟩, ⟨_, hlocals⟩, -⟩, -⟩ := hdebug
      exact ⟨Field.lt_of_count_eq_ok hlineInfo, Field.lt_of_count_eq_ok hlocals⟩
  exact
    { code := Field.lt_of_count_eq_ok hcode
      constants := Field.lt_of_count_eq_ok hconstants
      upvalues := Field.lt_of_count_eq_ok hupvalues
      children := Field.lt_of_count_eq_ok hchildren
      lineInfo := hlists.1
      locals := hlists.2
      integer := fun i hi => Field.integer_fits (Field.allOk_flatMap hconstant _ hi) }

open FunctionTree in
/-- Where no field of a tree is refused, nothing of its records is. -/
theorem Prototype.all_checked_of_fields {p : Prototype Bytes} {parent : Option Bytes} {strip : Bool}
    (h : Field.AllOk ((p.elideSources parent).fields strip))
    (hstrip : strip = true → All (fun r _ => r.lineInfo = [] ∧ r.locals = []) p) :
    All FunctionRecord.Checked p := by
  induction p using FunctionTree.induction generalizing parent with
  | node r cs ih =>
    rw [elideSources_node, fields_node, Field.allOk_append, Field.allOk_append,
      Field.allOk_cons, List.length_map, List.flatMap_map] at h
    -- the fields of a node are those of its head, its children and its debug information
    obtain ⟨⟨hhead, hcount, hchildren⟩, hdebug⟩ := h
    refine all_node.2 ⟨FunctionRecord.checked_of_fields hhead hcount hdebug fun hs =>
      (all_node.1 (hstrip hs)).1, fun c hc => ?_⟩
    exact ih c hc (Field.allOk_flatMap hchildren c hc) fun hs => (all_node.1 (hstrip hs)).2 c hc

/-- A sink that takes all fields was refused none. -/
theorem Sink.allOk_of_write {fields : List Field} {s s' : Sink}
    (h : s.write fields = (none, s')) : Field.AllOk fields := by
  induction fields generalizing s with
  | nil => exact fun f hf => absurd hf List.not_mem_nil
  -- the field is written, and the others behind it
  | cons f fields ih =>
    cases f with
    | error e => simp [Sink.write] at h
    | ok bs =>
      rw [Sink.write] at h
      split at h
      · exact Field.allOk_cons.2 ⟨⟨bs, rfl⟩, ih h⟩
      · simp at h

/-- A dump that succeeds was refused no field. -/
theorem allOk_of_dump {c : Closure Bytes} {strip : Bool} {dumped : Bytes}
    (h : dump c strip = .ok dumped) : Field.AllOk (c.fields strip) := by
  obtain ⟨sink, hwrite, -⟩ := exists_write_of_dump h
  exact Sink.allOk_of_write hwrite

/-- A dump that succeeds is what the fields of the closure are together. -/
theorem spells_of_dump {c : Closure Bytes} {strip : Bool} {dumped : Bytes}
    (h : dump c strip = .ok dumped) : Field.Spells (c.fields strip) dumped := by
  obtain ⟨bs, hspells⟩ := Field.exists_spells_of_allOk (allOk_of_dump h)
  obtain rfl := Except.ok.inj ((dump_eq_ok_of_spells hspells).symm.trans h)
  exact hspells

/-! ### What it does not check -/

/-- Whether the size of every string of a record can be told in eight bytes. -/
structure FunctionRecord.Sizable (r : FunctionRecord Bytes) : Prop where
  source : StoredString.Sizable r.source
  string : ∀ content ∈ r.strings, StoredString.Sizable (some content)
  localName : ∀ v ∈ r.locals, StoredString.Sizable (some v.name)
  upvalueName : ∀ u ∈ r.upvalues, StoredString.Sizable u.name

instance (r : FunctionRecord Bytes) : Decidable r.Sizable :=
  decidable_of_iff
    (StoredString.Sizable r.source ∧ (∀ content ∈ r.strings, StoredString.Sizable (some content)) ∧
      (∀ v ∈ r.locals, StoredString.Sizable (some v.name)) ∧
      ∀ u ∈ r.upvalues, StoredString.Sizable u.name)
    ⟨fun ⟨h₁, h₂, h₃, h₄⟩ => ⟨h₁, h₂, h₃, h₄⟩, fun ⟨h₁, h₂, h₃, h₄⟩ => ⟨h₁, h₂, h₃, h₄⟩⟩

/-- Whether a closure is as closures are that were loaded, from a buffer of any size. -/
structure Closure.Storable (c : Closure Bytes) : Prop where
  sizable : c.prototype.All fun r _ => r.Sizable
  sources : c.prototype.SourcesResolved none
  upvalueCount : c.upvalueCount.toNat = c.prototype.record.upvalues.length

namespace FunctionRecord

variable {r : FunctionRecord Bytes} {n : Nat}

/-- What the writer has checked of a record, with the sizes of its strings, is all that is
needed. -/
theorem Sizable.writable (h : r.Sizable) (hchecked : r.Checked n) : r.Writable n :=
  { h, hchecked with
    -- constants are checked one by one: integers by their range, strings by their size
    constant := fun k hk => by
      cases k with
      | integer i => exact hchecked.integer i hk
      | string content =>
        exact h.string content (List.mem_flatMap.2 ⟨_, hk, List.mem_singleton_self content⟩)
      | _ => trivial }

/-- The strings that are left have the sizes that they had. -/
theorem Sizable.dropDebug (h : r.Sizable) : r.dropDebug.Sizable where
  source := h.source
  string := h.string
  localName _ hv := absurd hv List.not_mem_nil
  upvalueName := List.forall_mem_map.2 fun _ _ => StoredString.sizable_none

/-- An absent source has a size. -/
theorem Sizable.withoutSource (h : r.Sizable) :
    ({ r with source := none } : FunctionRecord Bytes).Sizable :=
  { h with source := StoredString.sizable_none }

end FunctionRecord

namespace Closure

open FunctionTree

variable {c : Closure Bytes}

/-- Stripping leaves no string without a size. -/
theorem sizable_strip (h : c.prototype.All fun r _ => r.Sizable) :
    c.strip.prototype.All fun r _ => r.Sizable :=
  all_mapRecords.2 (h.mono fun _ _ hr => hr.dropDebug.withoutSource)

/-- What a dump that succeeds has written can be written: the writer has checked it, but for the
sizes of strings. -/
theorem writable_of_dump (h : c.prototype.All fun r _ => r.Sizable) {strip : Bool}
    {dumped : Bytes} (hdump : dump c strip = .ok dumped) :
    (if strip then c.prototype.strip else c.prototype).Writable := by
  have hfields := allOk_of_dump hdump
  simp only [Closure.fields, Field.allOk_cons] at hfields
  cases strip with
  -- all that is written has been checked
  | false =>
    have hchecked := Prototype.all_checked_of_fields hfields.2.2 fun hstrip =>
      absurd hstrip Bool.false_ne_true
    exact (h.and hchecked).mono fun _ _ hr => hr.1.writable hr.2
  | true =>
    -- of a stripped record there is no list left that the writer leaves out
    have hchecked := Prototype.all_checked_of_fields hfields.2.2 fun _ =>
      all_mapRecords.2 (all_of_forall (fun _ _ => ⟨rfl, rfl⟩) _)
    exact ((sizable_strip h).and hchecked).mono fun _ _ hr => hr.1.writable hr.2

end Closure

namespace Closure.Storable

open FunctionTree

variable {c : Closure Bytes}

/-- A closure that was loaded can still be stored when it is stripped. -/
theorem strip (h : c.Storable) : c.strip.Storable where
  sizable := sizable_strip h.sizable
  sources := c.prototype.sourcesResolved_strip
  upvalueCount := h.upvalueCount.trans c.prototype.length_upvalues_strip.symm

/-- A closure that was loaded can still be stored without debug information. -/
theorem dropDebug (h : c.Storable) : c.dropDebug.Storable where
  sizable := all_mapRecords.2 (h.sizable.mono fun _ _ hr => hr.dropDebug)
  sources := h.sources.dropDebug
  upvalueCount := h.upvalueCount.trans c.prototype.length_upvalues_dropDebug.symm

/-- What a dump that succeeds has written can be read back. -/
theorem wellFormed_of_dump (h : c.Storable) {strip : Bool} {dumped : Bytes}
    (hdump : dump c strip = .ok dumped) : (if strip then c.strip else c).WellFormed := by
  have hwritable := writable_of_dump h.sizable hdump
  cases strip with
  | false => exact ⟨hwritable, h.sources, h.upvalueCount⟩
  | true => exact ⟨hwritable, h.strip.sources, h.strip.upvalueCount⟩

end Closure.Storable

/-- A dump that succeeds loads to what was dumped. -/
theorem load_of_dump {c : Closure Bytes} (h : c.Storable) {strip : Bool} {dumped : Bytes}
    (hdump : dump c strip = .ok dumped) (options : LoadOptions) (table : StringTable)
    (name : String) (hheight : c.prototype.height ≤ options.maxDepth) :
    ∃ loaded, (load options table name dumped).outcome = .ok loaded ∧
      loaded.contents = options.keep (if strip then c.strip else c) := by
  have hwell := h.wellFormed_of_dump hdump
  cases strip with
  -- nothing is stripped, and the dump has nothing behind it
  | false =>
    have hload := load_dump_append hwell hdump options table name hheight []
    rwa [List.append_nil] at hload
  | true =>
    rw [if_pos rfl] at hwell ⊢
    -- the dump is also that of the stripped closure, of which nothing more is stripped
    have hdump' : dump c.strip true = .ok dumped := (dump_strip c).trans hdump
    have hheight' : c.strip.prototype.height ≤ options.maxDepth := by
      rwa [Closure.strip, Prototype.strip, FunctionTree.height_mapRecords]
    have hload := load_dump_append hwell hdump' options table name hheight' []
    rwa [List.append_nil, if_pos rfl, Closure.strip_strip] at hload

/-! ### Instructions in a dump -/

/-- The chunk that the writer makes has every instruction in its place, whatever of the closure is
left out. -/
theorem code_ofClosure (c : Closure Bytes) (strip : Bool) (options : LoadOptions) :
    FunctionTree.mapRecords FunctionRecord.code
        (options.keep (StoredChunk.ofClosure c strip).closure).prototype =
      FunctionTree.mapRecords FunctionRecord.code c.prototype := by
  let stored := if strip then c.prototype.strip else c.prototype
  calc
    -- debug information is not code
    FunctionTree.mapRecords FunctionRecord.code
        (options.keep (StoredChunk.ofClosure c strip).closure).prototype
      = FunctionTree.mapRecords FunctionRecord.code
          ((StoredFunction.ofPrototype strip (stored.elideSources none)).prototype none) :=
        options.mapRecords_keep (fun _ => rfl) _
    -- nor are the sources that are put back
    _ = FunctionTree.mapRecords StoredRecord.code
          (StoredFunction.ofPrototype strip (stored.elideSources none)) :=
        StoredFunction.mapRecords_prototype (fun _ _ => rfl) _ none
    -- what is written of a record has its code as it is
    _ = FunctionTree.mapRecords FunctionRecord.code (stored.elideSources none) :=
        FunctionTree.mapRecords_mapRecords ..
    -- nor are the sources that are left out
    _ = FunctionTree.mapRecords FunctionRecord.code stored :=
        Prototype.mapRecords_elideSources (fun _ _ => rfl) stored none
    _ = FunctionTree.mapRecords FunctionRecord.code c.prototype := by
        -- stripping changes records, but no code
        cases strip with
        | false => rfl
        | true => exact FunctionTree.mapRecords_mapRecords ..

section

variable {c : Closure Bytes} {strip : Bool} {dumped : Bytes}

/-- A dump that succeeds loads if the upvalues are as many as are declared. Nothing is asked of the
sources, which need not all survive. -/
theorem exists_load_of_dump (h : c.prototype.All fun r _ => r.Sizable)
    (hdump : dump c strip = .ok dumped)
    (hcount : c.upvalueCount.toNat = c.prototype.record.upvalues.length) {options : LoadOptions}
    (hheight : c.prototype.height ≤ options.maxDepth) (table : StringTable) (name : String) :
    ∃ loaded, (load options table name dumped).outcome = .ok loaded := by
  have hwritable := Closure.writable_of_dump h hdump
  obtain rfl := bytes_ofClosure_of_dump hwritable hdump
  have hfits := StoredChunk.fits_ofClosure hwritable hcount
  rw [← StoredChunk.height_ofClosure c strip] at hheight
  have hload := outcome_load_append options table name ⟨hfits, hheight⟩ []
  rw [List.append_nil] at hload
  exact ⟨_, hload⟩

/-- Whatever a dump loads to has every instruction in its place. -/
theorem code_of_load_dump (h : c.prototype.All fun r _ => r.Sizable)
    (hdump : dump c strip = .ok dumped) {options : LoadOptions} {table : StringTable}
    {name : String} {loaded : Closure StringHandle}
    (hload : (load options table name dumped).outcome = .ok loaded) :
    FunctionTree.mapRecords FunctionRecord.code loaded.contents.prototype =
      FunctionTree.mapRecords FunctionRecord.code c.prototype := by
  have hwritable := Closure.writable_of_dump h hdump
  obtain rfl := bytes_ofClosure_of_dump hwritable hdump
  obtain ⟨chunk, hfits, hcontents, rest, hrest⟩ := exists_chunk_of_load hload
  -- the chunk that was read is the one that was written, with as many upvalues as are declared
  have hmain := StoredChunk.main_fits_ofClosure hwritable
  obtain ⟨rfl, -⟩ := StoredChunk.append_inj_of_main hfits.1.main hmain
    (hrest.trans (List.append_nil _).symm)
  rw [hcontents, code_ofClosure]

end

/-! ### What is loaded -/

/-- A string that fits has a size of eight bytes at the most, present or not. -/
theorem StoredString.sizable_content {s : StoredString} (h : Form.string.Fits s) :
    Sizable s.content ∧ Sizable (some (s.content.getD [])) := by
  obtain ⟨content, escaped⟩ := s
  cases content with
  | none => exact ⟨sizable_none, sizable_none⟩
  | some bs =>
    have hlt : bs.length + 1 < if escaped then 2 ^ 64 else 0xFF := h
    -- a size in one byte is one in eight bytes all the more
    have hsizable : bs.length + 1 < 2 ^ 64 := by
      cases escaped with
      | false => exact Nat.lt_trans hlt (by decide)
      | true => exact hlt
    exact ⟨hsizable, hsizable⟩

/-- Every string of a record that fits has a size. -/
theorem StoredRecord.sizable_value {r : StoredRecord} (h : r.Fits) {source : Option Bytes}
    (hsource : StoredString.Sizable source) : (r.value source).Sizable where
  source := hsource
  string content hcontent := by
    obtain ⟨constant, hconstant, hcontent⟩ := List.mem_flatMap.1 hcontent
    obtain ⟨k, hk, rfl⟩ := List.mem_map.1 hconstant
    have hfits := h.constants.2 k hk
    cases k with
    -- only a constant with a string has one to give
    | string long s =>
      obtain rfl := List.mem_singleton.1 hcontent
      exact (StoredString.sizable_content hfits).2
    | _ => exact absurd hcontent List.not_mem_nil
  localName := List.forall_mem_map.2 fun v hv => (StoredString.sizable_content (h.locals.2 v hv)).2
  upvalueName u hu := by
    -- a name that is shown is one of those stored
    rcases name_of_mem_namedUpvalues hu with hnone | ⟨s, hs, hname⟩
    · rw [hnone]
      exact StoredString.sizable_none
    · rw [hname]
      exact (StoredString.sizable_content (h.upvalueNames.2 s hs)).1

/-- A source that is taken over has a size because that of the parent does. -/
theorem StoredFunction.sizable_prototype {t : StoredFunction} (h : t.Fits)
    {parent : Option Bytes} (hparent : StoredString.Sizable parent) :
    (t.prototype parent).All fun r _ => r.Sizable := by
  induction t using FunctionTree.induction generalizing parent with
  | node r cs ih =>
    obtain ⟨⟨hr, -⟩, hcs⟩ := fits_node.1 h
    have hsource : StoredString.Sizable (r.resolvedSource parent) := by
      -- inherited from around, or stored in the record itself
      rcases r.resolvedSource_eq_or parent with heq | ⟨heq, -⟩
      · rwa [heq]
      · rw [heq]
        exact (StoredString.sizable_content hr.source).1
    rw [prototype_node, FunctionTree.all_node]
    exact ⟨StoredRecord.sizable_value hr hsource,
      List.forall_mem_map.2 fun c hc => ih c hc (hcs c hc) hsource⟩

/-- What a chunk that fits stands for can be stored. -/
theorem storable_closure {chunk : StoredChunk} (h : chunk.Fits) : chunk.closure.Storable where
  sizable := StoredFunction.sizable_prototype h.main StoredString.sizable_none
  sources :=
    have hnone : none ≠ some ([] : Bytes) := nofun
    StoredFunction.sourcesResolved_prototype hnone chunk.main
  upvalueCount := h.upvalueCount.trans (chunk.main.length_upvalues_prototype none).symm

/-- What holds of every closure that was loaded, from a buffer of any size. -/
theorem storable_of_load {options : LoadOptions} {table : StringTable} {name : String} {bs : Bytes}
    {loaded : Closure StringHandle} (h : (load options table name bs).outcome = .ok loaded) :
    loaded.contents.Storable :=
  contents_of_load h (fun _ hfits _ => storable_closure hfits.1) fun _ hc => hc.dropDebug

end LuaChunk
