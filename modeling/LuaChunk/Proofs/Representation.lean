import LuaChunk.Proofs.LoadedStrings
import Mathlib.Algebra.Group.Int.Defs

/-!
# What can be relied on in a loaded closure

Whoever runs a closure or writes it again takes much for granted that its type does not say. This
file states it for every closure that was loaded and every function inside it, wherever a path of
child indices leads: sources are never empty and never missing inside a function that has one,
integers fit in four bytes, strings are entries of the table, functions are nested no deeper than
was allowed, and without debug information there is none.

## Key results

* `Instruction.decodes_word`      the fields of an instruction are the parts of its word
* `SourcesResolved.of_at?`        a function without a source has none anywhere around it
* `strings_of_at?`                the strings of a function are among those of the whole tree
* `sound_of_load`                 what holds of a closure that was loaded
-/

namespace LuaChunk

/-! ### Instructions -/

/-- Whether the fields of an instruction are the parts of a word: the opcode, A, C and B from the
lowest bit up, and the wide operands put together from these. -/
structure Instruction.Decodes (ins : Instruction) (word : UInt32) : Prop where
  word_eq : ins.word = word
  toNat_eq : word.toNat = ins.opcodeNumber + ins.a <<< 6 + ins.c <<< 14 + ins.b <<< 23
  opcodeNumber_lt : ins.opcodeNumber < 1 <<< 6
  a_lt : ins.a < 1 <<< 8
  c_lt : ins.c < 1 <<< 9
  b_lt : ins.b < 1 <<< 9
  bx_eq : ins.bx = ins.b <<< 9 + ins.c
  ax_eq : ins.ax = ins.bx <<< 8 + ins.a
  sbx_eq : ins.sbx = ins.bx - 131071

/-- The fields of an instruction are the parts of its word. -/
theorem Instruction.decodes_word (ins : Instruction) : ins.Decodes ins.word where
  word_eq := rfl
  toNat_eq := ins.toNat_word
  opcodeNumber_lt := ins.field_lt 0 6
  a_lt := ins.field_lt 6 8
  c_lt := ins.field_lt 14 9
  b_lt := ins.field_lt 23 9
  bx_eq := ins.bx_eq
  ax_eq := ins.ax_eq
  sbx_eq := rfl

/-! ### Sources along a path -/

namespace Prototype

open FunctionTree

variable {σ τ : Type} {p s : Prototype σ} {parent : Option Bytes} {path : List Nat}

/-- A source that has been resolved is not empty, and absent only if the one around it is. -/
theorem SourcesResolved.record (h : p.SourcesResolved parent) :
    p.record.source ≠ some [] ∧ (p.record.source = none → parent = none) := by
  cases p
  obtain ⟨hempty, hnone, -⟩ := sourcesResolved_node.1 h
  exact ⟨hempty, hnone⟩

/-- The sources inside a function are resolved as well, and one that is absent there is absent all
along the path. -/
theorem SourcesResolved.of_at? (h : p.SourcesResolved parent) (hs : p.at? path = some s) :
    (∃ around, s.SourcesResolved around) ∧ (s.record.source = none → p.record.source = none) := by
  induction path generalizing p parent with
  | nil =>
    obtain rfl := Option.some.inj hs
    exact ⟨⟨parent, h⟩, id⟩
  | cons i path ih =>
    obtain ⟨r, cs⟩ := p
    obtain ⟨c, hc, hs⟩ := at?_cons_eq_some.1 hs
    -- the source of the node is the one around its child
    have hchild : SourcesResolved c r.source :=
      (sourcesResolved_node.1 h).2.2 c (List.mem_of_getElem? hc)
    obtain ⟨haround, hnone⟩ := ih hchild hs
    -- a source that is absent in the child is absent in the node
    exact ⟨haround, fun h => hchild.record.2 (hnone h)⟩

/-! ### Strings along a path -/

/-- The strings of a function are among those of the whole tree. -/
theorem strings_of_at? (h : p.at? path = some s) : s.strings ⊆ p.strings := by
  induction path generalizing p with
  | nil =>
    obtain rfl := Option.some.inj h
    exact List.Subset.refl _
  | cons i path ih =>
    obtain ⟨r, cs⟩ := p
    obtain ⟨c, hc, h⟩ := at?_cons_eq_some.1 h
    intro content hcontent
    -- strings of a child are strings of the node, behind its own
    rw [strings_node]
    exact List.mem_append_right _ (List.mem_flatMap.2 ⟨c, List.mem_of_getElem? hc, ih h hcontent⟩)

/-- The string constants of a function are among its strings. -/
theorem mem_strings_of_mem_constants {content : σ} (h : .string content ∈ p.record.constants) :
    content ∈ p.strings := by
  obtain ⟨r, cs⟩ := p
  rw [strings_node]
  exact List.mem_append_left _ (List.mem_flatMap.2 ⟨_, h, List.mem_singleton_self content⟩)

end Prototype

/-! ### What holds of every record -/

/-- What holds of the record of every stored function holds of every record of the function that it
stands for. -/
theorem StoredFunction.all_prototype {P : FunctionRecord Bytes → Prop}
    (h : ∀ (r : StoredRecord) source, P (r.value source)) (t : StoredFunction)
    (parent : Option Bytes) : (t.prototype parent).All fun r _ => P r := by
  induction t using FunctionTree.induction generalizing parent with
  | node r cs ih =>
    rw [prototype_node, FunctionTree.all_node]
    exact ⟨h r _, List.forall_mem_map.2 fun c hc => ih c hc _⟩

/-- Whether every integer constant of a record fits in four bytes. -/
def FunctionRecord.IntegersFit {σ : Type} (r : FunctionRecord σ) : Prop :=
  ∀ i, .integer i ∈ r.constants → -2 ^ 31 ≤ i.toInt ∧ i.toInt < 2 ^ 31

/-- Whether a record holds no debug information. -/
def FunctionRecord.WithoutDebug {σ : Type} (r : FunctionRecord σ) : Prop :=
  r.lineInfo = [] ∧ r.locals = [] ∧ ∀ u ∈ r.upvalues, u.name = none

/-- Integers that were stored fit in four bytes. -/
theorem StoredRecord.integersFit_value (r : StoredRecord) (source : Option Bytes) :
    (r.value source).IntegersFit := by
  intro i hi
  obtain ⟨k, -, hk⟩ := List.mem_map.1 hi
  cases k with
  | integer j =>
    -- the constant is the widened form of what four bytes hold
    obtain rfl := Constant.integer.inj hk
    rw [Int32.toInt_toInt64]
    exact ⟨j.le_toInt, j.toInt_lt⟩
  | _ => exact nomatch hk

/-- A record whose debug information has been dropped has none. -/
theorem FunctionRecord.withoutDebug_dropDebug {σ : Type} (r : FunctionRecord σ) :
    r.dropDebug.WithoutDebug :=
  ⟨rfl, rfl, List.forall_mem_map.2 fun _ _ => rfl⟩

/-! ### Closures that were loaded -/

section Loaded

open FunctionTree

variable {options : LoadOptions} {table : StringTable} {name : String} {bs : Bytes}
  {c : Closure StringHandle}

/-- The sources of a closure that was loaded have been resolved. -/
theorem sourcesResolved_of_load (h : (load options table name bs).outcome = .ok c) :
    c.prototype.SourcesResolved none :=
  (Prototype.sourcesResolved_mapRecords (f := FunctionRecord.map StringHandle.content)
    fun _ => rfl).1 (storable_of_load h).sources

/-- A closure that was loaded has as many upvalues as it declares. -/
theorem length_upvalues_of_load (h : (load options table name bs).outcome = .ok c) :
    c.upvalueCount.toNat = c.prototype.record.upvalues.length := by
  have hcount := (storable_of_load h).upvalueCount
  rwa [Closure.contents, Closure.map, Prototype.map, record_mapRecords] at hcount

/-- The integers of a closure that was loaded fit in four bytes. -/
theorem integersFit_of_load (h : (load options table name bs).outcome = .ok c) :
    c.prototype.All fun r _ => r.IntegersFit := by
  have hkept : c.contents.prototype.All fun r _ => r.IntegersFit := by
    refine contents_of_load (P := fun c => c.prototype.All fun r _ => r.IntegersFit) h
      (fun chunk _ _ => ?_) fun c hc => ?_
    · exact StoredFunction.all_prototype StoredRecord.integersFit_value chunk.main none
    · exact all_mapRecords.2 hc
  -- an integer constant is the same in the closure and in its contents
  exact (all_mapRecords.1 hkept).mono fun r _ hr i hi => hr i (List.mem_map_of_mem hi)

/-- A closure that was loaded without debug information has none. -/
theorem withoutDebug_of_load (h : (load options table name bs).outcome = .ok c)
    (hkeep : options.keepDebug = false) : c.prototype.All fun r _ => r.WithoutDebug := by
  obtain ⟨chunk, -, hcontents, -⟩ := exists_chunk_of_load h
  have hkept : c.contents.prototype.All fun r _ => r.WithoutDebug := by
    rw [hcontents, LoadOptions.keep, hkeep]
    exact all_mapRecords.2 (all_of_forall (fun r _ => r.withoutDebug_dropDebug) _)
  exact all_mapRecords.1 hkept

end Loaded

/-- What holds of a closure that was loaded. The number of upvalues is that of the main function,
and no more than a byte can tell. Wherever a path leads in the tree, it is no longer than the limit
on nesting; the source there is not empty, and if it is absent, so are all sources along the path;
instructions are their words; integers fit in four bytes, and strings stand in the table where their
numbers say; and there is no debug information unless it was to be kept. -/
theorem sound_of_load (options : LoadOptions) (table : StringTable) (htable : table.Reachable)
    (name : String) (bs : Bytes) (c : Closure StringHandle)
    (hload : (load options table name bs).outcome = .ok c) :
    (c.upvalueCount.toNat = c.prototype.record.upvalues.length ∧
      c.prototype.record.upvalues.length ≤ 255) ∧
    ∀ path p, c.prototype.at? path = some p →
      path.length ≤ options.maxDepth ∧
      p.record.source ≠ some [] ∧
      (p.record.source = none → ∀ front q, front <+: path → c.prototype.at? front = some q →
        q.record.source = none) ∧
      (∀ ins ∈ p.record.code, ins.Decodes ins.word) ∧
      (∀ i, .integer i ∈ p.record.constants → -2 ^ 31 ≤ i.toInt ∧ i.toInt < 2 ^ 31) ∧
      (∀ handle, .string handle ∈ p.record.constants →
        (load options table name bs).table.resolve? handle.id = some handle) ∧
      (options.keepDebug = false →
        p.record.lineInfo = [] ∧ p.record.locals = [] ∧ ∀ u ∈ p.record.upvalues, u.name = none) := by
  have hcount := length_upvalues_of_load hload
  have hsources := sourcesResolved_of_load hload
  have hbyte : c.upvalueCount.toNat < 256 := c.upvalueCount.toNat_lt
  refine ⟨⟨hcount, by omega⟩, fun path p hp => ⟨?_, ?_, ?_, ?_, ?_, ?_, ?_⟩⟩
  -- a path is no longer than the tree is high
  · have hpath := FunctionTree.length_add_height_le hp
    have hheight := height_le_of_load hload
    omega
  · obtain ⟨⟨around, hp⟩, -⟩ := hsources.of_at? hp
    exact hp.record.1
  · -- the rest of the path leads on from where its front leads to
    rintro hnone front q ⟨back, rfl⟩ hq
    rw [FunctionTree.at?_append, hq] at hp
    obtain ⟨⟨around, hq⟩, -⟩ := hsources.of_at? hq
    exact (hq.of_at? hp).2 hnone
  · exact fun ins _ => ins.decodes_word
  -- the integers of a function are those of its record
  · exact ((integersFit_of_load hload).of_at? hp).record
  -- a string constant is a string of the tree, and was entered
  · intro handle hhandle
    have hmem := Prototype.strings_of_at? hp (Prototype.mem_strings_of_mem_constants hhandle)
    exact resolve?_of_mem_strings htable.consistent hload hmem
  · exact fun hkeep => ((withoutDebug_of_load hload hkeep).of_at? hp).record

/-- A main function with constants of every kind and a function inside it, without debug
information. -/
theorem sound_of_load_sample :
    let options : LoadOptions := { keepDebug := false }
    let table := StringTable.empty 0
    let chunk := StoredChunk.sample
    let c := chunk.closure.dropDebug.map (table.internAll chunk.strings).handle
    table.Reachable ∧ (load options table "sample" chunk.bytes).outcome = .ok c ∧
      c.prototype.record.upvalues.length ≤ 255 ∧
      (∀ handle, .string handle ∈ c.prototype.record.constants →
        (load options table "sample" chunk.bytes).table.resolve? handle.id = some handle) ∧
      (∀ u ∈ c.prototype.record.upvalues, u.name = none) ∧
      ∃ p, c.prototype.at? [0] = some p ∧ p.record.source ≠ some [] := by
  intro options table chunk c
  have htable : table.Reachable := .empty 0
  have hload : (load options table "sample" chunk.bytes).outcome = .ok c :=
    outcome_load_sample false table "sample"
  obtain ⟨⟨-, hbyte⟩, hat⟩ := sound_of_load options table htable "sample" chunk.bytes c hload
  obtain ⟨-, -, -, -, -, hstring, hdebug⟩ := hat [] c.prototype rfl
  obtain ⟨-, hsource, -⟩ := hat [0] _ rfl
  exact ⟨htable, hload, hbyte, hstring, (hdebug rfl).2.2, _, rfl, hsource⟩

end LuaChunk
