import LuaChunk.Proofs.Truncation
import Mathlib.Algebra.BigOperators.Ring.List
import Mathlib.Algebra.Order.BigOperators.Group.List

/-!
# How much a load can build

The weight of a function is the number of bytes that its parts take at the least, wherever they
stand in a chunk. No closure that is loaded weighs more than what was taken of the buffer: whatever
its counts say, a chunk makes the loader build no more than it holds.

## Key results

* `Form.sum_map_le`         weights of entries add up to no more than the bytes of a sequence
* `weight_value_le`         a record weighs no more than the bytes it is stored in
* `weight_prototype_le`     nor does a tree of records
* `weight_of_at?_le`        a function inside another weighs no more than that
* `weight_of_load`          a closure that was loaded weighs no more than what was taken
-/

namespace LuaChunk

/-! ### Weights -/

/-- The least number of bytes that a constant takes. -/
def Constant.weight : Constant Bytes → Nat
  | .nil => 1
  | .boolean _ => 2
  | .float _ => 9
  | .integer _ => 5
  | .string content => 2 + content.length

/-- The least number of bytes that a local variable takes. -/
def LocalVariable.weight (v : LocalVariable) : Nat :=
  9 + v.name.length

/-- The least number of bytes that the name of an upvalue takes, if it has one. -/
def Upvalue.nameWeight (u : Upvalue) : Nat :=
  u.name.elim 0 fun name => 1 + name.length

/-- The least number of bytes that a record takes, together with the number of its children. -/
def FunctionRecord.weight (r : FunctionRecord Bytes) : Nat :=
  40 + 4 * r.code.length + (r.constants.map Constant.weight).sum + 2 * r.upvalues.length
    + 4 * r.lineInfo.length + (r.locals.map LocalVariable.weight).sum
    + (r.upvalues.map Upvalue.nameWeight).sum

/-- The weights of all records of a tree together. -/
def Prototype.weight : Prototype Bytes → Nat :=
  FunctionTree.fold fun r weights => r.weight + weights.sum

/-- A tree weighs what its root and its children weigh. -/
theorem Prototype.weight_node (r : FunctionRecord Bytes) (cs : List (Prototype Bytes)) :
    weight (.node r cs) = r.weight + (cs.map weight).sum :=
  FunctionTree.fold_node ..

/-! ### What is stored is no shorter than what it weighs -/

namespace Form

variable {α β : Type} {F : Form β α} {ss : List β}

/-- If no entry weighs more than its bytes, a sequence does not, even without its count. -/
theorem sum_map_le {w : β → Nat} (h : ∀ s ∈ ss, w s ≤ (F.bytes s).length) :
    4 + (ss.map w).sum ≤ (F.counted.bytes ss).length := by
  -- without the count, by induction on the entries
  have hlist : (ss.map w).sum ≤ (F.list.bytes ss).length := by
    induction ss with
    | nil => simp
    | cons s ss ih =>
      have hs := h s List.mem_cons_self
      have hss := ih fun s hs => h s (List.mem_cons_of_mem _ hs)
      simp only [list, List.map_cons, List.sum_cons, List.flatMap_cons, List.length_append] at *
      omega
  rw [length_counted]
  exact Nat.add_le_add_left hlist 4

theorem sum_map_value_le {w : α → Nat} (h : ∀ s, w (F.value s) ≤ (F.bytes s).length)
    (ss : List β) : 4 + ((F.counted.value ss).map w).sum ≤ (F.counted.bytes ss).length := by
  have hmap : (F.counted.value ss).map w = ss.map fun s => w (F.value s) := List.map_map
  rw [hmap]
  exact sum_map_le fun s _ => h s

end Form

/-- A constant weighs no more than the bytes it is stored in. -/
theorem StoredConstant.weight_value_le (k : StoredConstant) :
    (Form.constant.value k).weight ≤ (Form.constant.bytes k).length := by
  cases k with
  -- a string has a tag and at least one byte for its size
  | string long s =>
    have hcontent := s.length_content_lt
    simp only [Form.constant, Constant.weight, List.length_cons]
    omega
  | _ => simp [Form.constant, Constant.weight, Form.truth, Form.number, Form.int, Form.fixed]

/-- Nor does a local variable. -/
theorem StoredLocal.weight_value_le (v : StoredLocal) :
    (Form.localVariable.value v).weight ≤ (Form.localVariable.bytes v).length := by
  have hcontent := v.name.length_content_lt
  simp only [Form.localVariable, LocalVariable.weight, Form.int, Form.fixed, List.length_append,
    Bytes.length_leBytes]
  omega

namespace StoredRecord

/-- The names of upvalues weigh no more than their bytes, whether or not every name that is stored
goes to an upvalue. -/
theorem sum_nameWeight_le (us : List StoredUpvalue) (names : List StoredString) :
    ((us.mapIdx fun i u => { Form.upvalue.value u with
      name := names[i]?.bind Form.string.value }).map Upvalue.nameWeight).sum ≤
        (Form.string.list.bytes names).length := by
  induction us generalizing names with
  | nil => simp
  | cons u us ih =>
    rw [List.mapIdx_cons, List.map_cons, List.sum_cons]
    cases names with
    | nil =>
      -- no name is left, and none of the upvalues gets one
      have hothers := ih []
      simpa [Upvalue.nameWeight] using hothers
    | cons s names =>
      -- the first name goes to the first upvalue
      have hfirst : s.content.elim 0 (fun name => 1 + name.length) ≤
          (Form.string.bytes s).length := by
        have hcontent := s.length_content_lt
        cases hs : s.content with
        | none => exact Nat.zero_le _
        | some name =>
          rw [hs, Option.getD_some] at hcontent
          show 1 + name.length ≤ _
          omega
      have hothers := ih names
      simp only [Form.list, List.flatMap_cons, List.length_append] at hothers ⊢
      exact Nat.add_le_add hfirst hothers

/-- A record weighs no more than its bytes and the number of its children. -/
theorem weight_value_le (r : StoredRecord) (source : Option Bytes) :
    (r.value source).weight ≤ r.headBytes.length + 4 + r.debugBytes.length := by
  have hsource := one_le_length_string r.source
  -- a sequence takes four bytes for its count besides what its entries weigh
  have hword : ∀ ins, (Form.instruction.bytes ins).length = 4 := by
    simp [Form.instruction, Form.fixed]
  have hint : ∀ line, (Form.int.bytes line).length = 4 := by
    simp [Form.int, Form.fixed]
  have hcode := Form.mul_length_le_length_counted fun ins (_ : ins ∈ r.code) => (hword ins).ge
  have hconstants := Form.sum_map_value_le StoredConstant.weight_value_le r.constants
  have hupvalues := Form.mul_length_le_length_counted (F := Form.upvalue) (n := 2)
    fun u (_ : u ∈ r.upvalues) => Nat.le_refl 2
  have hlineInfo := Form.mul_length_le_length_counted fun i (_ : i ∈ r.lineInfo) => (hint i).ge
  have hlocals := Form.sum_map_value_le StoredLocal.weight_value_le r.locals
  have hnames : (r.namedUpvalues.map Upvalue.nameWeight).sum ≤ _ :=
    sum_nameWeight_le r.upvalues r.upvalueNames
  have hcount := Form.length_counted Form.string r.upvalueNames
  have hnamed : r.namedUpvalues.length = r.upvalues.length := List.length_mapIdx
  simp only [headBytes, debugBytes, List.length_append, hint, List.length_cons, List.length_nil]
  -- seven counts, the size of the source, two lines and three bytes are the forty
  show 40 + 4 * r.code.length + ((Form.constant.counted.value r.constants).map _).sum
    + 2 * r.namedUpvalues.length + 4 * r.lineInfo.length
    + ((Form.localVariable.counted.value r.locals).map _).sum
    + (r.namedUpvalues.map _).sum ≤ _
  omega

end StoredRecord

/-- A tree of records weighs no more than the bytes it is stored in. -/
theorem StoredFunction.weight_prototype_le (t : StoredFunction) (parent : Option Bytes) :
    (t.prototype parent).weight ≤ t.bytes.length := by
  induction t using FunctionTree.induction generalizing parent with
  | node r cs ih =>
    -- the record with the number of its children, and then each child
    have hrecord := r.weight_value_le (r.resolvedSource parent)
    have hchildren := Form.sum_map_le (F := Form.function 0 0) fun c hc =>
      ih c hc (r.resolvedSource parent)
    rw [prototype_node, Prototype.weight_node, List.map_map, bytes_node 0 0, List.length_append,
      List.length_append]
    simp only [Function.comp_def]
    omega

/-! ### What weighs little is small -/

/-- A constant weighs at least its tag. -/
theorem Constant.one_le_weight (k : Constant Bytes) : 1 ≤ k.weight := by
  cases k <;> simp only [weight] <;> omega

/-- Entries that weigh something are no more than they weigh together. -/
theorem length_le_sum_map {α : Type} {w : α → Nat} (h : ∀ x, 1 ≤ w x) (xs : List α) :
    xs.length ≤ (xs.map w).sum := by
  have hle := List.length_le_sum_of_one_le (xs.map w) (List.forall_mem_map.2 fun x _ => h x)
  rwa [List.length_map] at hle

/-- The functions of a tree are those of its children and the root. -/
theorem FunctionTree.count_node_eq_sum {ρ : Type} (r : ρ) (cs : List (FunctionTree ρ)) :
    count (.node r cs) = (cs.map count).sum + 1 := by
  rw [count_node]
  induction cs with
  | nil => rfl
  | cons c cs ih => rw [List.map_cons, List.foldr_cons, List.sum_cons, ih, Nat.add_assoc]

namespace Prototype

open FunctionTree

variable {p s : Prototype Bytes} {path : List Nat}

/-- The smallest function weighs forty. -/
theorem forty_le_weight (p : Prototype Bytes) : 40 ≤ p.weight := by
  obtain ⟨r, cs⟩ := p
  simp only [weight_node, FunctionRecord.weight]
  omega

/-- No sequence of a function has more entries than the function weighs. -/
theorem length_le_weight (p : Prototype Bytes) :
    p.record.code.length ≤ p.weight ∧ p.record.constants.length ≤ p.weight ∧
      p.record.upvalues.length ≤ p.weight ∧ p.children.length ≤ p.weight ∧
      p.record.lineInfo.length ≤ p.weight ∧ p.record.locals.length ≤ p.weight := by
  obtain ⟨r, cs⟩ := p
  have hconstants := length_le_sum_map Constant.one_le_weight r.constants
  have hlocals := length_le_sum_map (w := LocalVariable.weight)
    (fun v => Nat.le_trans (by decide) (Nat.le_add_right 9 v.name.length)) r.locals
  have hchildren := length_le_sum_map (w := weight)
    (fun c => Nat.le_trans (by decide) (forty_le_weight c)) cs
  simp only [record, children, weight_node, FunctionRecord.weight]
  omega

/-- There are no more functions in a tree than it can hold of the smallest. -/
theorem count_mul_le_weight (p : Prototype Bytes) : 40 * p.count ≤ p.weight := by
  induction p using FunctionTree.induction with
  | node r cs ih =>
    -- forty for each function of the children, by induction
    have hchildren : 40 * (cs.map FunctionTree.count).sum ≤ (cs.map weight).sum := by
      rw [← List.sum_map_mul_left]
      exact List.sum_le_sum ih
    rw [count_node_eq_sum, weight_node, FunctionRecord.weight]
    omega

/-- A function inside another weighs no more than that. -/
theorem weight_of_at?_le (h : p.at? path = some s) : s.weight ≤ p.weight := by
  induction path generalizing p with
  | nil =>
    obtain rfl := Option.some.inj h
    exact Nat.le_refl _
  | cons i path ih =>
    obtain ⟨r, cs⟩ := p
    obtain ⟨c, hc, h⟩ := at?_cons_eq_some.1 h
    have hle := ih h
    -- one child weighs no more than all of them
    have hchild : weight c ≤ (cs.map weight).sum :=
      List.le_sum_of_mem (List.mem_map_of_mem (List.mem_of_getElem? hc))
    rw [weight_node]
    omega

/-- Debug information only adds to what a function weighs. -/
theorem weight_dropDebug_le (p : Prototype Bytes) : p.dropDebug.weight ≤ p.weight := by
  induction p using FunctionTree.induction with
  | node r cs ih =>
    -- a record loses the names of its upvalues and two sequences, and keeps the rest
    have hrecord : r.dropDebug.weight ≤ r.weight := by
      have hnames : ((r.upvalues.map fun u => { u with name := none }).map
          Upvalue.nameWeight).sum = 0 := by
        simp [Function.comp_def, Upvalue.nameWeight]
      simp only [FunctionRecord.weight, FunctionRecord.dropDebug, hnames, List.length_map,
        List.length_nil, List.map_nil, List.sum_nil]
      omega
    have hchildren : ((cs.map dropDebug).map weight).sum ≤ (cs.map weight).sum := by
      rw [List.map_map]
      exact List.sum_le_sum ih
    rw [dropDebug, mapRecords_node, weight_node, weight_node]
    exact Nat.add_le_add hrecord hchildren

end Prototype

/-! ### Sequences that are read -/

namespace Read

/-- The reads that are repeated as often as a count asks for. -/
inductive IsEntry (options : ReadOptions) : {α : Type} → Read α → Prop
  | instruction : IsEntry options instruction
  | constant : IsEntry options constant
  | upvalue : IsEntry options upvalue
  | prototype {room : Nat} (hroom : room ≤ options.maxDepth) :
    IsEntry options (prototype options room)
  | int : IsEntry options int
  | localVariable : IsEntry options localVariable
  | string : IsEntry options string

/-- Entries that take at least one byte are no more than the bytes that are left. -/
theorem length_le_of_listOf {α β : Type} {entry : Read α} {F : Form β α} (h : Reads entry F)
    (hpos : ∀ s, 1 ≤ (F.bytes s).length) {n : Nat} {xs : List α} {r r' : Reader}
    (hread : listOf n entry r = .ok xs r') : xs.length ≤ r.remaining := by
  obtain ⟨ss, -, -, rfl, hrest⟩ := listOf_eq_ok h hread
  have hlength := Form.mul_length_le_length_list fun s (_ : s ∈ ss) => hpos s
  -- each entry that was read stands for one that is stored, of at least one byte
  have hvalue : (F.list.value ss).length = ss.length := List.length_map _
  rw [Reader.remaining, hrest, List.length_append, hvalue]
  omega

/-- However many entries are asked for, those that are read are no more than the bytes that were
left. -/
theorem IsEntry.length_le {options : ReadOptions} {α : Type} {entry : Read α}
    (h : IsEntry options entry) {n : Nat} {xs : List α} {r r' : Reader}
    (hread : listOf n entry r = .ok xs r') : xs.length ≤ r.remaining := by
  cases h with
  | instruction =>
    exact length_le_of_listOf instruction_reads (by simp [Form.instruction, Form.fixed]) hread
  | constant => exact length_le_of_listOf constant_reads one_le_length_constant hread
  | upvalue => exact length_le_of_listOf upvalue_reads (by simp [Form.upvalue]) hread
  | prototype hroom =>
    exact length_le_of_listOf (prototype_reads (Nat.sub_add_cancel (Nat.le_succ_of_le hroom)))
      (fun t => Nat.le_trans (by decide) (minRecordSize_le_length t)) hread
  | int => exact length_le_of_listOf int_reads (by simp [Form.int, Form.fixed]) hread
  | localVariable =>
    exact length_le_of_listOf localVariable_reads
      (fun v => Nat.le_trans (by decide) (nine_le_length_localVariable v)) hread
  | string => exact length_le_of_listOf string_reads one_le_length_string hread

end Read

/-! ### Closures that were loaded -/

/-- What was loaded weighs no more than what was taken for it, whether or not debug information was
kept. -/
theorem weight_contents_le {options : LoadOptions} {table : StringTable} {name : String}
    {bs : Bytes} {c : Closure StringHandle} (h : (load options table name bs).outcome = .ok c) :
    30 + c.contents.prototype.weight + (load options table name bs).ignored ≤ bs.length := by
  refine contents_of_load
    (P := fun c => 30 + c.prototype.weight + (load options table name bs).ignored ≤ bs.length) h
    (fun chunk hfits hprefix => ?_) fun c hc => ?_
  · obtain ⟨rest, rfl⟩ := hprefix
    have hmain : chunk.closure.prototype.weight ≤ _ := chunk.main.weight_prototype_le none
    -- a header of 29 bytes and one for the number of upvalues
    have hheader : Header.bytes.length = 29 := rfl
    rw [ignored_load_append options table name hfits, List.length_append,
      StoredChunk.length_bytes, hheader]
    omega
  -- without debug information it weighs less
  · have hdrop : c.dropDebug.prototype.weight ≤ _ := c.prototype.weight_dropDebug_le
    omega

/-- A closure that was loaded weighs no more than what the load has taken of the buffer, so that
there are no more functions in it than fit in the buffer, and no sequence in it is longer than the
buffer. Nor does a sequence get longer than the buffer in a load that fails: wherever it begins in
the buffer, and however many of its entries have been read, they are no more. -/
theorem weight_of_load (options : LoadOptions) (table : StringTable) (name : String) (bs : Bytes) :
    (∀ c, (load options table name bs).outcome = .ok c →
      30 + c.contents.prototype.weight + (load options table name bs).ignored ≤ bs.length ∧
      c.prototype.count ≤ (bs.length - 30) / 40 ∧
      ∀ path p, c.prototype.at? path = some p →
        p.record.code.length ≤ bs.length ∧ p.record.constants.length ≤ bs.length ∧
        p.record.upvalues.length ≤ bs.length ∧ p.children.length ≤ bs.length ∧
        p.record.lineInfo.length ≤ bs.length ∧ p.record.locals.length ≤ bs.length) ∧
    ∀ {α : Type} (entry : Read α), Read.IsEntry options.toReadOptions entry →
      ∀ n xs r r', r.remaining ≤ bs.length → Read.listOf n entry r = .ok xs r' →
        xs.length ≤ bs.length := by
  refine ⟨fun c hload => ?_, fun entry hentry n xs r r' hr hread =>
    Nat.le_trans (hentry.length_le hread) hr⟩
  have hweight := weight_contents_le hload
  refine ⟨hweight, ?_, fun path p hp => ?_⟩
  -- forty for each function, within what is left behind the first thirty bytes
  · have hcount := c.contents.prototype.count_mul_le_weight
    have hsame : c.contents.prototype.count = c.prototype.count :=
      FunctionTree.count_mapRecords ..
    omega
  · -- the same path leads to the contents of the function
    have hcontents :
        c.contents.prototype.at? path = some (Prototype.map StringHandle.content p) := by
      rw [Closure.contents, Closure.map, Prototype.map, FunctionTree.at?_mapRecords, hp]
      rfl
    have hle := Prototype.weight_of_at?_le hcontents
    have hlengths := Prototype.length_le_weight (Prototype.map StringHandle.content p)
    simp only [Prototype.map, FunctionTree.record_mapRecords, FunctionTree.children_mapRecords,
      FunctionRecord.map, List.length_map] at hlengths hle
    omega

/-- A sample with two bytes behind it, and the function inside its main function. -/
theorem weight_of_load_sample :
    let table := StringTable.empty 0
    let chunk := StoredChunk.sample
    let bs := chunk.bytes ++ [0, 0]
    let c := chunk.closure.map (table.internAll chunk.strings).handle
    (load {} table "sample" bs).outcome = .ok c ∧
      30 + c.contents.prototype.weight + (load {} table "sample" bs).ignored ≤ bs.length ∧
      c.prototype.count ≤ (bs.length - 30) / 40 ∧
      ∃ p, c.prototype.at? [0] = some p ∧ p.record.code.length ≤ bs.length := by
  intro table chunk bs c
  have hfits : (Form.chunk 200).Fits chunk := by decide
  have hload : (load {} table "sample" bs).outcome = .ok c :=
    outcome_load_append {} table "sample" hfits [0, 0]
  obtain ⟨hweight, hcount, hat⟩ := (weight_of_load {} table "sample" bs).1 c hload
  exact ⟨hload, hweight, hcount, _, rfl, (hat [0] _ rfl).1⟩

end LuaChunk
