import LuaChunk.Proofs.StoredForm
import LuaChunk.Proofs.Sources
import LuaChunk.Writer

/-!
# Written forms

Of all stored forms of a closure, the writer makes one. This file names it: `StoredChunk.ofClosure`,
built from the like for strings, constants and records, in which every choice that the grammar
leaves open has been made. Where all parts of a closure fit in their fields, the dump succeeds and
is that form.

`Field.Spells` says that all of a sequence of fields can be written and which bytes they are
together; it composes along `++`, as the writer does.

## Key results

* `value_ofRecord`    what the written form of a record stands for
* `fits_ofRecord`     the written form of a record fits
* `spells_fields`     the fields of a function are its written form
* `dump_eq_ok`        the dump of a closure is its written form
-/

namespace LuaChunk

/-! ### The written form of a value -/

/-- A truth value as one byte, 0 or 1. -/
def Form.truthByte (b : Bool) : UInt8 :=
  if b then 1 else 0

/-- A sequence that the writer is willing to count has a count in four bytes. -/
theorem Form.fits_counted {α β : Type} {F : Form β α} {ss : List β} (hlen : ss.length < 2 ^ 31)
    (h : ∀ s ∈ ss, F.Fits s) : F.counted.Fits ss :=
  ⟨Nat.lt_trans hlen (by decide), h⟩

theorem Form.fits_counted_map {α β γ : Type} {F : Form β α} {f : γ → β} {xs : List γ}
    (hlen : xs.length < 2 ^ 31) (h : ∀ x ∈ xs, F.Fits (f x)) : F.counted.Fits (xs.map f) :=
  fits_counted (by rwa [List.length_map]) (List.forall_mem_map.2 h)

/-- A sequence that is left out fits as well. -/
theorem Form.fits_counted_ite {α β : Type} {F : Form β α} {p : Prop} [Decidable p] {ss : List β}
    (h : F.counted.Fits ss) : F.counted.Fits (if p then [] else ss) := by
  by_cases hp : p
  · rw [if_pos hp]
    exact fits_counted (Nat.two_pow_pos 31) fun s hs => absurd hs List.not_mem_nil
  · rwa [if_neg hp]

@[simp] theorem Form.value_truthByte (b : Bool) : Form.truth.value (Form.truthByte b) = b := by
  cases b <;> rfl

namespace StoredString

/-- A string whose size takes one byte if it can. -/
def ofContent (content : Option Bytes) : StoredString where
  content
  escaped := 254 ≤ (content.getD []).length

@[simp] theorem content_ofContent (content : Option Bytes) :
    (ofContent content).content = content :=
  rfl

/-- Whether the size of a string can be told in eight bytes. -/
def Sizable (content : Option Bytes) : Prop :=
  (content.getD []).length + 1 < 2 ^ 64

instance (content : Option Bytes) : Decidable (Sizable content) :=
  inferInstanceAs (Decidable ((content.getD []).length + 1 < 2 ^ 64))

theorem sizable_none : Sizable none :=
  Nat.one_lt_two_pow (by decide)

/-- The form that the writer chooses for a string fits if any does. -/
theorem fits_ofContent {content : Option Bytes} (h : Sizable content) :
    Form.string.Fits (ofContent content) := by
  have hsize : (ofContent content).size ≤ (content.getD []).length + 1 := by
    cases content <;> simp [ofContent, size]
  show size _ < if decide (254 ≤ (content.getD []).length) = true then 2 ^ 64 else 0xFF
  unfold Sizable at h
  by_cases hlong : 254 ≤ (content.getD []).length
  -- the escape is followed by a size of eight bytes
  · rw [if_pos (decide_eq_true hlong)]
    omega
  · -- up to 253 bytes, one byte is enough for the size
    rw [if_neg (by simpa using hlong)]
    omega

end StoredString

namespace StoredConstant

/-- A constant, with an integer cut down to four bytes. -/
def ofConstant : Constant Bytes → StoredConstant
  | .nil => .nil
  | .boolean b => .boolean (Form.truthByte b)
  | .float x => .float x
  | .integer i => .integer i.toInt32
  | .string content =>
    .string (Constant.maxShortLength < content.length) (.ofContent (some content))

/-- Whether a constant fits: an integer in four bytes, the size of a string in eight. -/
def Writable : Constant Bytes → Prop
  | .integer i => i.toInt32.toInt64 = i
  | .string content => StoredString.Sizable (some content)
  | _ => True

instance (k : Constant Bytes) : Decidable (Writable k) :=
  match k with
  | .integer i => inferInstanceAs (Decidable (i.toInt32.toInt64 = i))
  | .string content => inferInstanceAs (Decidable (StoredString.Sizable (some content)))
  | .nil | .boolean _ | .float _ => .isTrue trivial

/-- The form of a constant stands for the constant, where an integer is not cut down. -/
theorem value_ofConstant {k : Constant Bytes} (h : Writable k) :
    Form.constant.value (ofConstant k) = k := by
  cases k with
  | boolean b => exact congrArg Constant.boolean (Form.value_truthByte b)
  | integer i => exact congrArg Constant.integer h
  | _ => rfl

theorem fits_ofConstant {k : Constant Bytes} (h : Writable k) :
    Form.constant.Fits (ofConstant k) := by
  cases k with
  | string content => exact StoredString.fits_ofContent h
  | _ => trivial

end StoredConstant

/-- An upvalue without its name. -/
def StoredUpvalue.ofUpvalue (u : Upvalue) : StoredUpvalue :=
  ⟨Form.truthByte u.inStack, u.index⟩

/-- The form of an upvalue has no name, which stands with the debug information. -/
theorem StoredUpvalue.value_ofUpvalue (u : Upvalue) :
    Form.upvalue.value (ofUpvalue u) = { u with name := none } := by
  simp [Form.upvalue, ofUpvalue]

/-- A local variable. -/
def StoredLocal.ofLocal (v : LocalVariable) : StoredLocal :=
  ⟨.ofContent (some v.name), v.startPc, v.endPc⟩

/-! ### The written form of a closure -/

namespace StoredRecord

/-- A function record with its debug information, or with none. -/
def ofRecord (strip : Bool) (r : FunctionRecord Bytes) : StoredRecord where
  source := .ofContent r.source
  lineDefined := r.lineDefined
  lastLineDefined := r.lastLineDefined
  numParams := r.numParams
  isVararg := Form.truthByte r.isVararg
  maxStackSize := r.maxStackSize
  code := r.code
  constants := r.constants.map .ofConstant
  upvalues := r.upvalues.map .ofUpvalue
  lineInfo := if strip then [] else r.lineInfo
  locals := if strip then [] else r.locals.map .ofLocal
  upvalueNames := if strip then [] else r.upvalues.map fun u => .ofContent u.name

end StoredRecord

/-- Whether a record with a number of children can be written: every constant fits, every string has
a size, and every sequence has a count. -/
structure FunctionRecord.Writable (r : FunctionRecord Bytes) (children : Nat) : Prop where
  source : StoredString.Sizable r.source
  code : r.code.length < 2 ^ 31
  constants : r.constants.length < 2 ^ 31
  upvalues : r.upvalues.length < 2 ^ 31
  children : children < 2 ^ 31
  lineInfo : r.lineInfo.length < 2 ^ 31
  locals : r.locals.length < 2 ^ 31
  constant : ∀ k ∈ r.constants, StoredConstant.Writable k
  localName : ∀ v ∈ r.locals, StoredString.Sizable (some v.name)
  upvalueName : ∀ u ∈ r.upvalues, StoredString.Sizable u.name

instance (r : FunctionRecord Bytes) (n : Nat) : Decidable (r.Writable n) :=
  decidable_of_iff
    (StoredString.Sizable r.source ∧ r.code.length < 2 ^ 31 ∧ r.constants.length < 2 ^ 31 ∧
      r.upvalues.length < 2 ^ 31 ∧ n < 2 ^ 31 ∧ r.lineInfo.length < 2 ^ 31 ∧
      r.locals.length < 2 ^ 31 ∧ (∀ k ∈ r.constants, StoredConstant.Writable k) ∧
      (∀ v ∈ r.locals, StoredString.Sizable (some v.name)) ∧
      ∀ u ∈ r.upvalues, StoredString.Sizable u.name)
    ⟨fun ⟨h₁, h₂, h₃, h₄, h₅, h₆, h₇, h₈, h₉, h₁₀⟩ => ⟨h₁, h₂, h₃, h₄, h₅, h₆, h₇, h₈, h₉, h₁₀⟩,
      fun ⟨h₁, h₂, h₃, h₄, h₅, h₆, h₇, h₈, h₉, h₁₀⟩ => ⟨h₁, h₂, h₃, h₄, h₅, h₆, h₇, h₈, h₉, h₁₀⟩⟩

namespace StoredRecord

variable {r : FunctionRecord Bytes} {n : Nat}

/-- A name goes to the upvalue in whose place it is written; without names, none has one. -/
theorem namedUpvalues_ofRecord (strip : Bool) (r : FunctionRecord Bytes) :
    (ofRecord strip r).namedUpvalues = (if strip then r.dropDebug else r).upvalues := by
  apply List.ext_getElem?
  intro i
  -- for a place with an upvalue and for one without, stripped or not
  cases strip <;> cases hu : r.upvalues[i]? <;>
    simp [namedUpvalues, ofRecord, FunctionRecord.dropDebug, List.getElem?_mapIdx, hu,
      StoredUpvalue.value_ofUpvalue, Form.string]

/-- The names of upvalues stand elsewhere. -/
theorem map_ofUpvalue_namedUpvalues (r : StoredRecord) :
    r.namedUpvalues.map StoredUpvalue.ofUpvalue =
      r.upvalues.map fun u => .ofUpvalue (Form.upvalue.value u) := by
  apply List.ext_getElem?
  intro i
  simp [namedUpvalues, List.getElem?_mapIdx, Function.comp_def, StoredUpvalue.ofUpvalue]

/-- What the form of a record stands for: the record, or what is left of it without debug
information, under the source that is resolved for it. -/
theorem value_ofRecord (h : r.Writable n) (strip : Bool) (source : Option Bytes) :
    (ofRecord strip r).value source = { if strip then r.dropDebug else r with source } := by
  -- sequences come back entry by entry
  have hconstants : Form.constant.counted.value (r.constants.map .ofConstant) = r.constants := by
    show (r.constants.map StoredConstant.ofConstant).map Form.constant.value = r.constants
    rw [List.map_map]
    exact (List.map_congr_left fun k hk => StoredConstant.value_ofConstant (h.constant k hk)).trans
      (List.map_id' _)
  have hlocals : Form.localVariable.counted.value (r.locals.map .ofLocal) = r.locals := by
    show (r.locals.map StoredLocal.ofLocal).map Form.localVariable.value = r.locals
    rw [List.map_map]
    exact List.map_id' _
  have hupvalues := namedUpvalues_ofRecord strip r
  unfold value
  rw [hupvalues]
  -- with the debug information, or with none
  cases strip with
  | false => simp [ofRecord, hconstants, hlocals]
  | true =>
    simp [ofRecord, hconstants, FunctionRecord.dropDebug]
    rfl

/-- The form of a record fits. -/
theorem fits_ofRecord (h : r.Writable n) (strip : Bool) : (ofRecord strip r).Fits where
  source := StoredString.fits_ofContent h.source
  code := Form.fits_counted h.code fun _ _ => trivial
  constants := Form.fits_counted_map h.constants fun k hk =>
    StoredConstant.fits_ofConstant (h.constant k hk)
  upvalues := Form.fits_counted_map h.upvalues fun _ _ => trivial
  lineInfo := Form.fits_counted_ite (Form.fits_counted h.lineInfo fun _ _ => trivial)
  locals := Form.fits_counted_ite <| Form.fits_counted_map h.locals fun v hv =>
    StoredString.fits_ofContent (h.localName v hv)
  upvalueNames := Form.fits_counted_ite <| Form.fits_counted_map h.upvalues fun u hu =>
    StoredString.fits_ofContent (h.upvalueName u hu)
  length_upvalueNames_le := by cases strip <;> simp [ofRecord]

end StoredRecord

namespace StoredFunction

open FunctionTree

/-- A function with all that is inside it. -/
def ofPrototype (strip : Bool) : Prototype Bytes → StoredFunction :=
  mapRecords (StoredRecord.ofRecord strip)

end StoredFunction

/-- Whether a function and the functions inside it can be written. -/
def Prototype.Writable : Prototype Bytes → Prop :=
  FunctionTree.All FunctionRecord.Writable

instance (p : Prototype Bytes) : Decidable p.Writable :=
  inferInstanceAs (Decidable (FunctionTree.All FunctionRecord.Writable p))

namespace StoredFunction

open FunctionTree

variable {p : Prototype Bytes}

/-- Read back without its sources resolved, the form of a function is the function, or what is left
of it without debug information. -/
theorem asStored_ofPrototype (h : p.Writable) (strip : Bool) :
    (ofPrototype strip p).asStored = if strip then p.dropDebug else p := by
  unfold asStored ofPrototype
  rw [mapRecords_mapRecords]
  -- record by record, only debug information is lost
  have hrecord : All (fun r _ => (StoredRecord.ofRecord strip r).value r.source =
      if strip then r.dropDebug else r) p :=
    h.mono fun r n hr => by
      rw [StoredRecord.value_ofRecord hr]
      cases strip <;> rfl
  refine (mapRecords_congr hrecord).trans ?_
  cases strip with
  | false => exact mapRecords_of_forall_eq (fun _ => rfl) p
  | true => rfl

/-- A function is stored with all its upvalues. -/
theorem length_upvalues_ofPrototype (p : Prototype Bytes) (strip : Bool) :
    (ofPrototype strip p).record.upvalues.length = p.record.upvalues.length := by
  rw [ofPrototype, record_mapRecords]
  exact List.length_map _

/-- The form of a function that can be written fits. -/
theorem fits_ofPrototype (h : p.Writable) (strip : Bool) : (ofPrototype strip p).Fits :=
  all_mapRecords.2 <| All.mono h fun _ _ hr =>
    ⟨StoredRecord.fits_ofRecord hr strip, Nat.lt_trans hr.children (by decide)⟩

end StoredFunction

/-! ### Fields that can be written -/

namespace Field

variable {α : Type}

/-- All of the fields can be written, and together they are `bs`. -/
def Spells (fields : List Field) (bs : Bytes) : Prop :=
  ∃ pieces : List Bytes, fields = pieces.map .ok ∧ pieces.flatten = bs

theorem spells_nil : Spells [] [] :=
  ⟨[], rfl, rfl⟩

theorem spells_ok (bs : Bytes) : Spells [.ok bs] bs :=
  ⟨[bs], rfl, List.append_nil bs⟩

theorem Spells.cons {fields : List Field} {bs : Bytes} (front : Bytes) (h : Spells fields bs) :
    Spells (.ok front :: fields) (front ++ bs) := by
  obtain ⟨pieces, rfl, rfl⟩ := h
  exact ⟨front :: pieces, rfl, rfl⟩

theorem Spells.append {fields fields' : List Field} {bs cs : Bytes} (h : Spells fields bs)
    (h' : Spells fields' cs) : Spells (fields ++ fields') (bs ++ cs) := by
  obtain ⟨pieces, rfl, rfl⟩ := h
  obtain ⟨pieces', rfl, rfl⟩ := h'
  exact ⟨pieces ++ pieces', by rw [List.map_append], List.flatten_append⟩

/-- Fields that are made one from each entry, and can all be written. -/
theorem spells_map (piece : α → Bytes) (xs : List α) :
    Spells (xs.map fun x => .ok (piece x)) (xs.flatMap piece) :=
  ⟨xs.map piece, by rw [List.map_map]; rfl, rfl⟩

/-- Fields that are made from each entry, of which there may be several. -/
theorem spells_flatMap {fields : α → List Field} {piece : α → Bytes} {xs : List α}
    (h : ∀ x ∈ xs, Spells (fields x) (piece x)) :
    Spells (xs.flatMap fields) (xs.flatMap piece) := by
  induction xs with
  | nil => exact spells_nil
  | cons x xs ih =>
    rw [List.flatMap_cons, List.flatMap_cons]
    exact (h x List.mem_cons_self).append (ih fun y hy => h y (List.mem_cons_of_mem _ hy))

/-- A count that is small enough is written in four bytes. -/
theorem count_of_lt {n : Nat} (hn : n < 2 ^ 31) : count n = .ok (Bytes.leBytes 4 n) := by
  rw [count, Nat.one_shiftLeft, if_pos hn]

/-- A count and the entries behind it are a counted sequence. -/
theorem spells_counted {β γ : Type} {F : Form β γ} {ss : List β} {fields : List Field}
    (hlen : ss.length < 2 ^ 31) (h : Spells fields (F.list.bytes ss)) :
    Spells (.count ss.length :: fields) (F.counted.bytes ss) := by
  rw [count_of_lt hlen]
  exact h.cons _

theorem spells_counted_map {β γ : Type} {F : Form β γ} {f : α → β} {xs : List α}
    {fields : List Field} (hlen : xs.length < 2 ^ 31)
    (h : Spells fields (xs.flatMap fun x => F.bytes (f x))) :
    Spells (.count xs.length :: fields) (F.counted.bytes (xs.map f)) := by
  rw [← List.length_map f] at hlen ⊢
  refine spells_counted hlen ?_
  simp only [Form.list, List.flatMap_map]
  exact h

/-! ### The fields of a closure -/

/-- A string can always be written, with its size in one byte if there is room. -/
theorem string_eq_ok (content : Option Bytes) :
    string content = .ok (Form.string.bytes (.ofContent content)) := by
  cases content with
  | none => rfl
  | some bs =>
    simp only [string, stringSize, Form.string, StoredString.ofContent, StoredString.size,
      Option.getD_some, decide_eq_true_eq]
    -- the longest size that is told in one byte is 254
    by_cases hlong : 254 ≤ bs.length
    · rw [if_pos hlong, if_neg (by omega)]
    · rw [if_neg hlong, if_pos (by omega)]

/-- The tag of a string tells whether it is long. -/
theorem tag_string (content : Bytes) :
    (Constant.string content).tag =
      if decide (Constant.maxShortLength < content.length) then Constant.longStringTag
      else Constant.shortStringTag := by
  show (if content.length ≤ Constant.maxShortLength then _ else _) = _
  by_cases hlong : Constant.maxShortLength < content.length
  · rw [if_neg (Nat.not_le_of_lt hlong), if_pos (decide_eq_true hlong)]
  · rw [if_pos (Nat.le_of_not_lt hlong), if_neg (by simpa using hlong)]

/-- A constant that fits is written as its form. -/
theorem spells_constant {k : Constant Bytes} (h : StoredConstant.Writable k) :
    Spells (constant k) (Form.constant.bytes (.ofConstant k)) := by
  cases k with
  | nil => exact spells_ok _
  | boolean b => exact (spells_ok _).cons _
  | float x => exact (spells_ok _).cons _
  | integer i =>
    -- an integer that fits is not refused
    have hbody : constantBody (.integer i) = [int i.toInt32] := if_pos h
    rw [constant, hbody]
    exact (spells_ok _).cons _
  | string content =>
    rw [constant, constantBody, string_eq_ok, tag_string]
    exact (spells_ok _).cons _

theorem spells_localVariable (v : LocalVariable) :
    Spells (localVariable v) (Form.localVariable.bytes (.ofLocal v)) := by
  rw [localVariable, string_eq_ok]
  simp only [Form.localVariable, List.append_assoc]
  exact ((spells_ok _).cons _).cons _

/-- The fields of a record in front of the functions inside it. -/
theorem spells_headFields {r : FunctionRecord Bytes} {n : Nat} (h : r.Writable n) (strip : Bool) :
    Spells r.headFields (StoredRecord.ofRecord strip r).headBytes := by
  -- the sequences, each behind its count
  have hcode : Spells (.count r.code.length :: r.code.map fun ins => .ok ins.toBytes)
      (Form.instruction.counted.bytes r.code) :=
    spells_counted h.code (spells_map _ _)
  have hconstants : Spells (.count r.constants.length :: r.constants.flatMap constant)
      (Form.constant.counted.bytes (r.constants.map .ofConstant)) :=
    spells_counted_map h.constants
      (spells_flatMap fun k hk => spells_constant (h.constant k hk))
  have hupvalues : Spells (.count r.upvalues.length :: r.upvalues.map upvalue)
      (Form.upvalue.counted.bytes (r.upvalues.map .ofUpvalue)) :=
    spells_counted_map h.upvalues (spells_map _ _)
  -- the source, the lines and three bytes
  have hfront : Spells [string r.source, int r.lineDefined, int r.lastLineDefined,
        .ok [r.numParams], truth r.isVararg, .ok [r.maxStackSize]]
      (Form.string.bytes (.ofContent r.source) ++ Form.int.bytes r.lineDefined
        ++ Form.int.bytes r.lastLineDefined
        ++ [r.numParams, Form.truthByte r.isVararg, r.maxStackSize]) := by
    rw [string_eq_ok, List.append_assoc, List.append_assoc]
    exact (((((spells_ok _).cons _).cons _).cons _).cons _).cons _
  exact ((hfront.append hcode).append hconstants).append hupvalues

/-- The fields behind the functions inside it, with the debug information or with none. -/
theorem spells_debugFields {r : FunctionRecord Bytes} {n : Nat} (h : r.Writable n) (strip : Bool) :
    Spells (if strip then FunctionRecord.noDebugFields else r.debugFields)
      (StoredRecord.ofRecord strip r).debugBytes := by
  cases strip with
  | true =>
    -- three counts of zero, one for each sequence that is left out
    exact ⟨List.replicate 3 (Bytes.leBytes 4 0), rfl, rfl⟩
  | false =>
    have hlineInfo : Spells (.count r.lineInfo.length :: r.lineInfo.map int)
        (Form.int.counted.bytes r.lineInfo) :=
      spells_counted h.lineInfo (spells_map _ _)
    have hlocals : Spells (.count r.locals.length :: r.locals.flatMap localVariable)
        (Form.localVariable.counted.bytes (r.locals.map .ofLocal)) :=
      spells_counted_map h.locals (spells_flatMap fun v _ => spells_localVariable v)
    have hnames : Spells (.count r.upvalues.length :: r.upvalues.map fun u => string u.name)
        (Form.string.counted.bytes (r.upvalues.map fun u => .ofContent u.name)) := by
      simp only [string_eq_ok]
      exact spells_counted_map h.upvalues (spells_map _ _)
    exact (hlineInfo.append hlocals).append hnames

/-- The fields of a function are its written form. -/
theorem spells_fields {p : Prototype Bytes} (h : p.Writable) (strip : Bool) :
    Spells (p.fields strip) (StoredFunction.ofPrototype strip p).bytes := by
  induction p using FunctionTree.induction with
  | node r cs ih =>
    obtain ⟨hr, hcs⟩ := FunctionTree.all_node.1 h
    have hchildren : Spells (.count cs.length :: cs.flatMap (Prototype.fields strip))
        ((Form.function 0 0).counted.bytes (cs.map (StoredFunction.ofPrototype strip))) :=
      spells_counted_map hr.children (spells_flatMap fun c hc => ih c hc (hcs c hc))
    -- the head, the children by induction and the debug information
    rw [Prototype.fields_node, StoredFunction.ofPrototype, FunctionTree.mapRecords_node,
      StoredFunction.bytes_node 0 0]
    exact ((spells_headFields hr strip).append hchildren).append (spells_debugFields hr strip)

end Field

/-! ### Closures -/

/-- The chunk that the writer makes of a closure. -/
def StoredChunk.ofClosure (c : Closure Bytes) (strip : Bool) : StoredChunk where
  upvalueCount := c.upvalueCount
  main := .ofPrototype strip ((if strip then c.prototype.strip else c.prototype).elideSources none)

/-- Functions nest as deeply in the chunk as they do in the closure. -/
theorem StoredChunk.height_ofClosure (c : Closure Bytes) (strip : Bool) :
    (ofClosure c strip).main.height = c.prototype.height := by
  cases strip <;> simp [ofClosure, StoredFunction.ofPrototype, Prototype.strip]

/-- A sink that grows takes every piece. -/
theorem Sink.write_pieces (pieces : List Bytes) (written : Array UInt8) :
    Sink.write ⟨none, written⟩ (pieces.map .ok) = (none, ⟨none, written ++ pieces.flatten⟩) := by
  induction pieces generalizing written with
  | nil => simp [Sink.write]
  | cons piece pieces ih =>
    -- without a capacity there is room for the piece
    have hput : Sink.put ⟨none, written⟩ piece = (true, ⟨none, written ++ piece⟩) :=
      Sink.put_of_room rfl
    have happend : written ++ piece ++ pieces.flatten = written ++ (piece :: pieces).flatten :=
      Array.ext' (by simp)
    rw [List.map_cons, Sink.write, hput, ← happend]
    exact ih (written ++ piece)

/-- A dump that succeeds is what a sink holds that has taken all fields. -/
theorem exists_write_of_dump {c : Closure Bytes} {strip : Bool} {dumped : Bytes}
    (h : dump c strip = .ok dumped) :
    ∃ sink, Sink.growing.write (c.fields strip) = (none, sink) ∧
      sink.written.toList = dumped := by
  simp only [dump, Writer.write] at h
  generalize Sink.growing.write (c.fields strip) = result at h ⊢
  obtain ⟨failure, sink⟩ := result
  cases failure with
  -- nothing failed, and all that was written is in the sink
  | none => exact ⟨sink, rfl, Except.ok.inj h⟩
  | some e => contradiction

/-- A dump is what its fields spell. -/
theorem dump_eq_ok_of_spells {c : Closure Bytes} {strip : Bool} {bs : Bytes}
    (h : Field.Spells (c.fields strip) bs) : dump c strip = .ok bs := by
  obtain ⟨pieces, hfields, rfl⟩ := h
  simp only [dump, Writer.write, hfields, Sink.growing, Sink.write_pieces]
  simp [Writer.bytes]

/-- A record can be written without its source. -/
theorem FunctionRecord.Writable.withoutSource {r : FunctionRecord Bytes} {n : Nat}
    (h : r.Writable n) : ({ r with source := none } : FunctionRecord Bytes).Writable n :=
  { h with source := StoredString.sizable_none }

/-- A record can be written without its debug information. -/
theorem FunctionRecord.Writable.dropDebug {r : FunctionRecord Bytes} {n : Nat} (h : r.Writable n) :
    r.dropDebug.Writable n where
  source := h.source
  code := h.code
  constants := h.constants
  upvalues := by simpa [FunctionRecord.dropDebug] using h.upvalues
  children := h.children
  lineInfo := Nat.two_pow_pos 31
  locals := Nat.two_pow_pos 31
  constant := h.constant
  localName _ hv := absurd hv List.not_mem_nil
  upvalueName := List.forall_mem_map.2 fun _ _ => StoredString.sizable_none

namespace Prototype.Writable

open FunctionTree

variable {p : Prototype Bytes}

theorem dropDebug (h : p.Writable) : p.dropDebug.Writable :=
  all_mapRecords.2 (All.mono h fun _ _ hr => hr.dropDebug)

theorem strip (h : p.Writable) : p.strip.Writable :=
  all_mapRecords.2 (All.mono h fun _ _ hr => hr.dropDebug.withoutSource)

theorem elideSources (h : p.Writable) (parent : Option Bytes) : (p.elideSources parent).Writable :=
  all_elideSources h fun _ _ hr => hr.withoutSource

end Prototype.Writable

/-- What the writer is given to write, stripped or not, can be written. -/
theorem Prototype.Writable.stored {p : Prototype Bytes} (h : p.Writable) (strip : Bool) :
    (if strip then p.strip else p).Writable := by
  cases strip with
  | false => exact h
  | true => exact h.strip

/-- Where all that is to be written fits, a closure is dumped as its written form. -/
theorem dump_eq_ok_of_stored {c : Closure Bytes} {strip : Bool}
    (h : (if strip then c.prototype.strip else c.prototype).Writable) :
    dump c strip = .ok (StoredChunk.ofClosure c strip).bytes := by
  apply dump_eq_ok_of_spells
  have hmain := Field.spells_fields (h.elideSources none) strip
  exact (hmain.cons [c.upvalueCount]).cons Header.bytes

/-- Whatever was dumped is the written form. -/
theorem bytes_ofClosure_of_dump {c : Closure Bytes} {strip : Bool} {dumped : Bytes}
    (h : (if strip then c.prototype.strip else c.prototype).Writable)
    (hdump : dump c strip = .ok dumped) : (StoredChunk.ofClosure c strip).bytes = dumped :=
  Except.ok.inj ((dump_eq_ok_of_stored h).symm.trans hdump)

/-- A closure all of whose parts fit is dumped as its written form. -/
theorem dump_eq_ok {c : Closure Bytes} (h : c.prototype.Writable) (strip : Bool) :
    dump c strip = .ok (StoredChunk.ofClosure c strip).bytes :=
  dump_eq_ok_of_stored (h.stored strip)

namespace StoredChunk

variable {c : Closure Bytes} {strip : Bool}

theorem main_fits_ofClosure (h : (if strip then c.prototype.strip else c.prototype).Writable) :
    (ofClosure c strip).main.Fits :=
  StoredFunction.fits_ofPrototype (h.elideSources none) strip

/-- The chunk that the writer makes fits, if the upvalues are as many as are declared. -/
theorem fits_ofClosure (h : (if strip then c.prototype.strip else c.prototype).Writable)
    (hcount : c.upvalueCount.toNat = c.prototype.record.upvalues.length) :
    (ofClosure c strip).Fits where
  main := main_fits_ofClosure h
  upvalueCount := by
    show c.upvalueCount.toNat = _
    rw [ofClosure, StoredFunction.length_upvalues_ofPrototype, Prototype.upvalues_elideSources,
      hcount]
    cases strip with
    | false => rfl
    | true => exact c.prototype.length_upvalues_strip.symm

end StoredChunk

end LuaChunk
