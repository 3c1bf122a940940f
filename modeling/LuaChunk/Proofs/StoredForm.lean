import Mathlib.Algebra.Group.Nat.Defs
import LuaChunk.Reader
import LuaChunk.Prototype

/-!
# Stored forms

A closure can stand in a chunk in more than one way: a short string can have a long size, any byte
but zero is a true truth value, a source can be repeated or left out. A stored form is a phrase of a
chunk in which every such choice has been made.

This file is the grammar of chunks. A `Form` is one of its rules: how the stored forms of a phrase
are laid out, what they stand for, which of them fit their fields, and what a reader notes of them.
The rules for strings, constants and the like are `Form.string`, `Form.constant` and so on; a
function record and the records inside it are a tree, for which `StoredFunction.bytes` and
`StoredFunction.prototype` are the rule.

## Key results

* `bytes_node`                 a record is its head, its children in order, its debug information
* `prototype_node`             a source that is absent or empty is that of the function around it
* `inheritSources_asStored`    resolving sources afterwards gives the same function
-/

namespace LuaChunk

/-- One rule of the grammar: a stored form `s` of type `β` is laid out as `bytes s` and stands for
`value s`. -/
structure Form (β α : Type) where
  bytes : β → Bytes
  value : β → α
  /-- Whether the sizes and counts of a form fit in their fields. -/
  Fits : β → Prop := fun _ => True
  /-- What a reader notes of a form that begins at a given offset. -/
  findings : Nat → β → Array Finding := fun _ _ => #[]

/-! ### Values of fixed width -/

namespace Form

/-- Bytes that are always the same. -/
def literal (bs : Bytes) : Form Unit Unit where
  bytes _ := bs
  value := id

/-- A byte. -/
def byte : Form UInt8 UInt8 where
  bytes b := [b]
  value b := b

/-- A truth value: any byte but zero is true. -/
def truth : Form UInt8 Bool where
  bytes b := [b]
  value b := b != 0

/-- A value with a number of its own, in `width` bytes, least significant first. -/
def fixed {α : Type} (width : Nat) (toNat : α → Nat) : Form α α where
  bytes a := Bytes.leBytes width (toNat a)
  value a := a

/-- A line or an instruction index: four bytes. -/
def int : Form Int32 Int32 :=
  fixed 4 fun i => i.toUInt32.toNat

/-- A floating-point number: eight bytes. -/
def number : Form Binary64 Binary64 :=
  fixed 8 fun x => x.bits.toNat

/-- An instruction word: four bytes. -/
def instruction : Form Instruction Instruction :=
  fixed 4 fun ins => ins.word.toNat

end Form

/-! ### Sequences -/

namespace Form

variable {α β : Type}

/-- What a reader notes of several forms that stand one after the other. -/
def findingsAll (F : Form β α) : Nat → List β → Array Finding
  | _, [] => #[]
  | start, s :: ss => F.findings start s ++ findingsAll F (start + (F.bytes s).length) ss

/-- Several forms, one after the other. -/
def list (F : Form β α) : Form (List β) (List α) where
  bytes ss := ss.flatMap F.bytes
  value ss := ss.map F.value
  Fits ss := ∀ s ∈ ss, F.Fits s
  findings := F.findingsAll

/-- A count of four bytes and that many forms. -/
def counted (F : Form β α) : Form (List β) (List α) where
  bytes ss := Bytes.leBytes 4 ss.length ++ F.list.bytes ss
  value := F.list.value
  Fits ss := ss.length < 2 ^ 32 ∧ F.list.Fits ss
  findings start := F.list.findings (start + 4)

/-- Forms of at least `n` bytes each take at least `n` bytes for each of them. -/
theorem mul_length_le_length_list {F : Form β α} {n : Nat} {ss : List β}
    (hn : ∀ s ∈ ss, n ≤ (F.bytes s).length) : ss.length * n ≤ (F.list.bytes ss).length := by
  induction ss with
  | nil => simp
  | cons s ss ih =>
    -- the first form takes `n` bytes, and the others theirs by induction
    have hs := hn s List.mem_cons_self
    have hss := ih fun s hs => hn s (List.mem_cons_of_mem _ hs)
    simp only [list, List.flatMap_cons, List.length_append, List.length_cons, Nat.succ_mul] at *
    omega

/-- No form of a sequence takes more bytes than the whole sequence. -/
theorem length_le_length_list {F : Form β α} {s : β} {ss : List β} (hs : s ∈ ss) :
    (F.bytes s).length ≤ (F.list.bytes ss).length := by
  obtain ⟨before, after, rfl⟩ := List.append_of_mem hs
  simp only [list, List.flatMap_append, List.flatMap_cons, List.length_append]
  omega

/-- A counted sequence stands for as many values as it has forms. -/
theorem length_value_counted (F : Form β α) (ss : List β) :
    (F.counted.value ss).length = ss.length :=
  List.length_map _

/-- A count adds four bytes to the sequence behind it. -/
theorem length_counted (F : Form β α) (ss : List β) :
    (F.counted.bytes ss).length = 4 + (F.list.bytes ss).length := by
  simp [counted]

/-- With their count, forms of at least `n` bytes each take four bytes and `n` for each of them. -/
theorem mul_length_le_length_counted {F : Form β α} {n : Nat} {ss : List β}
    (hn : ∀ s ∈ ss, n ≤ (F.bytes s).length) : 4 + n * ss.length ≤ (F.counted.bytes ss).length := by
  rw [length_counted, Nat.mul_comm]
  exact Nat.add_le_add_left (mul_length_le_length_list hn) 4

/-- A sequence of entries that are not empty has no more entries than bytes. -/
theorem length_le_length_counted {F : Form β α} (hpos : ∀ s, 1 ≤ (F.bytes s).length)
    (ss : List β) : ss.length ≤ (F.counted.bytes ss).length := by
  have h := mul_length_le_length_counted fun s (_ : s ∈ ss) => hpos s
  omega

/-- No form of a counted sequence takes more bytes than the sequence with its count. -/
theorem length_le_length_counted_of_mem {F : Form β α} {s : β} {ss : List β} (hs : s ∈ ss) :
    (F.bytes s).length ≤ (F.counted.bytes ss).length := by
  have h := length_le_length_list (F := F) hs
  rw [length_counted]
  omega

end Form

/-! ### Strings -/

/-- A string as a chunk stores it. -/
structure StoredString where
  /-- The string, if it is present. -/
  content : Option Bytes
  /-- Whether the size takes eight bytes after the byte `FF`, rather than one byte. -/
  escaped : Bool
  deriving DecidableEq, Repr

/-- The size that is stored: one more than the length, or zero for an absent string. -/
def StoredString.size (s : StoredString) : Nat :=
  match s.content with
  | none => 0
  | some bs => bs.length + 1

/-- A string: its size, then its content. -/
def Form.string : Form StoredString (Option Bytes) where
  bytes s :=
    (if s.escaped then 0xFF :: Bytes.leBytes 8 s.size else [.ofNat s.size]) ++ s.content.getD []
  value := StoredString.content
  Fits s := s.size < if s.escaped then 2 ^ 64 else 0xFF

/-- A size below 255 survives in one byte. -/
theorem StoredString.toNat_shortSize {size : Nat} (h : size < 0xFF) :
    (UInt8.ofNat size).toNat = size :=
  UInt8.toNat_ofNat_of_lt' (Nat.lt_trans h (by decide))

/-- A size in one byte is not taken for the escape. -/
theorem StoredString.shortSize_ne_escape {size : Nat} (h : size < 0xFF) :
    UInt8.ofNat size ≠ 0xFF := by
  intro hescape
  have hsize := toNat_shortSize h
  rw [hescape] at hsize
  exact Nat.ne_of_lt h hsize.symm

/-- A string takes more bytes than its content has: its size stands before it. -/
theorem StoredString.length_content_lt (s : StoredString) :
    (s.content.getD []).length < (Form.string.bytes s).length := by
  simp only [Form.string, List.length_append]
  split <;> simp

/-- The shortest string is a size in one byte. -/
theorem one_le_length_string (s : StoredString) : 1 ≤ (Form.string.bytes s).length :=
  Nat.one_le_of_lt s.length_content_lt

/-! ### Constants -/

/-- A constant as a chunk stores it. -/
inductive StoredConstant
  | nil
  | boolean (value : UInt8)
  | float (value : Binary64)
  | integer (value : Int32)
  /-- A string, under the tag of long strings or under that of short ones. -/
  | string (long : Bool) (content : StoredString)
  deriving DecidableEq, Repr

/-- A constant: its tag, then its value. An absent string is an empty one. -/
def Form.constant : Form StoredConstant (Constant Bytes) where
  bytes
    | .nil => [Constant.nilTag]
    | .boolean b => Constant.booleanTag :: Form.truth.bytes b
    | .float x => Constant.floatTag :: Form.number.bytes x
    | .integer i => Constant.integerTag :: Form.int.bytes i
    | .string long s =>
      (if long then Constant.longStringTag else Constant.shortStringTag) :: Form.string.bytes s
  value
    | .nil => .nil
    | .boolean b => .boolean (Form.truth.value b)
    | .float x => .float x
    | .integer i => .integer i.toInt64
    | .string _ s => .string (s.content.getD [])
  Fits
    | .string _ s => Form.string.Fits s
    | _ => True
  findings _
    | .string _ s => #[.string (s.content.getD [])]
    | _ => #[]

/-- A constant has a tag at the least. -/
theorem one_le_length_constant (k : StoredConstant) : 1 ≤ (Form.constant.bytes k).length := by
  cases k <;> simp [Form.constant]

/-! ### Upvalues and local variables -/

/-- An upvalue as a chunk stores it. -/
structure StoredUpvalue where
  inStack : UInt8
  index : UInt8
  deriving DecidableEq, Repr

/-- An upvalue: two bytes. Its name stands elsewhere. -/
def Form.upvalue : Form StoredUpvalue Upvalue where
  bytes u := [u.inStack, u.index]
  value u := ⟨Form.truth.value u.inStack, u.index, none⟩

/-- A local variable as a chunk stores it. -/
structure StoredLocal where
  name : StoredString
  startPc : Int32
  endPc : Int32
  deriving DecidableEq, Repr

/-- A local variable: its name and its range. An absent name is an empty one. -/
def Form.localVariable : Form StoredLocal LocalVariable where
  bytes v := Form.string.bytes v.name ++ Form.int.bytes v.startPc ++ Form.int.bytes v.endPc
  value v := ⟨v.name.content.getD [], v.startPc, v.endPc⟩
  Fits v := Form.string.Fits v.name

/-- A local variable is a name and two numbers of four bytes. -/
theorem nine_le_length_localVariable (v : StoredLocal) :
    9 ≤ (Form.localVariable.bytes v).length := by
  have := one_le_length_string v.name
  simp only [Form.localVariable, Form.int, Form.fixed, List.length_append, Bytes.length_leBytes]
  omega

/-! ### Function records -/

/-- A function record as a chunk stores it, without the records inside it. -/
@[ext]
structure StoredRecord where
  source : StoredString
  lineDefined : Int32
  lastLineDefined : Int32
  numParams : UInt8
  isVararg : UInt8
  maxStackSize : UInt8
  code : List Instruction
  constants : List StoredConstant
  upvalues : List StoredUpvalue
  lineInfo : List Int32
  locals : List StoredLocal
  /-- The names of upvalues, first name to first upvalue. -/
  upvalueNames : List StoredString
  deriving DecidableEq, Repr

namespace StoredRecord

/-- A record in front of the records inside it. -/
def headBytes (r : StoredRecord) : Bytes :=
  Form.string.bytes r.source ++ Form.int.bytes r.lineDefined ++ Form.int.bytes r.lastLineDefined
    ++ [r.numParams, r.isVararg, r.maxStackSize] ++ Form.instruction.counted.bytes r.code
    ++ Form.constant.counted.bytes r.constants ++ Form.upvalue.counted.bytes r.upvalues

/-- A record behind the records inside it. -/
def debugBytes (r : StoredRecord) : Bytes :=
  Form.int.counted.bytes r.lineInfo ++ Form.localVariable.counted.bytes r.locals
    ++ Form.string.counted.bytes r.upvalueNames

/-- Whether a record fits: its strings and counts do, and no more upvalues are named than there
are. -/
structure Fits (r : StoredRecord) : Prop where
  source : Form.string.Fits r.source
  code : Form.instruction.counted.Fits r.code
  constants : Form.constant.counted.Fits r.constants
  upvalues : Form.upvalue.counted.Fits r.upvalues
  lineInfo : Form.int.counted.Fits r.lineInfo
  locals : Form.localVariable.counted.Fits r.locals
  upvalueNames : Form.string.counted.Fits r.upvalueNames
  length_upvalueNames_le : r.upvalueNames.length ≤ r.upvalues.length

/-- The upvalues of a function; those past the last name that is stored have none. -/
def namedUpvalues (r : StoredRecord) : List Upvalue :=
  r.upvalues.mapIdx fun i u =>
    { Form.upvalue.value u with name := r.upvalueNames[i]?.bind Form.string.value }

/-- The function that a record stands for, if its source is `source`. -/
def value (source : Option Bytes) (r : StoredRecord) : FunctionRecord Bytes where
  source
  lineDefined := r.lineDefined
  lastLineDefined := r.lastLineDefined
  numParams := r.numParams
  isVararg := Form.truth.value r.isVararg
  maxStackSize := r.maxStackSize
  code := r.code
  constants := Form.constant.counted.value r.constants
  upvalues := r.namedUpvalues
  lineInfo := r.lineInfo
  locals := Form.localVariable.counted.value r.locals

/-- The source of a function inside a function of source `parent`: an absent or empty source is
that of the parent. -/
def resolvedSource (parent : Option Bytes) (r : StoredRecord) : Option Bytes :=
  if r.source.content.getD [] = [] then parent else r.source.content

/-- A source is that of the parent, or is stored and not empty. -/
theorem resolvedSource_eq_or (parent : Option Bytes) (r : StoredRecord) :
    r.resolvedSource parent = parent ∨
      r.resolvedSource parent = r.source.content ∧ r.source.content.getD [] ≠ [] := by
  by_cases h : r.source.content.getD [] = []
  · exact .inl (if_pos h)
  · exact .inr ⟨if_neg h, h⟩

/-- The source that the grammar gives a nested function is the one that the reader settles on. -/
theorem resolvedSource_eq (parent : Option Bytes) (r : StoredRecord) :
    r.resolvedSource parent = Prototype.resolveSource parent r.source.content := by
  unfold resolvedSource Prototype.resolveSource
  -- absent, empty and not empty, in this order
  rcases r.source.content with _ | _ | _ <;> simp

end StoredRecord

/-- A function record as a chunk stores it, with the records inside it. -/
abbrev StoredFunction := FunctionTree StoredRecord

namespace StoredFunction

open FunctionTree

/-- How a function record and the records inside it are laid out. -/
def bytes : StoredFunction → Bytes :=
  fold fun r children =>
    r.headBytes ++ (Bytes.leBytes 4 children.length ++ children.flatten) ++ r.debugBytes

/-- The function that a record stands for inside a function of source `parent`. -/
def prototype (parent : Option Bytes) (t : StoredFunction) : Prototype Bytes :=
  (fold (fun r children => fun parent =>
      .node (r.value (r.resolvedSource parent)) (children.map (· (r.resolvedSource parent))))
    t : Option Bytes → Prototype Bytes) parent

/-- The function that a record stands for with every source left as it is stored. -/
def asStored : StoredFunction → Prototype Bytes :=
  mapRecords fun r => r.value r.source.content

/-- Whether a record and the records inside it fit. -/
def Fits : StoredFunction → Prop :=
  All fun r children => r.Fits ∧ children < 2 ^ 32

mutual

/-- What a reader notes of a record at depth `depth` that begins at offset `start`: its strings,
then what it notes of the records inside it, then the record itself. -/
def findings (depth start : Nat) : StoredFunction → Array Finding
  | .node r cs =>
    Form.constant.counted.findings start r.constants
      ++ findingsAll (depth + 1) (start + r.headBytes.length + 4) cs
      ++ #[.record ⟨start, depth, r.lineDefined, r.code.length, r.constants.length⟩]

/-- What a reader notes of several records at depth `depth`. -/
def findingsAll (depth start : Nat) : List StoredFunction → Array Finding
  | [] => #[]
  | c :: cs => findings depth start c ++ findingsAll depth (start + (bytes c).length) cs

end

end StoredFunction

/-- A function record at depth `depth` with records nested `room - 1` deep inside it at most. -/
def Form.function (depth room : Nat) : Form StoredFunction (Prototype Bytes) where
  bytes := StoredFunction.bytes
  value := StoredFunction.asStored
  Fits t := t.Fits ∧ t.height < room
  findings := StoredFunction.findings depth

namespace StoredFunction

open FunctionTree

/-- A record is its head, its children as a counted sequence, and its debug information. -/
theorem bytes_node (depth room : Nat) (r : StoredRecord) (cs : List StoredFunction) :
    bytes (.node r cs) =
      r.headBytes ++ (Form.function depth room).counted.bytes cs ++ r.debugBytes := by
  simp only [bytes, fold_node, Form.counted, Form.list, Form.function, List.length_map,
    List.flatMap]

/-- The children of a function take over the source that the function itself has. -/
theorem prototype_node (parent : Option Bytes) (r : StoredRecord) (cs : List StoredFunction) :
    prototype parent (.node r cs) =
      .node (r.value (r.resolvedSource parent)) (cs.map (prototype (r.resolvedSource parent))) := by
  simp only [prototype, fold_node, List.map_map]
  rfl

/-- What does not depend on the source is told of the function as it is told of the record. -/
theorem mapRecords_prototype {ο : Type} {f : FunctionRecord Bytes → ο} {g : StoredRecord → ο}
    (h : ∀ r source, f (r.value source) = g r) (t : StoredFunction) (parent : Option Bytes) :
    mapRecords f (t.prototype parent) = mapRecords g t := by
  induction t using FunctionTree.induction generalizing parent with
  | node r cs ih =>
    rw [prototype_node, mapRecords_node, mapRecords_node, h, List.map_map]
    exact congrArg _ (List.map_congr_left fun c hc => ih c hc _)

/-- With sources as they are stored, a record stands for a function that keeps its own source. -/
theorem asStored_node (r : StoredRecord) (cs : List StoredFunction) :
    asStored (.node r cs) = .node (r.value r.source.content) (cs.map asStored) :=
  mapRecords_node ..

/-- A record fits if it does so itself, its children can be counted and each of them fits. -/
theorem fits_node {r : StoredRecord} {cs : List StoredFunction} :
    Fits (.node r cs) ↔ (r.Fits ∧ cs.length < 2 ^ 32) ∧ ∀ c ∈ cs, Fits c :=
  all_node

/-- Below a record there is room for one level of nesting less. -/
theorem fits_function_node {depth room : Nat} {r : StoredRecord} {cs : List StoredFunction} :
    (Form.function depth (room + 1)).Fits (.node r cs) ↔
      r.Fits ∧ (Form.function (depth + 1) room).counted.Fits cs := by
  show Fits (.node r cs) ∧ height (.node r cs) < room + 1 ↔
    r.Fits ∧ cs.length < 2 ^ 32 ∧ ∀ c ∈ cs, Fits c ∧ height c < room
  -- both bounds pass from the node to its children, the one on depth less one
  rw [fits_node, height_node_lt_succ_iff]
  constructor
  · rintro ⟨⟨⟨hr, hlt⟩, hcs⟩, hheight⟩
    exact ⟨hr, hlt, fun c hc => ⟨hcs c hc, hheight c hc⟩⟩
  · rintro ⟨hr, hlt, hcs⟩
    exact ⟨⟨⟨hr, hlt⟩, fun c hc => (hcs c hc).1⟩, fun c hc => (hcs c hc).2⟩

/-- A reader notes the constants of a record, then its children, then the record. -/
theorem findings_node (depth room start : Nat) (r : StoredRecord) (cs : List StoredFunction) :
    findings depth start (.node r cs) =
      Form.constant.counted.findings start r.constants
        ++ (Form.function (depth + 1) room).counted.findings (start + r.headBytes.length) cs
        ++ #[.record ⟨start, depth, r.lineDefined, r.code.length, r.constants.length⟩] := by
  -- the records of a list are noted as those of any sequence of forms
  have hall : ∀ cs start, findingsAll (depth + 1) start cs =
      (Form.function (depth + 1) room).findingsAll start cs := by
    intro cs
    -- the offset moves along the list, so it is general in the induction
    induction cs with
    | nil => intro start; simp [findingsAll, Form.findingsAll]
    | cons c cs ih => intro start; simp only [findingsAll, Form.findingsAll, ih]; rfl
  rw [findings, hall]
  rfl

/-- A record stands for a function with as many upvalues as the record has, whatever the sources. -/
theorem length_upvalues_asStored (t : StoredFunction) :
    t.asStored.record.upvalues.length = t.record.upvalues.length := by
  rw [asStored, record_mapRecords]
  exact List.length_mapIdx

/-- Resolving sources leaves the number of upvalues alone. -/
theorem length_upvalues_prototype (t : StoredFunction) (parent : Option Bytes) :
    (t.prototype parent).record.upvalues.length = t.record.upvalues.length := by
  cases t
  rw [prototype_node]
  exact List.length_mapIdx

/-- Reading every source as it is stored and passing sources on afterwards gives the function. -/
theorem inheritSources_asStored (t : StoredFunction) (parent : Option Bytes) :
    t.asStored.inheritSources parent = t.prototype parent := by
  induction t using FunctionTree.induction generalizing parent with
  | node r cs ih =>
    rw [asStored_node, Prototype.inheritSources_node, prototype_node, List.map_map,
      r.resolvedSource_eq]
    -- both sides hand the same source on, so that the children differ in nothing either
    congr 1
    exact List.map_congr_left fun c hc => ih c hc _

@[simp] theorem height_prototype (t : StoredFunction) (parent : Option Bytes) :
    (t.prototype parent).height = t.height := by
  induction t using FunctionTree.induction generalizing parent with
  | node r cs ih =>
    rw [prototype_node, height_node, height_node, List.map_map]
    congr 1
    exact List.map_congr_left fun c hc => congrArg (· + 1) (ih c hc _)

end StoredFunction

/-! ### Chunks -/

/-- The header, which is the same in every chunk. -/
def Form.header : Form Unit Header where
  bytes _ := Header.bytes
  value _ := Header.standard

/-- A chunk: the number of upvalues declared for the main function, and its record. -/
structure StoredChunk where
  upvalueCount : UInt8
  main : StoredFunction

namespace StoredChunk

/-- How a chunk is laid out. -/
def bytes (chunk : StoredChunk) : Bytes :=
  Header.bytes ++ chunk.upvalueCount :: chunk.main.bytes

/-- A chunk is the header, one byte for the upvalues, and the main record. -/
theorem length_bytes (chunk : StoredChunk) :
    chunk.bytes.length = Header.bytes.length + 1 + chunk.main.bytes.length := by
  simp only [bytes, List.length_append, List.length_cons]
  omega

/-- The closure that a chunk stands for; there is no source around the main function. -/
def closure (chunk : StoredChunk) : Closure Bytes :=
  ⟨chunk.upvalueCount, chunk.main.prototype none⟩

/-- Whether a chunk fits: its main function does, and has as many upvalues as are declared. -/
structure Fits (chunk : StoredChunk) : Prop where
  main : chunk.main.Fits
  upvalueCount : chunk.upvalueCount.toNat = chunk.main.record.upvalues.length

end StoredChunk

/-- A chunk whose functions are nested at most `limit` deep. -/
def Form.chunk (limit : Nat) : Form StoredChunk (Closure Bytes) where
  bytes := StoredChunk.bytes
  value := StoredChunk.closure
  Fits chunk := chunk.Fits ∧ chunk.main.height ≤ limit
  findings start chunk := chunk.main.findings 0 (start + Header.bytes.length + 1)

/-! ### Deciding whether a form fits -/

instance {α β : Type} {F : Form β α} [∀ s, Decidable (F.Fits s)] (ss : List β) :
    Decidable (F.counted.Fits ss) :=
  inferInstanceAs (Decidable (ss.length < 2 ^ 32 ∧ ∀ s ∈ ss, F.Fits s))

instance (i : Int32) : Decidable (Form.int.Fits i) :=
  .isTrue trivial

instance (ins : Instruction) : Decidable (Form.instruction.Fits ins) :=
  .isTrue trivial

instance (s : StoredString) : Decidable (Form.string.Fits s) :=
  inferInstanceAs (Decidable (s.size < if s.escaped then 2 ^ 64 else 0xFF))

instance (k : StoredConstant) : Decidable (Form.constant.Fits k) :=
  match k with
  | .string _ s => inferInstanceAs (Decidable (Form.string.Fits s))
  | .nil | .boolean _ | .float _ | .integer _ => .isTrue trivial

instance (u : StoredUpvalue) : Decidable (Form.upvalue.Fits u) :=
  .isTrue trivial

instance (v : StoredLocal) : Decidable (Form.localVariable.Fits v) :=
  inferInstanceAs (Decidable (Form.string.Fits v.name))

instance (r : StoredRecord) : Decidable r.Fits :=
  decidable_of_iff
    (Form.string.Fits r.source ∧ Form.instruction.counted.Fits r.code ∧
      Form.constant.counted.Fits r.constants ∧ Form.upvalue.counted.Fits r.upvalues ∧
      Form.int.counted.Fits r.lineInfo ∧ Form.localVariable.counted.Fits r.locals ∧
      Form.string.counted.Fits r.upvalueNames ∧ r.upvalueNames.length ≤ r.upvalues.length)
    ⟨fun ⟨h₁, h₂, h₃, h₄, h₅, h₆, h₇, h₈⟩ => ⟨h₁, h₂, h₃, h₄, h₅, h₆, h₇, h₈⟩,
      fun ⟨h₁, h₂, h₃, h₄, h₅, h₆, h₇, h₈⟩ => ⟨h₁, h₂, h₃, h₄, h₅, h₆, h₇, h₈⟩⟩

instance (t : StoredFunction) : Decidable t.Fits :=
  inferInstanceAs (Decidable (FunctionTree.All _ t))

instance (chunk : StoredChunk) : Decidable chunk.Fits :=
  decidable_of_iff
    (chunk.main.Fits ∧ chunk.upvalueCount.toNat = chunk.main.record.upvalues.length)
    ⟨fun ⟨h₁, h₂⟩ => ⟨h₁, h₂⟩, fun ⟨h₁, h₂⟩ => ⟨h₁, h₂⟩⟩

instance (limit : Nat) (chunk : StoredChunk) : Decidable ((Form.chunk limit).Fits chunk) :=
  inferInstanceAs (Decidable (chunk.Fits ∧ chunk.main.height ≤ limit))

end LuaChunk
