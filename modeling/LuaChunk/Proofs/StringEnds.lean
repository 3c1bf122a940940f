import LuaChunk.Proofs.Loading

/-!
# Where the strings of a chunk end

The string constants of a chunk in the order in which they stand: those of a function record, then
those of the records inside it. `StringEnds` lists with each string the offset behind its last byte.
A chunk that is cut short still has its first strings, those that end in front of the cut.

Nothing here refers to how a chunk is read.

## Key results

* `contents_stringEnds`   the strings that end in a stored function are those of the function
* `strings_map`           a change of every string changes the list of strings string by string
* `strings_mapRecords`    the strings remain where no record changes its constants
-/

namespace LuaChunk

/-! ### Ends of strings -/

/-- The contents of strings, each with the offset behind its last byte. -/
abbrev StringEnds := List (Nat × Bytes)

namespace StringEnds

/-- The contents of the strings. -/
def contents (ends : StringEnds) : List Bytes :=
  ends.map (·.2)

/-- The contents of the strings that end at `limit` or before. -/
def within (limit : Nat) (ends : StringEnds) : List Bytes :=
  contents (ends.filter (·.1 ≤ limit))

@[simp] theorem contents_append (ends ends' : StringEnds) :
    contents (ends ++ ends') = contents ends ++ contents ends' :=
  List.map_append

end StringEnds

/-- The ends of the strings of several forms that stand one after the other. -/
def Form.endsAll {α β : Type} (F : Form β α) (ends : Nat → β → StringEnds) :
    Nat → List β → StringEnds
  | _, [] => []
  | start, s :: ss => ends start s ++ F.endsAll ends (start + (F.bytes s).length) ss

/-- A string constant ends with its content. -/
def StoredConstant.stringEnds (start : Nat) (k : StoredConstant) : StringEnds :=
  match k with
  | .string _ s => [(start + (Form.constant.bytes k).length, s.content.getD [])]
  | _ => []

namespace StoredRecord

/-- A record in front of its constants. -/
def frontBytes (r : StoredRecord) : Bytes :=
  Form.string.bytes r.source ++ Form.int.bytes r.lineDefined ++ Form.int.bytes r.lastLineDefined
    ++ [r.numParams, r.isVararg, r.maxStackSize] ++ Form.instruction.counted.bytes r.code

/-- The ends of the string constants of a record, without those of the records inside it. -/
def stringEnds (start : Nat) (r : StoredRecord) : StringEnds :=
  Form.constant.endsAll StoredConstant.stringEnds (start + r.frontBytes.length + 4) r.constants

end StoredRecord

namespace StoredFunction

mutual

/-- The ends of the string constants of a record that begins at `start`, then of those of the
records inside it. -/
def stringEnds (start : Nat) : StoredFunction → StringEnds
  | .node r cs => r.stringEnds start ++ stringEndsAll (start + r.headBytes.length + 4) cs

/-- The ends of the string constants of several records. -/
def stringEndsAll (start : Nat) : List StoredFunction → StringEnds
  | [] => []
  | c :: cs => stringEnds start c ++ stringEndsAll (start + (bytes c).length) cs

end

/-- The strings of a node end in its record and then in its children, which stand one after the
other behind their count. -/
theorem stringEnds_node (depth room start : Nat) (r : StoredRecord) (cs : List StoredFunction) :
    stringEnds start (.node r cs) = r.stringEnds start ++
      (Form.function depth room).endsAll stringEnds (start + r.headBytes.length + 4) cs := by
  -- the two recursions over the children add up the same lengths
  have hall : ∀ start, stringEndsAll start cs =
      (Form.function depth room).endsAll stringEnds start cs := by
    induction cs with
    | nil => intro start; rfl
    | cons c cs ih => intro start; simp only [stringEndsAll, Form.endsAll, ih]; rfl
  rw [stringEnds, hall]

end StoredFunction

/-- The contents of the string constants of a chunk that end within its first `n` bytes. -/
def StoredChunk.stringsWithin (chunk : StoredChunk) (n : Nat) : List Bytes :=
  (chunk.main.stringEnds (Header.bytes.length + 1)).within n

/-! ### All strings of a function -/

/-- The content of a constant, if it is a string. -/
def Constant.strings {σ : Type} : Constant σ → List σ
  | .string content => [content]
  | _ => []

/-- The string constants of a record, in the order of its constants. -/
def FunctionRecord.strings {σ : Type} (r : FunctionRecord σ) : List σ :=
  r.constants.flatMap Constant.strings

/-- The string constants of a function and of the functions inside it: parents first, children in
order. -/
def Prototype.strings {σ : Type} : Prototype σ → List σ :=
  FunctionTree.fold fun r children => r.strings ++ children.flatten

/-- The strings of a node are those of its record, then those of its children. -/
theorem Prototype.strings_node {σ : Type} (r : FunctionRecord σ) (cs : List (Prototype σ)) :
    strings (.node r cs) = r.strings ++ cs.flatMap strings :=
  FunctionTree.fold_node ..

/-- A change of every string of a record changes the list of them string by string. -/
theorem FunctionRecord.strings_map {σ τ : Type} (f : σ → τ) (r : FunctionRecord σ) :
    (r.map f).strings = r.strings.map f := by
  simp only [strings, map, List.flatMap_map, List.map_flatMap]
  congr 1
  funext k
  -- only a string constant has a string in it
  cases k <;> rfl

theorem Prototype.strings_map {σ τ : Type} (f : σ → τ) (p : Prototype σ) :
    (p.map f).strings = p.strings.map f := by
  induction p using FunctionTree.induction with
  | node r cs ih =>
    rw [map, FunctionTree.mapRecords_node, strings_node, strings_node, List.flatMap_map,
      FunctionRecord.strings_map, List.map_append, List.map_flatMap]
    exact congrArg (_ ++ ·.flatten) (List.map_congr_left ih)

/-- Where no record changes its constants, the strings remain. -/
theorem Prototype.strings_mapRecords {σ : Type} {f : FunctionRecord σ → FunctionRecord σ}
    (h : ∀ r, (f r).constants = r.constants) (p : Prototype σ) :
    strings (FunctionTree.mapRecords f p) = p.strings := by
  induction p using FunctionTree.induction with
  | node r cs ih =>
    have hr : (f r).strings = r.strings := congrArg (List.flatMap Constant.strings) (h r)
    rw [FunctionTree.mapRecords_node, strings_node, strings_node, List.flatMap_map, hr]
    exact congrArg (_ ++ ·.flatten) (List.map_congr_left ih)

theorem Prototype.strings_dropDebug {σ : Type} (p : Prototype σ) :
    p.dropDebug.strings = p.strings := by
  apply strings_mapRecords
  exact fun _ => rfl

theorem Prototype.strings_strip {σ : Type} (p : Prototype σ) : p.strip.strings = p.strings := by
  apply strings_mapRecords
  exact fun _ => rfl

/-- The strings of several forms are those of each, wherever each of them begins. -/
theorem Form.contents_endsAll {α β : Type} (F : Form β α) {ends : Nat → β → StringEnds}
    {strings : β → List Bytes} {ss : List β}
    (h : ∀ s ∈ ss, ∀ start, StringEnds.contents (ends start s) = strings s) (start : Nat) :
    StringEnds.contents (F.endsAll ends start ss) = ss.flatMap strings := by
  induction ss generalizing start with
  | nil => rfl
  | cons s ss ih =>
    rw [endsAll, StringEnds.contents_append, h s List.mem_cons_self,
      ih (fun t ht => h t (List.mem_cons_of_mem _ ht)), List.flatMap_cons]

/-- The strings that end in a stored function are the string constants of the function. -/
theorem StoredFunction.contents_stringEnds (t : StoredFunction) (parent : Option Bytes)
    (start : Nat) : (t.stringEnds start).contents = (t.prototype parent).strings := by
  induction t using FunctionTree.induction generalizing parent start with
  | node r cs ih =>
    -- a constant ends where its only string does
    have hconstant : ∀ k ∈ r.constants, ∀ start, StringEnds.contents
        (StoredConstant.stringEnds start k) = (Form.constant.value k).strings := by
      intro k _ start
      cases k <;> rfl
    -- the record in front, then the children by induction
    rw [stringEnds_node 0 0, StringEnds.contents_append, StoredRecord.stringEnds,
      Form.contents_endsAll _ hconstant,
      Form.contents_endsAll _ fun c hc start => ih c hc (r.resolvedSource parent) start,
      prototype_node, Prototype.strings_node, List.flatMap_map]
    congr 1
    exact (List.flatMap_map ..).symm

end LuaChunk
