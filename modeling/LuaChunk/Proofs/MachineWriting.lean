import LuaChunk.Proofs.Machine
import LuaChunk.Proofs.Dumping
import Mathlib.Data.List.Basic

/-!
# Writing on a machine

The one number that a writer computes is the size in front of a string, which is one more than its
length. This file has the writer in a form in which that sum can be undefined. A writer stops at the
first field that cannot be written, and never comes to those behind it.

Of a closure that was loaded every string was read with a size that the machine has, so that it can
be written with one.

## Key results

* `write?_map_some`   fields that are defined are written as ever
* `string?_eq`        a string is defined if its size is
* `dump?_eq`          so is the dump of a closure
-/

namespace LuaChunk

/-! ### Fields -/

namespace Field

/-- A string with its size before it, if the machine has that number. -/
def string? : Option Bytes → Option Field
  | none => some (.ok [0])
  | some content => do
    let size ← Machine.unsigned? (content.length + 1)
    let sizeBytes := if size < 0xFF then [.ofNat size] else 0xFF :: Bytes.leBytes 8 size
    return .ok (sizeBytes ++ content)

/-- A constant; in front of a string stands its size. -/
def constant? : Constant Bytes → List (Option Field)
  | .string content => [some (.ok [(Constant.string content).tag]), string? (some content)]
  | k => (constant k).map some

/-- A local variable: its name and its range. -/
def localVariable? (v : LocalVariable) : List (Option Field) :=
  [string? (some v.name), some (int v.startPc), some (int v.endPc)]

/-- A string is defined if its size is a number that the machine has. -/
theorem string?_eq {content : Option Bytes} (h : StoredString.Sizable content) :
    string? content = some (string content) := by
  cases content with
  | none => rfl
  | some content =>
    have hsize : Machine.unsigned? (content.length + 1) = some (content.length + 1) :=
      Machine.unsigned?_of_lt h
    rw [string?, hsize]
    rfl

/-- A constant is defined if its string is. -/
theorem constant?_eq {k : Constant Bytes}
    (h : ∀ content, k = .string content → StoredString.Sizable (some content)) :
    constant? k = (constant k).map some := by
  cases k with
  | string content =>
    rw [constant?, string?_eq (h content rfl)]
    rfl
  | _ => rfl

/-- A local variable is defined if its name is. -/
theorem localVariable?_eq {v : LocalVariable} (h : StoredString.Sizable (some v.name)) :
    localVariable? v = (localVariable v).map some := by
  rw [localVariable?, string?_eq h]
  rfl

end Field

/-! ### Records -/

namespace FunctionRecord

variable {r : FunctionRecord Bytes}

/-- The fields of a record in front of the functions inside it. -/
def headFields? (r : FunctionRecord Bytes) : List (Option Field) :=
  Field.string? r.source ::
    [.int r.lineDefined, .int r.lastLineDefined, .ok [r.numParams], .truth r.isVararg,
      .ok [r.maxStackSize]].map some
  ++ (.count r.code.length :: r.code.map fun ins => .ok ins.toBytes).map some
  ++ some (.count r.constants.length) :: r.constants.flatMap Field.constant?
  ++ (.count r.upvalues.length :: r.upvalues.map Field.upvalue).map some

/-- The debug information of a record. -/
def debugFields? (r : FunctionRecord Bytes) : List (Option Field) :=
  (.count r.lineInfo.length :: r.lineInfo.map Field.int).map some
  ++ some (.count r.locals.length) :: r.locals.flatMap Field.localVariable?
  ++ some (.count r.upvalues.length) :: r.upvalues.map fun u => Field.string? u.name

/-- The head of a record is defined if its strings are. -/
theorem headFields?_eq (h : r.Sizable) : r.headFields? = r.headFields.map some := by
  -- only a constant with a string has a size before it
  have hconstants : r.constants.flatMap Field.constant? =
      (r.constants.flatMap Field.constant).map some := by
    rw [List.map_flatMap]
    refine List.flatMap_congr fun k hk => Field.constant?_eq ?_
    rintro content rfl
    exact h.string content (List.mem_flatMap.2 ⟨_, hk, List.mem_singleton_self content⟩)
  simp only [headFields?, headFields, Field.string?_eq h.source, hconstants, List.map_append,
    List.map_cons, List.map_nil, List.cons_append, List.nil_append]

/-- So is its debug information. -/
theorem debugFields?_eq (h : r.Sizable) : r.debugFields? = r.debugFields.map some := by
  have hlocals : r.locals.flatMap Field.localVariable? =
      (r.locals.flatMap Field.localVariable).map some := by
    rw [List.map_flatMap]
    exact List.flatMap_congr fun v hv => Field.localVariable?_eq (h.localName v hv)
  -- each upvalue has a name, or none, which has a size as well
  have hnames : (r.upvalues.map fun u => Field.string? u.name) =
      (r.upvalues.map fun u => Field.string u.name).map some := by
    rw [List.map_map]
    exact List.map_congr_left fun u hu => Field.string?_eq (h.upvalueName u hu)
  simp only [debugFields?, debugFields, hlocals, hnames, List.map_append, List.map_cons]

end FunctionRecord

/-! ### Closures -/

namespace Prototype

open FunctionTree

/-- The fields of a tree of function records, with or without debug information. -/
def fields? (strip : Bool) : Prototype Bytes → List (Option Field) :=
  fold fun r children =>
    r.headFields? ++ some (.count children.length) :: children.flatten
      ++ if strip then FunctionRecord.noDebugFields.map some else r.debugFields?

/-- The fields of a tree are defined if the strings of its records are. -/
theorem fields?_eq {p : Prototype Bytes} (h : p.All fun r _ => r.Sizable) (strip : Bool) :
    p.fields? strip = (p.fields strip).map some := by
  induction p using FunctionTree.induction with
  | node r cs ih =>
    obtain ⟨hr, hcs⟩ := all_node.1 h
    -- the fields of the children, by induction
    have hchildren : (cs.map (fields? strip)).flatten = (cs.flatMap (fields strip)).map some := by
      rw [List.map_flatMap, ← List.flatMap_def]
      exact List.flatMap_congr fun c hc => ih c hc (hcs c hc)
    have hdebug : (if strip then FunctionRecord.noDebugFields.map some else r.debugFields?) =
        (if strip then FunctionRecord.noDebugFields else r.debugFields).map some := by
      cases strip with
      | true => rfl
      | false => exact r.debugFields?_eq hr
    rw [fields?, fold_node, ← fields?, hchildren, hdebug, r.headFields?_eq hr, fields_node,
      List.length_map, List.map_append, List.map_append, List.map_cons]

end Prototype

/-- The fields of the chunk that describes a closure. -/
def Closure.fields? (c : Closure Bytes) (strip : Bool) : List (Option Field) :=
  let stored := if strip then c.prototype.strip else c.prototype
  some (.ok Header.bytes) :: some (.ok [c.upvalueCount]) ::
    (stored.elideSources none).fields? strip

/-- The fields of a closure that was loaded are defined. -/
theorem Closure.fields?_eq {c : Closure Bytes} (h : c.Storable) (strip : Bool) :
    c.fields? strip = (c.fields strip).map some := by
  -- stripping leaves no string without a size
  have hstored : (if strip then c.prototype.strip else c.prototype).All fun r _ => r.Sizable := by
    cases strip with
    | true => exact h.strip.sizable
    | false => exact h.sizable
  rw [fields?, Prototype.fields?_eq
    (Prototype.all_elideSources hstored fun _ _ hr => hr.withoutSource)]
  rfl

/-! ### Sinks -/

/-- Writes fields in order, up to the first that cannot be written; if it comes to a field that is
undefined it has no result. -/
def Sink.write? (s : Sink) : List (Option Field) → Option (Option WriteError × Sink)
  | [] => some (none, s)
  | none :: _ => none
  | some (.error e) :: _ => some (some e, s)
  | some (.ok bs) :: fields =>
    match s.put bs with
    | (true, s) => s.write? fields
    | (false, s) => some (some .sinkFull, s)

/-- Fields that are defined are written as they always are. -/
theorem Sink.write?_map_some (s : Sink) (fields : List Field) :
    s.write? (fields.map some) = some (s.write fields) := by
  induction fields generalizing s with
  | nil => rfl
  | cons f fields ih =>
    cases f with
    | error e => rfl
    -- the sink takes the field, and goes on if it has taken all of it
    | ok bs =>
      rw [List.map_cons, write?, write]
      cases s.put bs with
      | mk whole s =>
        cases whole with
        | true => exact ih s
        | false => rfl

/-- The chunk that describes a closure, if every step of writing it is defined. -/
def dump? (c : Closure Bytes) (strip : Bool) : Option (Except WriteError Bytes) := do
  match ← Sink.growing.write? (c.fields? strip) with
  | (none, s) => return .ok s.written.toList
  | (some e, _) => return .error e

/-- So is the dump of a closure that was loaded. -/
theorem dump?_eq {c : Closure Bytes} (h : c.Storable) (strip : Bool) :
    dump? c strip = some (dump c strip) := by
  rw [dump?, Closure.fields?_eq h, Sink.write?_map_some, dump, Writer.write]
  cases Sink.growing.write (c.fields strip) with
  | mk failure s => cases failure <;> rfl

end LuaChunk
