import LuaChunk.Constant
import LuaChunk.FunctionTree
import LuaChunk.Instruction

/-!
# Function prototypes

What a chunk says of a function: its own fields are a record, and the functions inside it are the
children of its node in a tree of such records.

## Key results

* `inheritSources_node`, `elideSources_node`   how sources pass from a function to those inside it
-/

namespace LuaChunk

/-- Where a function finds one of the variables it captures. -/
structure Upvalue where
  /-- Whether it is a register of the enclosing function, rather than one of its upvalues. -/
  inStack : Bool
  index : UInt8
  /-- The variable's name, if debug information names it. -/
  name : Option Bytes
  deriving DecidableEq, Repr

/-- A local variable and the range of instructions in which it lives. -/
structure LocalVariable where
  name : Bytes
  startPc : Int32
  endPc : Int32
  deriving DecidableEq, Repr

/-- A function's own fields, without the functions inside it. -/
structure FunctionRecord (σ : Type) where
  /-- The name of the source text, if it is known. -/
  source : Option Bytes
  lineDefined : Int32
  lastLineDefined : Int32
  numParams : UInt8
  isVararg : Bool
  maxStackSize : UInt8
  code : List Instruction
  constants : List (Constant σ)
  upvalues : List Upvalue
  /-- The source line of each instruction; its length need not be that of the code. -/
  lineInfo : List Int32
  locals : List LocalVariable
  deriving DecidableEq, Repr

namespace FunctionRecord

/-- A record with every string constant replaced. -/
def map {σ τ : Type} (f : σ → τ) (r : FunctionRecord σ) : FunctionRecord τ :=
  { r with constants := r.constants.map (Constant.map f) }

/-- Whether this is the main function of a chunk, which is defined on no line. -/
def isMain {σ : Type} (r : FunctionRecord σ) : Bool :=
  r.lineDefined = 0

/-- The name of the source as text. -/
def sourceText {σ : Type} (r : FunctionRecord σ) : String :=
  match r.source with
  | some source => Utf8.decode source
  | none => "=?"

/-- A record without line information, local variables and upvalue names. -/
def dropDebug {σ : Type} (r : FunctionRecord σ) : FunctionRecord σ :=
  { r with
    lineInfo := []
    locals := []
    upvalues := r.upvalues.map fun u => { u with name := none } }

/-- Equality of records in which constants compare as constants. -/
def same (r s : FunctionRecord Bytes) : Bool :=
  -- all fields but the constants compare as they are
  ({ r with constants := [] } : FunctionRecord Bytes) == { s with constants := [] }
    && r.constants.isEqv s.constants Constant.same

end FunctionRecord

/-- A function with the functions inside it; `σ` is the type of string constants. -/
abbrev Prototype (σ : Type) := FunctionTree (FunctionRecord σ)

namespace Prototype

open FunctionTree

variable {σ τ : Type}

/-! ### Changing every record -/

/-- A tree with every string constant replaced. -/
def map (f : σ → τ) : Prototype σ → Prototype τ :=
  mapRecords (FunctionRecord.map f)

/-- A tree without line information, local variables and upvalue names. -/
def dropDebug : Prototype σ → Prototype σ :=
  mapRecords FunctionRecord.dropDebug

/-- A tree without sources and debug information. -/
def strip : Prototype σ → Prototype σ :=
  mapRecords fun r => { r.dropDebug with source := none }

/-! ### Sources

A chunk does not repeat the source of a function for the functions inside it. -/

/-- The source of a function of which a chunk stores `stored`, inside a function of source
`parent`: an absent or empty source is that of the parent. -/
def resolveSource (parent stored : Option Bytes) : Option Bytes :=
  match stored with
  | some (b :: bs) => some (b :: bs)
  | _ => parent

/-- A tree in which every function without a source of its own has that of its parent; `parent` is
the source around the root. -/
def inheritSources (p : Prototype σ) (parent : Option Bytes) : Prototype σ :=
  (fold (fun r children => fun parent =>
      let source := resolveSource parent r.source
      .node { r with source } (children.map (· source)))
    p : Option Bytes → Prototype σ) parent

/-- The source of a node, its own or that around it, is around its children. -/
theorem inheritSources_node (r : FunctionRecord σ) (cs : List (Prototype σ))
    (parent : Option Bytes) :
    inheritSources (.node r cs) parent =
      .node { r with source := resolveSource parent r.source }
        (cs.map (·.inheritSources (resolveSource parent r.source))) := by
  simp only [inheritSources, fold_node, List.map_map, Function.comp_def]

/-- A tree in which every source equal to that of the parent is left out; `parent` is the source
around the root. -/
def elideSources (p : Prototype σ) (parent : Option Bytes) : Prototype σ :=
  (fold (fun r children => fun parent =>
      let source := if r.source = parent then none else r.source
      -- around the children is the source itself, even where it is left out
      .node { r with source } (children.map (· r.source)))
    p : Option Bytes → Prototype σ) parent

/-- The source of a node is left out if it is the one around it, and it is the one around its
children. -/
theorem elideSources_node (r : FunctionRecord σ) (cs : List (Prototype σ))
    (parent : Option Bytes) :
    elideSources (.node r cs) parent =
      .node { r with source := if r.source = parent then none else r.source }
        (cs.map (·.elideSources r.source)) := by
  simp only [elideSources, fold_node, List.map_map, Function.comp_def]

/-! ### Equality -/

mutual

/-- Equality of trees in which constants compare as constants. -/
def same : Prototype Bytes → Prototype Bytes → Bool
  | .node r cs, .node s ds => r.same s && sameAll cs ds

/-- Equality of lists of trees. -/
def sameAll : List (Prototype Bytes) → List (Prototype Bytes) → Bool
  | [], [] => true
  | c :: cs, d :: ds => same c d && sameAll cs ds
  | _, _ => false

end

end Prototype

/-- What a chunk describes: its main function and the number of upvalues declared for it. -/
structure Closure (σ : Type) where
  upvalueCount : UInt8
  prototype : Prototype σ

namespace Closure

variable {σ τ : Type}

/-- A closure with every string constant replaced. -/
def map (f : σ → τ) (c : Closure σ) : Closure τ :=
  ⟨c.upvalueCount, c.prototype.map f⟩

/-- A closure without line information, local variables and upvalue names. -/
def dropDebug (c : Closure σ) : Closure σ :=
  ⟨c.upvalueCount, c.prototype.dropDebug⟩

/-- A closure without sources and debug information. -/
def strip (c : Closure σ) : Closure σ :=
  ⟨c.upvalueCount, c.prototype.strip⟩

/-- Equality of closures in which constants compare as constants. -/
def same (c d : Closure Bytes) : Bool :=
  c.upvalueCount == d.upvalueCount && c.prototype.same d.prototype

end Closure

end LuaChunk
