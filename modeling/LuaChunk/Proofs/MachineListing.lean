import LuaChunk.Proofs.Machine
import LuaChunk.Proofs.Weight
import LuaChunk.Listing

/-!
# Listing on a machine

A listing numbers instructions and constants from 1, counts constants in operands down from -1, and
shows where jumps lead. This file has listings in a form in which each of these sums and differences
can be undefined.

Operands have few bits, and lines have half the width of the numbers that are computed from them, so
that only the number of an instruction or of a constant could leave its width. It does not where the
sequences of a function are no longer than memory can hold.

## Key results

* `registerOrConstant?_eq`   constants are counted down in 32 bits
* `mentions?_eq`             the target of a jump is told in 64 bits
* `lines?_eq`                the lines of a tree are defined if its sequences are short
* `render?_eq`               and so is its listing
-/

namespace LuaChunk

namespace Listing

open Machine

/-! ### Operands -/

/-- An operand that is a register or a constant, in 32 bits. -/
def registerOrConstant? (operand : Nat) : Option Int :=
  if RegisterOrConstant.isConstant operand then
    signed? 32 (-1 - RegisterOrConstant.constantIndex operand)
  else some operand

/-- The operands of an instruction; a constant or an extra operand is counted down in 64 bits. -/
def operandText? (op : Opcode) : Operands → Option String
  | .abc a b c => do
    let b : Int ← if op.bMayBeConstant then registerOrConstant? b else some ↑b
    let c : Int ← if op.cMayBeConstant then registerOrConstant? c else some ↑c
    return s!"{a} {b} {c}"
  | .abx a bx => do
    let bx : Int ← if op = .loadK then signed? 64 (-1 - bx) else some ↑bx
    return s!"{a} {bx}"
  | .asbx a sbx => return s!"{a} {sbx}"
  | .ax ax => do
    let ax ← signed? 64 (-1 - ax)
    return ax.repr

/-- The column with the opcode and the operands. -/
def instructionColumn? (ins : Instruction) : Option String :=
  match ins.opcode? with
  | some op => do
    let text ← operandText? op (ins.operandsIn op.form)
    return padded op.name ++ "\t" ++ text
  | none => some (padded "UNKNOWN" ++ "\t0x" ++ Hex.padded 8 ins.word.toNat)

/-- Taking the constant bit away makes no operand larger. -/
theorem constantIndex_le (operand : Nat) : RegisterOrConstant.constantIndex operand ≤ operand := by
  unfold RegisterOrConstant.constantIndex
  split
  · exact Nat.sub_le ..
  · exact Nat.le_refl _

/-- Constants are counted down in 32 bits. -/
theorem registerOrConstant?_eq {operand : Nat} (h : operand < 2 ^ 31) :
    registerOrConstant? operand = some (registerOrConstant operand) := by
  have hindex := constantIndex_le operand
  have hsigned : signed? 32 (-1 - RegisterOrConstant.constantIndex operand) = some _ :=
    signed?_of_bounds (by omega) (by omega)
  rw [registerOrConstant?, registerOrConstant, hsigned]
  split <;> rfl

/-- No operand of an instruction leaves the width in which it is shown. -/
theorem operandText?_eq (op : Opcode) (ins : Instruction) :
    operandText? op (ins.operandsIn op.form) = some (operandText op (ins.operandsIn op.form)) := by
  cases op.form with
  -- B and C have nine bits and are counted down in 32
  | abc =>
    have hb : ins.b < 1 <<< 9 := ins.field_lt 23 9
    have hc : ins.c < 1 <<< 9 := ins.field_lt 14 9
    have hb? := registerOrConstant?_eq (Nat.lt_trans hb (by decide))
    have hc? := registerOrConstant?_eq (Nat.lt_trans hc (by decide))
    simp only [Instruction.operandsIn, operandText?, operandText, hb?, hc?]
    cases op.bMayBeConstant <;> cases op.cMayBeConstant <;> rfl
  -- Bx has 18 bits, and is counted down in 64 if it names a constant
  | abx =>
    have hbx : ins.bx < 1 <<< 18 := ins.field_lt 14 18
    have hsigned : signed? 64 (-1 - ins.bx) = some _ := signed?_of_bounds (by omega) (by omega)
    simp only [Instruction.operandsIn, operandText?, operandText, hsigned]
    split <;> rfl
  | asbx => rfl
  -- Ax has 26 bits and is counted down in 64
  | ax =>
    have hax : ins.ax < 1 <<< 26 := ins.field_lt 6 26
    have hsigned : signed? 64 (-1 - ins.ax) = some _ := signed?_of_bounds (by omega) (by omega)
    simp only [Instruction.operandsIn, operandText?, operandText, hsigned]
    rfl

/-- The column of every instruction is defined. -/
theorem instructionColumn?_eq (ins : Instruction) :
    instructionColumn? ins = some (instructionColumn ins) := by
  unfold instructionColumn? instructionColumn
  cases ins.opcode? with
  | none => rfl
  | some op =>
    simp only [operandText?_eq op ins]
    rfl

/-! ### Remarks -/

/-- What the remark on the instruction with index `pc` names. The target of a jump is computed in 64
bits, from an index that is cast to a signed number. -/
def mentions? (pc : Nat) (op : Opcode) (ins : Instruction) : Option (List Mention) :=
  match op with
  | .jmp | .forLoop | .forPrep | .tforLoop => do
    let target ← signed? 64 (toSigned pc + ins.sbx)
    let number ← signed? 64 (target + 2)
    return [.target number]
  | op => some (mentions pc op ins)

/-- The target of a jump is told in 64 bits, as long as the index of the jump is not too large. -/
theorem mentions?_eq {pc : Nat} (h : pc < 2 ^ 61) (op : Opcode) (ins : Instruction) :
    mentions? pc op ins = some (mentions pc op ins) := by
  have htarget : (do
      let target ← signed? 64 (toSigned pc + ins.sbx)
      let number ← signed? 64 (target + 2)
      return [Mention.target number]) = some [.target (pc + ins.sbx + 2)] := by
    -- the index leaves room for the operand, which has 18 bits, and for two more
    obtain ⟨hle, hlt⟩ := ins.sbx_bounds
    have hsum : signed? 64 (pc + ins.sbx) = some _ := signed?_of_bounds (by omega) (by omega)
    have hnumber : signed? 64 (pc + ins.sbx + 2) = some _ :=
      signed?_of_bounds (by omega) (by omega)
    have hcast : toSigned pc = pc := toSigned_of_lt (by omega)
    simp only [hcast, hsum, hnumber, Option.bind_eq_bind, Option.bind_some, Option.pure_def]
  cases op with
  -- the jumps, which alone have something to compute
  | jmp | forLoop | forPrep | tforLoop => exact htarget
  | _ => rfl

-- behind as many instructions as a signed number can count, a jump forwards has no target
example : mentions? (2 ^ 63 - 1) .jmp ⟨0xFFFFFFFF⟩ = none := by
  decide

/-- The remark on an instruction, if there is something to name. -/
def Scope.remark? (s : Scope) (pc : Nat) (ins : Instruction) : Option String :=
  match ins.opcode? with
  | none => some ""
  | some op => do
    match ← mentions? pc op ins with
    | [] => return ""
    | named => return "\t; " ++ " ".intercalate (named.map s.mentionText)

/-- So the remark on an instruction is defined. -/
theorem Scope.remark?_eq (s : Scope) {pc : Nat} (h : pc < 2 ^ 61) (ins : Instruction) :
    s.remark? pc ins = some (s.remark pc ins) := by
  unfold remark? remark
  cases ins.opcode? with
  | none => rfl
  | some op =>
    simp only [mentions?_eq h, Option.bind_eq_bind, Option.bind_some]
    cases mentions pc op ins <;> rfl

/-! ### Lines of a function -/

/-- The line of the instruction with index `pc`, which is numbered one more. -/
def Scope.instructionLine? (s : Scope) (pc : Nat) (ins : Instruction) : Option String := do
  let number ← unsigned? (pc + 1)
  let column ← instructionColumn? ins
  let remark ← s.remark? pc ins
  return s!"\t{number}\t[{s.lineText pc}]\t" ++ column ++ remark

/-- The constants of a function, numbered from 1. -/
def constantLines? (r : FunctionRecord Bytes) : Option (List String) := do
  let lines ← (r.constants.mapIdx fun i k => do
    let number ← unsigned? (i + 1)
    return s!"\t{number}\t{k.text}").mapM id
  return s!"constants ({r.constants.length}):" :: lines

/-- The local variables of a function. Their ranges are shown one higher than they are held, in
twice the width. -/
def localLines? (r : FunctionRecord Bytes) : Option (List String) := do
  let lines ← (r.locals.mapIdx fun i v => do
    let startPc ← signed? 64 (v.startPc.toInt + 1)
    let endPc ← signed? 64 (v.endPc.toInt + 1)
    return s!"\t{i}\t{Utf8.decode v.name}\t{startPc}\t{endPc}").mapM id
  return s!"locals ({r.locals.length}):" :: lines

/-- The lines of a function without the functions inside it. -/
def ownLines? (options : ListingOptions) (r : FunctionRecord Bytes) (functions : Nat) :
    Option (List String) := do
  let scope := Scope.ofRecord r
  let code ← (r.code.mapIdx scope.instructionLine?).mapM id
  let constants ← if options.constants then constantLines? r else some []
  let locals ← if options.locals then localLines? r else some []
  let upvalues := if options.upvalues then upvalueLines r else []
  return titleLine r :: summaryLine r functions :: code ++ constants ++ locals ++ upvalues

/-- Entries that are all defined make a list. -/
theorem mapM_id_map_some {α : Type} (xs : List α) : (xs.map some).mapM id = some xs := by
  rw [List.mapM_map]
  exact List.mapM_pure.trans (congrArg some (List.map_id xs))

/-- A list made by index is defined if each of its entries is. -/
theorem mapM_id_mapIdx {α β : Type} {f? : Nat → α → Option β} {f : Nat → α → β} {xs : List α}
    (h : ∀ i x, i < xs.length → f? i x = some (f i x)) :
    (xs.mapIdx f?).mapM id = some (xs.mapIdx f) := by
  have hsome : xs.mapIdx f? = (xs.mapIdx f).map some := by
    -- entry by entry; past the end there is none on either side
    refine List.mapIdx_eq_iff.2 fun i => ?_
    rw [List.getElem?_map, List.getElem?_mapIdx]
    cases hx : xs[i]? with
    | none => rfl
    | some x => exact congrArg some (h i x (List.getElem?_eq_some_iff.1 hx).1).symm
  rw [hsome, mapM_id_map_some]

/-- The line of an instruction is defined as long as its index is not too large. -/
theorem Scope.instructionLine?_eq (s : Scope) {pc : Nat} (h : pc < 2 ^ 61) (ins : Instruction) :
    s.instructionLine? pc ins = some (s.instructionLine pc ins) := by
  have hnumber : unsigned? (pc + 1) = some (pc + 1) := unsigned?_of_lt (by omega)
  rw [instructionLine?, hnumber, instructionColumn?_eq, s.remark?_eq h]
  rfl

/-- Constants are numbered in 64 bits if there are not too many of them. -/
theorem constantLines?_eq {r : FunctionRecord Bytes} (h : r.constants.length < 2 ^ 63) :
    constantLines? r = some (constantLines r) := by
  rw [constantLines?, mapM_id_mapIdx fun i k hi => ?_]
  · rfl
  -- an index below the number of constants, one higher
  · have hnumber : unsigned? (i + 1) = some (i + 1) := unsigned?_of_lt (by omega)
    rw [hnumber]
    rfl

/-- A number of 32 bits can be told one higher in 64. -/
theorem signed?_succ_toInt (i : Int32) : signed? 64 (i.toInt + 1) = some (i.toInt + 1) := by
  have hle := i.le_toInt
  have hlt := i.toInt_lt
  exact signed?_of_bounds (by omega) (by omega)

/-- The lines of local variables are always defined. -/
theorem localLines?_eq (r : FunctionRecord Bytes) : localLines? r = some (localLines r) := by
  rw [localLines?, mapM_id_mapIdx fun i v _ => ?_]
  · rfl
  · rw [signed?_succ_toInt, signed?_succ_toInt]
    rfl

/-- A record that memory can hold has few enough instructions and constants to be numbered. -/
theorem ownLines?_eq (options : ListingOptions) {r : FunctionRecord Bytes}
    (h : r.weight < 2 ^ 63) (functions : Nat) :
    ownLines? options r functions = some (ownLines options r functions) := by
  -- each instruction weighs four, and each constant one at the least
  have hlength := length_le_sum_map Constant.one_le_weight r.constants
  unfold FunctionRecord.weight at h
  have hcode : (r.code.mapIdx (Scope.ofRecord r).instructionLine?).mapM id = some _ :=
    mapM_id_mapIdx fun pc ins hpc => Scope.instructionLine?_eq _ (by omega) ins
  have hconstants : constantLines? r = some (constantLines r) := constantLines?_eq (by omega)
  simp only [ownLines?, ownLines, hcode, hconstants, localLines?_eq]
  cases options.constants <;> cases options.locals <;> rfl

/-! ### Lines of a tree -/

/-- The lines of a function and, in a recursive listing, of the functions inside it. -/
def lines? (options : ListingOptions) : Prototype Bytes → Option (List String) :=
  FunctionTree.fold fun r children => do
    let own ← ownLines? options r children.length
    let inner ← if options.recursive then children.mapM id else some []
    return own ++ inner.flatMap ("" :: ·)

/-- The listing of a function as text, if every step of it is defined. -/
def render? (options : ListingOptions) (p : Prototype Bytes) : Option String := do
  let lines ← lines? options p
  return String.join (lines.map (· ++ "\n"))

/-- The lines of a tree are defined if its sequences are short. -/
theorem lines?_eq (options : ListingOptions) {p : Prototype Bytes} (h : p.weight < 2 ^ 63) :
    lines? options p = some (lines options p) := by
  induction p using FunctionTree.induction with
  | node r cs ih =>
    rw [Prototype.weight_node] at h
    -- no function inside weighs more than there is weight in all
    have hchildren : cs.map (lines? options) = (cs.map (lines options)).map some := by
      rw [List.map_map]
      refine List.map_congr_left fun c hc => ih c hc ?_
      have hchild := List.le_sum_of_mem (List.mem_map_of_mem (f := Prototype.weight) hc)
      omega
    have hown : ownLines? options r cs.length = some _ := ownLines?_eq options (by omega) _
    rw [lines?, FunctionTree.fold_node, ← lines?, hchildren, List.length_map, List.length_map, hown,
      mapM_id_map_some, lines_node]
    cases options.recursive with
    | false => rfl
    -- the lines of the functions inside, each behind an empty line
    | true => exact congrArg (fun inner => some (_ ++ inner)) (List.flatMap_map ..)

/-- The listing of a tree is defined if its sequences are short. -/
theorem render?_eq (options : ListingOptions) {p : Prototype Bytes} (h : p.weight < 2 ^ 63) :
    render? options p = some (render options p) := by
  rw [render?, lines?_eq options h]
  rfl

end Listing

end LuaChunk
