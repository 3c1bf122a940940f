import LuaChunk.Proofs.Dumping
import LuaChunk.Proofs.ListingShape

/-!
# Where jumps lead

The operand of a jump counts instructions from the one behind it; in the word it is moved up, to be
never negative, and a listing counts instructions from 1. Here a jump is followed from its
constructor through a dump to the listing of what was loaded, where the number in the remark is the
one in front of the instruction that was meant.

## Key results

* `mem_jumps_iff`             the jumps are the opcodes with a signed operand
* `fields_asbx`               an offset in range is read as it was given
* `instructionLine_of_jump`   the line of a jump
* `jump_targets`              the targets of jumps in listings
-/

namespace LuaChunk

/-! ### Jumps -/

/-- The opcodes whose operand says how far to jump. -/
def Opcode.jumps : List Opcode :=
  [.jmp, .forLoop, .forPrep, .tforLoop]

variable {op : Opcode} {ins : Instruction}

/-- The jumps are the opcodes with a signed operand. -/
theorem Opcode.mem_jumps_iff : op ∈ jumps ↔ op.form = .asbx := by
  cases op <;> decide

namespace Instruction

/-- The operands of a jump are A and how far it leads. -/
theorem operands?_of_jump (hop : op ∈ Opcode.jumps) (h : ins.opcode? = some op) :
    ins.operands? = some (.asbx ins.a ins.sbx) := by
  rw [operands?, h, Option.map_some, Opcode.mem_jumps_iff.1 hop]
  rfl

/-- An offset in range is read as it was given. -/
theorem fields_asbx (op : Opcode) (a : UInt8) {n : Int} (hlow : -131071 ≤ n) (hhigh : n ≤ 131072) :
    (asbx op a (.ofInt n)).opcode? = some op ∧ (asbx op a (.ofInt n)).a = a.toNat ∧
      (asbx op a (.ofInt n)).sbx = n := by
  obtain ⟨hnumber, ha, -⟩ := fields_abx op a (Int32.ofInt n + 131071).toUInt32
  have hsbx := sbx_asbx op a (.ofInt n)
  have htoInt : (Int32.ofInt n).toInt = n := Int32.toInt_ofInt_of_le (by omega) (by omega)
  rw [← asbx_eq_abx] at hnumber ha
  exact ⟨opcode?_of_opcodeNumber hnumber, ha, by omega⟩

end Instruction

namespace Listing

/-! ### The line of a jump -/

/-- The line of a jump with a given offset, the remark on which says `number`. -/
def jumpLine (s : Scope) (pc : Nat) (op : Opcode) (a : Nat) (offset number : Int) : String :=
  s!"\t{pc + 1}\t[{s.lineText pc}]\t{padded op.name}\t{a} {offset}\t; to {number}"

/-- The remark on a jump mentions its target and nothing else. -/
theorem mentions_of_jump (hop : op ∈ Opcode.jumps) (pc : Nat) (ins : Instruction) :
    mentions pc op ins = [.target (pc + ins.sbx + 2)] := by
  simp only [Opcode.jumps, List.mem_cons, List.not_mem_nil, or_false] at hop
  obtain rfl | rfl | rfl | rfl := hop <;> rfl

/-- The line of a jump says how far it leads and where to. -/
theorem instructionLine_of_jump (hop : op ∈ Opcode.jumps) (h : ins.opcode? = some op) (s : Scope)
    (pc : Nat) :
    s.instructionLine pc ins = jumpLine s pc op ins.a ins.sbx (pc + ins.sbx + 2) := by
  have hmark : "\t; to " = "\t; " ++ "to " := rfl
  rw [Scope.instructionLine, instructionColumn, Scope.remark, h]
  simp only [mentions_of_jump hop, Opcode.mem_jumps_iff.1 hop, Instruction.operandsIn, operandText,
    List.map_cons, List.map_nil, String.intercalate_singleton, Scope.mentionText, jumpLine, hmark,
    String.append_assoc]
  rfl

/-! ### Where a jump leads -/

/-- Whether the instruction with index `pc` of a function is the jump to the instruction with index
`t`, and every listing that shows the function says so: the number in the remark is the one in front
of that instruction, if there is one. -/
structure JumpsTo (s : Prototype Bytes) (pc : Nat) (op : Opcode) (a : UInt8) (t : Int) : Prop where
  operands : ∃ ins, s.record.code[pc]? = some ins ∧ ins.opcode? = some op ∧
    ins.operands? = some (.asbx a.toNat (t - pc - 1))
  listed : ∀ options p, s ∈ shown options p → ∃ start,
    (lines options p)[start + pc]? =
      some (jumpLine (.ofRecord s.record) pc op a.toNat (t - pc - 1) (t + 1)) ∧
    ∀ i : Nat, (i : Int) = t → i < s.record.code.length →
      ∃ rest : String, (lines options p)[start + i]? = some s!"\t{t + 1}\t{rest}"

/-- A jump that was made for a target leads there. -/
theorem jumpsTo_of_asbx (hop : op ∈ Opcode.jumps) {a : UInt8} {pc : Nat} {t : Int}
    (hlow : -131071 ≤ t - pc - 1) (hhigh : t - pc - 1 ≤ 131072) {s : Prototype Bytes}
    (h : s.record.code[pc]? = some (.asbx op a (.ofInt (t - pc - 1)))) : JumpsTo s pc op a t := by
  obtain ⟨hopcode, ha, hsbx⟩ := Instruction.fields_asbx op a hlow hhigh
  have hoperands := Instruction.operands?_of_jump hop hopcode
  rw [ha, hsbx] at hoperands
  refine ⟨⟨_, h, hopcode, hoperands⟩, fun options p hs => ?_⟩
  obtain ⟨start, hstart⟩ := exists_getElem?_lines hs
  refine ⟨start, ?_, fun i hi hlt => ?_⟩
  · -- the offset counts from the next instruction, and the listing from 1
    have hnumber : (pc : Int) + (t - pc - 1) + 2 = t + 1 := by omega
    rw [hstart pc _ h, instructionLine_of_jump hop hopcode, ha, hsbx, hnumber]
  -- the line of the target has the number that the remark says
  · obtain ⟨rest, hrest⟩ := exists_instructionLine_eq_append (.ofRecord s.record) i s.record.code[i]
    refine ⟨rest, ?_⟩
    rw [hstart i _ (List.getElem?_eq_getElem hlt), hrest, ← hi]
    rfl

end Listing

/-- A main function with a function inside it that has a loop which does nothing: an instruction
that jumps to the next one, and one that jumps to itself. -/
def Closure.loop : Closure Bytes where
  upvalueCount := 1
  prototype :=
    .node (Listing.sampleRecord 0)
      [.node { Listing.sampleRecord 1 with
        code := [.asbx .forPrep 2 0, .asbx .forLoop 2 (-1), .abc .ret 0 1 0] } []]

open FunctionTree Listing in
/-- A jump made for a target leads there, if it is no further away than the operand can tell: in the
listings of the function that it stands in, and in those of what a dump of the closure loads to. The
dump loads if the upvalues are as many as are declared; of the strings it is asked only that their
sizes can be told, which the writer does not check. And for whichever word has the opcode of a jump,
the listings show the exact sum, even if no instruction has that number. -/
theorem jump_targets {op : Opcode} (hop : op ∈ Opcode.jumps) :
    (∀ (a : UInt8) (pc : Nat) (t : Int), -131071 ≤ t - pc - 1 → t - pc - 1 ≤ 131072 →
      ∀ (c : Closure Bytes) (path : List Nat) (s : Prototype Bytes),
        c.prototype.at? path = some s →
        s.record.code[pc]? = some (.asbx op a (.ofInt (t - pc - 1))) →
        JumpsTo s pc op a t ∧
        ∀ strip, (c.prototype.Writable → ∃ dumped, dump c strip = .ok dumped) ∧
          ∀ dumped, dump c strip = .ok dumped → (c.prototype.All fun r _ => r.Sizable) →
            ∀ (options : LoadOptions) (table : StringTable) (name : String),
              (c.upvalueCount.toNat = c.prototype.record.upvalues.length →
                c.prototype.height ≤ options.maxDepth →
                ∃ loaded, (load options table name dumped).outcome = .ok loaded) ∧
              ∀ loaded, (load options table name dumped).outcome = .ok loaded →
                ∃ s', loaded.contents.prototype.at? path = some s' ∧ JumpsTo s' pc op a t) ∧
    ∀ (s : Prototype Bytes) (pc : Nat) (ins : Instruction), s.record.code[pc]? = some ins →
      ins.opcode? = some op → ∀ options p, s ∈ shown options p → ∃ start,
        (lines options p)[start + pc]? =
          some (jumpLine (.ofRecord s.record) pc op ins.a (ins.bx - 131071)
            (pc + 2 + ins.bx - 131071)) := by
  constructor
  -- a jump that was made for a target, in the closure and in what its dump loads to
  · intro a pc t hlow hhigh c path s hat hcode
    refine ⟨jumpsTo_of_asbx hop hlow hhigh hcode, fun strip => ⟨fun hwritable => ?_, ?_⟩⟩
    -- the writer refuses nothing
    · exact ⟨_, dump_eq_ok hwritable strip⟩
    · intro dumped hdump hsizable options table name
      refine ⟨fun hcount hheight => ?_, fun loaded hload => ?_⟩
      · exact exists_load_of_dump hsizable hdump hcount hheight table name
      · -- the function is found again with the same instructions
        obtain ⟨s', hat', hcode'⟩ :=
          exists_at?_of_mapRecords_eq (code_of_load_dump hsizable hdump hload).symm hat
        rw [← hcode'] at hcode
        exact ⟨s', hat', jumpsTo_of_asbx hop hlow hhigh hcode⟩
  -- any word with the opcode of a jump
  · intro s pc ins hins hopcode options p hs
    obtain ⟨start, hstart⟩ := exists_getElem?_lines hs
    have hsbx : ins.sbx = ins.bx - 131071 := rfl
    have hnumber : (pc : Int) + ins.sbx + 2 = pc + 2 + ins.bx - 131071 := by omega
    refine ⟨start, ?_⟩
    rw [hstart pc ins hins, instructionLine_of_jump hop hopcode, hnumber, hsbx]

open Listing in
/-- The second instruction of the loop leads to itself after a dump and a load, too. -/
theorem jump_targets_loop :
    ∃ dumped loaded s, dump Closure.loop true = .ok dumped ∧
      (load {} (.empty 0) "" dumped).outcome = .ok loaded ∧
      loaded.contents.prototype.at? [0] = some s ∧ JumpsTo s 1 .forLoop 2 1 := by
  have hop : .forLoop ∈ Opcode.jumps := by decide
  have hjumps := (jump_targets hop).1 2 1 1 (by decide) (by decide)
  obtain ⟨-, hstrip⟩ := hjumps Closure.loop [0] _ rfl rfl
  obtain ⟨hdump, hload⟩ := hstrip true
  obtain ⟨dumped, hdumped⟩ := hdump (by decide)
  obtain ⟨hloads, hjump⟩ := hload dumped hdumped (by decide) {} (.empty 0) ""
  obtain ⟨loaded, hloaded⟩ := hloads (by decide) (by decide)
  obtain ⟨s, hat, hs⟩ := hjump loaded hloaded
  exact ⟨dumped, loaded, s, hdumped, hloaded, hat, hs⟩

end LuaChunk
