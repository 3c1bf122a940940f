import LuaChunk.Listing
import LuaChunk.Proofs.InstructionCodec
import LuaChunk.Proofs.TextPieces

/-!
# Texts of instructions

There are two texts for an instruction: one that stands alone, and the column of a listing. In the
column a constant is counted down from -1, and so is an extra operand.

Each text says the opcode and a number for every operand of the opcode's form, from which the word
can be put together again; a word without a known opcode is shown in hexadecimal. So neither text is
the text of two words. The column is in its place in every line of every function, and what stands
behind it cannot be taken for a part of it.

## Key results

* `text_inj`                  a word is determined by the text that stands alone
* `instructionColumn_inj`     a word is determined by its column
* `opcodeColumn_line`         the column is found in a line of a listing
* `instruction_texts`         both texts of every two words
-/

namespace LuaChunk

/-- The numbers that stand for operands in the text of an instruction. -/
def Operands.numbers : Operands → List Int
  | .abc a b c => [a, b, c]
  | .abx a bx => [a, bx]
  | .asbx a sbx => [a, sbx]
  | .ax x => [x]

/-- Every instruction has an operand. -/
theorem Operands.numbers_ne_nil (x : Operands) : x.numbers ≠ [] := by
  cases x <;> exact List.cons_ne_nil _ _

/-- In a given form the operands are determined by the numbers. -/
theorem Operands.eq_of_numbers {x y : Operands} (hform : x.form = y.form)
    (h : x.numbers = y.numbers) : x = y := by
  cases x <;> cases y <;> cases hform
  all_goals
    simp only [numbers, List.cons.injEq, Int.ofNat_inj, and_true] at h
    simp only [h]

/-- A row of numbers with spaces between them is the text of one row only. -/
theorem intercalate_repr_inj {xs ys : List Int} (hxs : xs ≠ []) (hys : ys ≠ [])
    (h : " ".intercalate (xs.map Int.repr) = " ".intercalate (ys.map Int.repr)) : xs = ys := by
  have hpieces : ∀ {zs : List Int}, zs ≠ [] →
      pieces ' ' (" ".intercalate (zs.map Int.repr)) = zs.map Int.repr := fun hzs =>
    pieces_intercalate rfl (List.map_eq_nil_iff.not.2 hzs)
      (List.forall_mem_map.2 fun i _ => notMem_repr_int (by decide) (by decide) i)
  have hmap := congrArg (pieces ' ') h
  rw [hpieces hxs, hpieces hys] at hmap
  exact (List.map_injective_iff.2 fun _ _ => Int.repr_inj.1) hmap

namespace Instruction

variable {ins ins' : Instruction} {op op' : Opcode}

/-- Words with the same opcode and the same operands are the same. -/
theorem eq_of_operandsIn (h : ins.opcode? = some op) (h' : ins'.opcode? = some op)
    (hop : ins.operandsIn op.form = ins'.operandsIn op.form) : ins = ins' := by
  rw [← ofOperands_operandsIn h op.form, hop, ofOperands_operandsIn h' op.form]

/-! ### The text that stands alone -/

/-- The text of an instruction says its opcode and the numbers of its operands. -/
theorem text_of_opcode? (h : ins.opcode? = some op) :
    ins.text = " ".intercalate (op.name :: (ins.operandsIn op.form).numbers.map Int.repr) := by
  unfold text
  simp only [h]
  cases op.form <;>
  · simp only [operandsIn, Operands.numbers, List.map_cons, List.map_nil,
      String.intercalate_cons_cons, String.intercalate_singleton, String.append_assoc]
    rfl

/-- The text of a word without a known opcode says the word. -/
theorem text_of_unknown (h : ins.opcode? = none) :
    ins.text = "INVALID(0x" ++ Hex.padded 8 ins.word.toNat ++ ")" := by
  unfold text
  rw [h]
  rfl

/-- Cut at its spaces, a text is the opcode and the operands. -/
theorem pieces_text (h : ins.opcode? = some op) :
    pieces ' ' ins.text = op.name :: (ins.operandsIn op.form).numbers.map Int.repr := by
  rw [text_of_opcode? h]
  refine pieces_intercalate rfl (List.cons_ne_nil _ _) (List.forall_mem_cons.2 ⟨?_, ?_⟩)
  -- no name of an opcode has a space in it
  · exact op.notMem_name (by decide)
  -- nor has a number
  · exact List.forall_mem_map.2 fun i _ => notMem_repr_int (by decide) (by decide) i

/-- Eight hexadecimal digits are enough for a word. -/
theorem eq_of_padded_word (h : Hex.padded 8 ins.word.toNat = Hex.padded 8 ins'.word.toNat) :
    ins = ins' := by
  have hlt := ins.word.toNat_lt
  have hlt' := ins'.word.toNat_lt
  have hroom : 16 ^ 8 = 2 ^ 32 := by decide
  have hmod := Hex.digits_inj (String.ofList_inj.1 h)
  rw [hroom, Nat.mod_eq_of_lt hlt, Nat.mod_eq_of_lt hlt'] at hmod
  exact eq_of_toNat_word hmod

/-- An unknown opcode shows in the text: no operand is set off from the rest. -/
theorem pieces_text_of_unknown (h : ins.opcode? = none) : pieces ' ' ins.text = [ins.text] := by
  refine pieces_of_notMem ?_
  rw [text_of_unknown h, String.toList_append, String.toList_append, List.mem_append,
    List.mem_append, not_or, not_or]
  exact ⟨⟨by decide, Hex.notMem_padded (by decide) 8 _⟩, by decide⟩

/-- A known opcode and an unknown one have different texts. -/
theorem text_ne_of_opcode? (h : ins.opcode? = some op) (h' : ins'.opcode? = none) :
    ins.text ≠ ins'.text := by
  intro htext
  have hpieces := pieces_text h
  rw [htext, pieces_text_of_unknown h'] at hpieces
  obtain ⟨-, hnumbers⟩ := List.cons.inj hpieces
  exact Operands.numbers_ne_nil _ (List.map_eq_nil_iff.1 hnumbers.symm)

/-- A word is determined by the text that stands alone. -/
theorem text_inj : ins.text = ins'.text ↔ ins = ins' := by
  refine ⟨fun htext => ?_, congrArg text⟩
  cases h : ins.opcode? with
  | none =>
    cases h' : ins'.opcode? with
    -- two words, each shown in hexadecimal
    | none =>
      rw [text_of_unknown h, text_of_unknown h', String.append_left_inj,
        String.append_right_inj] at htext
      exact eq_of_padded_word htext
    | some op => exact absurd htext.symm (text_ne_of_opcode? h' h)
  -- two instructions, of which the pieces of the text are known
  | some op =>
    cases h' : ins'.opcode? with
    | none => exact absurd htext (text_ne_of_opcode? h h')
    | some op' =>
      have hpieces := congrArg (pieces ' ') htext
      rw [pieces_text h, pieces_text h', List.cons.injEq, Opcode.name_inj] at hpieces
      obtain ⟨rfl, hnumbers⟩ := hpieces
      have hoperands := List.map_injective_iff.2 (fun _ _ => Int.repr_inj.1) hnumbers
      refine eq_of_operandsIn h h' (Operands.eq_of_numbers ?_ hoperands)
      rw [form_operandsIn, form_operandsIn]

end Instruction

namespace Listing

variable {ins ins' : Instruction} {op : Opcode}

/-! ### The column of a listing -/

/-- The number that a listing shows for an operand; `named` tells whether it may name a constant. -/
def shownOperand (named : Bool) (operand : Nat) : Int :=
  if named then registerOrConstant operand else operand

/-- The numbers that a listing shows for the operands of an opcode. -/
def shownNumbers (op : Opcode) : Operands → List Int
  | .abc a b c => [a, shownOperand op.bMayBeConstant b, shownOperand op.cMayBeConstant c]
  | .abx a bx => [a, if op = .loadK then -1 - bx else bx]
  | .asbx a sbx => [a, sbx]
  | .ax ax => [-1 - ax]

/-- A listing shows the numbers of the operands with spaces between them. -/
theorem operandText_eq (op : Opcode) (x : Operands) :
    operandText op x = " ".intercalate ((shownNumbers op x).map Int.repr) := by
  cases x with
  | ax n => rw [operandText, shownNumbers, List.map_singleton, String.intercalate_singleton]
  | _ =>
    simp only [operandText, shownNumbers, List.map_cons, List.map_nil,
      String.intercalate_cons_cons, String.intercalate_singleton, String.append_assoc]
    rfl

/-- A listing shows an operand of every instruction. -/
theorem shownNumbers_ne_nil (op : Opcode) (x : Operands) : shownNumbers op x ≠ [] := by
  cases x <;> exact List.cons_ne_nil _ _

/-- Registers are shown by numbers that are not negative and constants by negative ones, so the two
are never confused, and neither are two constants. -/
theorem registerOrConstant_inj {m n : Nat} (h : registerOrConstant m = registerOrConstant n) :
    m = n := by
  have hle : ∀ {k}, RegisterOrConstant.isConstant k → 256 ≤ k := fun hk =>
    Nat.ge_two_pow_of_testBit hk
  unfold registerOrConstant RegisterOrConstant.constantIndex RegisterOrConstant.constantBit at h
  cases hm : RegisterOrConstant.isConstant m <;> cases hn : RegisterOrConstant.isConstant n <;>
    simp only [hm, hn, if_true, if_false, Bool.false_eq_true] at h
  -- two registers, two numbers of different sign, and two constants
  · omega
  · omega
  · omega
  · have hlem := hle hm
    have hlen := hle hn
    omega

/-- An operand is determined by the number that is shown for it. -/
theorem shownOperand_inj {named : Bool} {m n : Nat}
    (h : shownOperand named m = shownOperand named n) : m = n := by
  cases named with
  | false => exact Int.ofNat_inj.1 h
  | true => exact registerOrConstant_inj h

/-- In a given form the operands are determined by the numbers that are shown. -/
theorem eq_of_shownNumbers {x y : Operands} (hform : x.form = y.form)
    (h : shownNumbers op x = shownNumbers op y) : x = y := by
  cases x with
  | abc a b c =>
    cases y with
    | abc a' b' c' =>
      -- A, and the two operands that may be constants
      simp only [shownNumbers, List.cons.injEq, and_true] at h
      obtain ⟨ha, hb, hc⟩ := h
      rw [Int.ofNat_inj.1 ha, shownOperand_inj hb, shownOperand_inj hc]
    | _ => exact nomatch hform
  | abx a bx =>
    cases y with
    | abx a' bx' =>
      simp only [shownNumbers, List.cons.injEq, and_true] at h
      obtain ⟨ha, hbx⟩ := h
      -- the operand is shown as it is, or counted down for every operand alike
      rw [Int.ofNat_inj.1 ha]
      congr 1
      split at hbx <;> omega
    | _ => exact nomatch hform
  | asbx a sbx =>
    cases y with
    | asbx a' sbx' =>
      simp only [shownNumbers, List.cons.injEq, and_true] at h
      -- a jump is shown as far as it leads
      obtain ⟨ha, rfl⟩ := h
      rw [Int.ofNat_inj.1 ha]
    | _ => exact nomatch hform
  | ax n =>
    cases y with
    | ax n' =>
      -- the one operand is shown counted down from minus one
      simp only [shownNumbers, List.cons.injEq, and_true] at h
      congr 1
      omega
    | _ => exact nomatch hform

/-- A name is found again when it has been filled up with spaces. -/
theorem padded_inj {m n : String} (hm : ' ' ∉ m.toList) (hn : ' ' ∉ n.toList)
    (h : padded m = padded n) : m = n := by
  -- what is in front of the first space is the name
  have hfront : ∀ {s : String}, ' ' ∉ s.toList →
      (padded s).toList.takeWhile (· ≠ ' ') = s.toList := by
    intro s hs
    have hall : ∀ c ∈ s.toList, decide (c ≠ ' ') = true := fun c hc =>
      decide_eq_true fun heq => hs (heq ▸ hc)
    rw [padded, String.toList_append, String.toList_ofList, List.takeWhile_append_of_pos hall,
      List.takeWhile_replicate, if_neg (by decide), List.append_nil]
  rw [← String.toList_inj, ← hfront hm, h, hfront hn]

/-- Filling up a name adds nothing but spaces. -/
theorem notMem_padded {c : Char} {name : String} (hspace : c ≠ ' ') (h : c ∉ name.toList) :
    c ∉ (padded name).toList := by
  rw [padded, String.toList_append, String.toList_ofList, List.mem_append, not_or]
  exact ⟨h, fun hc => hspace (List.eq_of_mem_replicate hc)⟩

/-- Operands are shown in digits, signs and spaces. -/
theorem notMem_operandText {c : Char} (hdigit : c.isDigit = false) (hsign : c ≠ '-')
    (hspace : c ≠ ' ') (op : Opcode) (x : Operands) : c ∉ (operandText op x).toList := by
  rw [operandText_eq]
  refine notMem_intercalate ?_ (List.forall_mem_map.2 fun i _ => notMem_repr_int hdigit hsign i)
  exact List.not_mem_cons_of_ne_of_not_mem hspace List.not_mem_nil

/-- The name that the column of an instruction begins with. -/
def shownName : Option Opcode → String
  | some op => op.name
  | none => "UNKNOWN"

/-- Names of opcodes are in capital letters. -/
theorem notMem_shownName {c : Char} (hupper : c.isUpper = false) (op? : Option Opcode) :
    c ∉ (shownName op?).toList := by
  cases op? with
  | none =>
    have hall : "UNKNOWN".toList.all Char.isUpper := by decide
    exact fun hc => Bool.false_ne_true (hupper ▸ List.all_eq_true.1 hall c hc)
  | some op => exact op.notMem_name hupper

/-- An opcode is determined by its name, and so is that there is none. -/
theorem shownName_inj {op? op?' : Option Opcode} (h : shownName op? = shownName op?') :
    op? = op?' := by
  -- no opcode has the name that stands for none
  cases op? with
  | none =>
    cases op?' with
    | none => rfl
    | some op' => exact absurd h.symm op'.name_ne_unknown
  | some op =>
    cases op?' with
    | none => exact absurd h op.name_ne_unknown
    | some op' => exact congrArg some (Opcode.name_inj.1 h)

/-- What the column of an instruction shows behind the name. -/
def shownOperands (ins : Instruction) : String :=
  match ins.opcode? with
  | some op => operandText op (ins.operandsIn op.form)
  | none => "0x" ++ Hex.padded 8 ins.word.toNat

/-- Behind a known opcode its operands are shown. -/
theorem shownOperands_of_opcode? (h : ins.opcode? = some op) :
    shownOperands ins = operandText op (ins.operandsIn op.form) := by
  rw [shownOperands, h]

/-- Behind an unknown opcode the word is shown. -/
theorem shownOperands_of_unknown (h : ins.opcode? = none) :
    shownOperands ins = "0x" ++ Hex.padded 8 ins.word.toNat := by
  rw [shownOperands, h]

/-- A column is a name, a tab and operands. -/
theorem instructionColumn_eq (ins : Instruction) :
    instructionColumn ins = padded (shownName ins.opcode?) ++ "\t" ++ shownOperands ins := by
  cases h : ins.opcode? with
  | none =>
    have hmark : "\t0x" = "\t" ++ "0x" := rfl
    rw [instructionColumn, h, shownOperands_of_unknown h, shownName]
    simp only [hmark, String.append_assoc]
  | some op => rw [instructionColumn, h, shownOperands_of_opcode? h, shownName]

/-- The name in a column has no tab in it. -/
theorem tab_notMem_shownName (ins : Instruction) :
    '\t' ∉ (padded (shownName ins.opcode?)).toList :=
  notMem_padded (by decide) (notMem_shownName (by decide) ins.opcode?)

/-- Nor have the operands behind it. -/
theorem tab_notMem_shownOperands (ins : Instruction) : '\t' ∉ (shownOperands ins).toList := by
  cases h : ins.opcode? with
  | none =>
    rw [shownOperands_of_unknown h, String.toList_append, List.mem_append, not_or]
    exact ⟨by decide, Hex.notMem_padded (by decide) 8 _⟩
  | some op =>
    rw [shownOperands_of_opcode? h]
    exact notMem_operandText (by decide) (by decide) (by decide) op _

/-- Cut at its tab, a column is a name and operands. -/
theorem pieces_instructionColumn (ins : Instruction) :
    pieces '\t' (instructionColumn ins) =
      [padded (shownName ins.opcode?), shownOperands ins] := by
  rw [instructionColumn_eq, pieces_append_of_notMem rfl (tab_notMem_shownName ins),
    pieces_of_notMem (tab_notMem_shownOperands ins)]

/-- A word is determined by its column. -/
theorem instructionColumn_inj : instructionColumn ins = instructionColumn ins' ↔ ins = ins' := by
  refine ⟨fun h => ?_, congrArg instructionColumn⟩
  have hpieces := congrArg (pieces '\t') h
  simp only [pieces_instructionColumn, List.cons.injEq, and_true] at hpieces
  obtain ⟨hname, hoperands⟩ := hpieces
  -- names in capital letters are found again in front of the spaces
  have hop : ins.opcode? = ins'.opcode? :=
    shownName_inj (padded_inj (notMem_shownName (by decide) _) (notMem_shownName (by decide) _)
      hname)
  cases h' : ins'.opcode? with
  -- the operands of an unknown word are the word itself
  | none =>
    rw [shownOperands_of_unknown (hop.trans h'), shownOperands_of_unknown h',
      String.append_right_inj] at hoperands
    exact Instruction.eq_of_padded_word hoperands
  | some op =>
    -- those of a known one are numbers between spaces
    rw [shownOperands_of_opcode? (hop.trans h'), shownOperands_of_opcode? h', operandText_eq,
      operandText_eq] at hoperands
    have hnumbers := intercalate_repr_inj (shownNumbers_ne_nil op _) (shownNumbers_ne_nil op _)
      hoperands
    refine Instruction.eq_of_operandsIn (hop.trans h') h' (eq_of_shownNumbers ?_ hnumbers)
    rw [Instruction.form_operandsIn, Instruction.form_operandsIn]

/-! ### The column in a line -/

/-- The column with the opcode and the operands, as it is found in a line: the two pieces behind the
number of the instruction and its source line. -/
def opcodeColumn (line : String) : String :=
  "\t".intercalate (((pieces '\t' line).drop 3).take 2)

/-- A source line is shown without a tab. -/
theorem tab_notMem_lineText (s : Scope) (pc : Nat) : '\t' ∉ (s.lineText pc).toList := by
  unfold Scope.lineText
  cases s.lineInfo[pc]? with
  | none => decide
  | some line => exact notMem_repr_int (by decide) (by decide) line.toInt

/-- A remark, if there is one, is set off by a tab. -/
theorem remark_eq (s : Scope) (pc : Nat) (ins : Instruction) :
    s.remark pc ins = "" ∨ ∃ words, s.remark pc ins = "\t" ++ words := by
  have hmark : "\t; " = "\t" ++ "; " := rfl
  unfold Scope.remark
  split
  · exact .inl rfl
  · split
    · exact .inl rfl
    · exact .inr ⟨_, by rw [hmark, String.append_assoc]⟩

/-- Cut at its tabs, what stands behind the name begins with the operands. -/
theorem pieces_remark (s : Scope) (pc : Nat) (ins : Instruction) :
    ∃ words, pieces '\t' (shownOperands ins ++ s.remark pc ins) = shownOperands ins :: words := by
  have htab := tab_notMem_shownOperands ins
  obtain hnone | ⟨words, hwords⟩ := remark_eq s pc ins
  · exact ⟨[], by rw [hnone, String.append_empty, pieces_of_notMem htab]⟩
  · exact ⟨pieces '\t' words,
      by rw [hwords, ← String.append_assoc, pieces_append_of_notMem rfl htab]⟩

/-- A line is its number, the source line, the column and the remark, with tabs between them. -/
theorem instructionLine_eq (s : Scope) (pc : Nat) (ins : Instruction) :
    s.instructionLine pc ins = "" ++ "\t" ++ ((pc + 1).repr ++ "\t" ++
      ("[" ++ s.lineText pc ++ "]" ++ "\t" ++ (padded (shownName ins.opcode?) ++ "\t" ++
        (shownOperands ins ++ s.remark pc ins)))) := by
  have hopen : "\t[" = "\t" ++ "[" := rfl
  have hclose : "]\t" = "]" ++ "\t" := rfl
  rw [Scope.instructionLine, instructionColumn_eq]
  simp only [hopen, hclose, String.append_assoc, String.empty_append]
  rfl

/-- The column is found in every line of a listing. -/
theorem opcodeColumn_line (s : Scope) (pc : Nat) (ins : Instruction) :
    opcodeColumn (s.instructionLine pc ins) = instructionColumn ins := by
  have hnumber : '\t' ∉ (pc + 1).repr.toList := notMem_repr_nat (by decide) (pc + 1)
  have hline : '\t' ∉ ("[" ++ s.lineText pc ++ "]").toList := by
    rw [String.toList_append, String.toList_append, List.mem_append, List.mem_append, not_or,
      not_or]
    exact ⟨⟨by decide, tab_notMem_lineText s pc⟩, by decide⟩
  obtain ⟨words, hwords⟩ := pieces_remark s pc ins
  -- five pieces are known, of which the column is the fourth and the fifth
  have hpieces : pieces '\t' (s.instructionLine pc ins) =
      "" :: (pc + 1).repr :: ("[" ++ s.lineText pc ++ "]") ::
        padded (shownName ins.opcode?) :: shownOperands ins :: words := by
    rw [instructionLine_eq, pieces_append_of_notMem rfl List.not_mem_nil,
      pieces_append_of_notMem rfl hnumber, pieces_append_of_notMem rfl hline,
      pieces_append_of_notMem rfl (tab_notMem_shownName ins), hwords]
  rw [opcodeColumn, hpieces, instructionColumn_eq]
  exact String.intercalate_cons_cons

end Listing

open Listing in
/-- Neither text of an instruction is that of two words: not the text that stands alone, and in no
line of any function the column with the opcode and the operands. -/
theorem instruction_texts (w w' : UInt32) :
    ((Instruction.mk w).text = (Instruction.mk w').text ↔ w = w') ∧
    ∀ (r : FunctionRecord Bytes) (pc : Nat),
      let column (v : UInt32) := opcodeColumn ((Scope.ofRecord r).instructionLine pc ⟨v⟩)
      column w = instructionColumn ⟨w⟩ ∧ (column w = column w' ↔ w = w') := by
  refine ⟨Instruction.text_inj.trans (Instruction.mk.injEq w w').to_iff, fun r pc => ?_⟩
  simp only [opcodeColumn_line, true_and]
  exact instructionColumn_inj.trans (Instruction.mk.injEq w w').to_iff

end LuaChunk
