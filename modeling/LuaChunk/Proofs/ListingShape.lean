import LuaChunk.Proofs.RecursiveListings
import LuaChunk.Proofs.SingleLines
import Mathlib.Algebra.Ring.Nat

/-!
# The shape of a listing

How many lines a listing has, and which line is for which instruction, follows from the sizes of the
records alone, whatever their contents are: the lines that make up a listing are the lines found in
its text, as long as no name has a line feed.

## Key results

* `textLines_unlines`       lines are found again in the text made of them
* `length_block`            the number of lines of one function
* `exists_getElem?_lines`   in a listing the lines of its instructions stand in a row
* `length_lines`            the number of lines of a whole listing
* `listing_shape`           the lines that are found in the text of a listing
-/

namespace LuaChunk

/-- The lines of a text: what stands in front of each line feed. -/
def textLines (text : String) : List String :=
  (pieces '\n' text).dropLast

namespace Listing

/-! ### Lines in a text -/

/-- Cut at its line feeds, a text is its lines and an empty rest. -/
theorem pieces_unlines {ls : List String} (h : ∀ l ∈ ls, OneLine l) :
    pieces '\n' (unlines ls) = ls ++ [""] := by
  induction ls with
  | nil => exact pieces_of_notMem List.not_mem_nil
  | cons l ls ih =>
    obtain ⟨hl, hls⟩ := List.forall_mem_cons.1 h
    rw [unlines_cons, pieces_append_of_notMem rfl hl, ih hls, List.cons_append]

/-- Lines are found again in the text made of them. -/
theorem textLines_unlines {ls : List String} (h : ∀ l ∈ ls, OneLine l) :
    textLines (unlines ls) = ls := by
  rw [textLines, pieces_unlines h, List.dropLast_concat]

example : textLines "a\n\nb\n" = ["a", "", "b"] := by decide

/-- A text with a line ends in a line feed. -/
theorem exists_unlines_eq_append {ls : List String} (hne : ls ≠ []) :
    ∃ front, unlines ls = front ++ "\n" := by
  obtain rfl | ⟨front, l, rfl⟩ := List.eq_nil_or_concat ls
  · exact absurd rfl hne
  -- the line feed is that of the last line
  · refine ⟨unlines front ++ l, ?_⟩
    rw [List.concat_eq_append, unlines_append, unlines_cons, ← String.append_assoc,
      ← String.append_assoc]
    exact String.append_empty

/-! ### The lines of one function -/

/-- The number of lines of a function: two of summary, one for each instruction, and a heading for
each table that is shown with a line for each entry. -/
def blockLength (options : ListingOptions) (r : FunctionRecord Bytes) : Nat :=
  2 + r.code.length
    + (if options.constants then 1 + r.constants.length else 0)
    + (if options.locals then 1 + r.locals.length else 0)
    + (if options.upvalues then 1 + r.upvalues.length else 0)

/-- A function has as many lines as the sizes of its record make them. -/
theorem length_block (options : ListingOptions) (p : Prototype Bytes) :
    (block options p).length = blockLength options p.record := by
  simp only [block, ownLines, blockLength, constantLines, localLines, upvalueLines,
    List.length_append, List.length_cons, List.length_mapIdx, apply_ite List.length,
    -- the lines of tables come behind those of the instructions
    List.length_nil]
  simp only [Nat.add_comm 1]
  omega

/-- The line of an instruction comes behind the two lines of summary and the lines of the
instructions before it. -/
theorem getElem?_block (options : ListingOptions) {p : Prototype Bytes} {pc : Nat}
    {ins : Instruction} (h : p.record.code[pc]? = some ins) :
    (block options p)[2 + pc]? =
      some ((Scope.ofRecord p.record).instructionLine pc ins) := by
  have hlt : pc < p.record.code.length := (List.getElem?_eq_some_iff.1 h).1
  rw [block, ownLines, List.append_assoc, List.append_assoc, List.getElem?_append_left]
  -- the index is two larger than in the instructions
  · rw [Nat.add_comm, List.getElem?_cons_succ, List.getElem?_cons_succ, List.getElem?_mapIdx, h]
    rfl
  · simp only [List.length_cons, List.length_mapIdx]
    omega

/-- The line of an instruction begins with its number, counted from 1, between two tabs. -/
theorem exists_instructionLine_eq_append (s : Scope) (pc : Nat) (ins : Instruction) :
    ∃ rest, s.instructionLine pc ins = "\t" ++ (pc + 1).repr ++ "\t" ++ rest := by
  obtain ⟨rest, hrest⟩ : ∃ rest,
      s.instructionLine pc ins = "" ++ "\t" ++ ((pc + 1).repr ++ "\t" ++ rest) :=
    ⟨_, instructionLine_eq s pc ins⟩
  exact ⟨rest, by rw [hrest, String.empty_append, String.append_assoc, String.append_assoc,
    String.append_assoc]⟩

/-! ### The lines of a listing -/

/-- Between two lists stands the separator, and none in front of the first. -/
theorem intercalate_cons_eq_append_flatMap {α : Type} (sep b : List α) (bs : List (List α)) :
    sep.intercalate (b :: bs) = b ++ bs.flatMap (sep ++ ·) := by
  induction bs generalizing b with
  | nil => rw [List.intercalate_singleton, List.flatMap_nil, List.append_nil]
  | cons c bs ih =>
    rw [List.intercalate_cons_cons, ih, List.flatMap_cons, List.append_assoc, List.append_assoc]

/-- The functions of a listing are set apart by empty lines. -/
theorem lines_eq_intercalate (options : ListingOptions) (p : Prototype Bytes) :
    lines options p = [""].intercalate ((shown options p).map (block options)) := by
  rw [lines_eq_append]
  -- on the right alone: the functions shown stand on both sides
  conv_rhs =>
    rw [shown_eq_cons, List.map_cons, intercalate_cons_eq_append_flatMap, List.flatMap_map]
  rfl

/-- In a listing that shows a function, the lines of its instructions stand in a row. -/
theorem exists_getElem?_lines {options : ListingOptions} {p s : Prototype Bytes}
    (hs : s ∈ shown options p) :
    ∃ start, ∀ pc ins, s.record.code[pc]? = some ins →
      (lines options p)[start + pc]? = some ((Scope.ofRecord s.record).instructionLine pc ins) := by
  obtain ⟨front, back, hlines⟩ : ∃ front back,
      lines options p = front ++ (block options s ++ back) := by
    -- the function is the first, or one of the others
    rw [shown_eq_cons, List.mem_cons] at hs
    obtain rfl | hs := hs
    · exact ⟨[], _, lines_eq_append options s⟩
    · -- the block of a function that is not the first comes behind an empty line
      obtain ⟨before, after, htail⟩ := List.append_of_mem hs
      refine ⟨block options p ++ before.flatMap (fun s => "" :: block options s) ++ [""],
        after.flatMap fun s => "" :: block options s, ?_⟩
      rw [lines_eq_append, htail]
      simp
  refine ⟨front.length + 2, fun pc ins hins => ?_⟩
  have hlen : 2 + pc < (block options s).length :=
    (List.getElem?_eq_some_iff.1 (getElem?_block options hins)).1
  rw [hlines, Nat.add_assoc, List.getElem?_append_right (Nat.le_add_right ..),
    Nat.add_sub_cancel_left, List.getElem?_append_left hlen, getElem?_block options hins]

/-- A listing has the lines of its functions and, after the first function, an empty line for each
of the others. -/
theorem length_lines (options : ListingOptions) (p : Prototype Bytes) :
    (lines options p).length =
      ((shown options p).map fun s => blockLength options s.record).sum +
        ((shown options p).length - 1) := by
  -- each of the other functions brings an empty line in front of its own
  have hrest : ∀ fs : List (Prototype Bytes),
      (fs.flatMap fun s => "" :: block options s).length =
        (fs.map fun s => blockLength options s.record).sum + fs.length := by
    intro fs
    induction fs with
    | nil => rfl
    | cons f fs ih =>
      rw [List.flatMap_cons, List.length_append, ih, List.length_cons, length_block, List.map_cons,
        List.sum_cons, List.length_cons]
      omega
  rw [lines_eq_append, List.length_append, length_block, hrest, shown_eq_cons, List.map_cons,
    List.sum_cons, List.length_cons, List.tail_cons]
  omega

/-- Functions that are shown are functions of the tree. -/
theorem namesOnOneLine_of_mem_shown {options : ListingOptions} {p s : Prototype Bytes}
    (h : p.All fun r _ => r.NamesOnOneLine) (hs : s ∈ shown options p) :
    s.record.NamesOnOneLine := by
  unfold shown at hs
  split at hs
  · obtain ⟨⟨path, _⟩, hx, rfl⟩ := List.mem_map.1 hs
    exact (h.of_at? (FunctionTree.mem_preorder.1 hx)).record
  · obtain rfl := List.mem_singleton.1 hs
    exact h.record

/-- If no name has a line feed, no line of a listing has one. -/
theorem oneLine_of_mem_lines {options : ListingOptions} {p : Prototype Bytes}
    (h : p.All fun r _ => r.NamesOnOneLine) {l : String} (hl : l ∈ lines options p) :
    OneLine l := by
  have hblock : ∀ s ∈ shown options p, ∀ l ∈ block options s, OneLine l := fun s hs l hl =>
    oneLine_of_mem_ownLines (namesOnOneLine_of_mem_shown h hs) hl
  rw [lines_eq_append, List.mem_append, List.mem_flatMap] at hl
  -- a line of the first function, or of one that comes behind an empty line
  obtain hfirst | ⟨s, hs, hl⟩ := hl
  · refine hblock p ?_ l hfirst
    rw [shown_eq_cons]
    exact List.mem_cons_self
  · obtain rfl | hl := List.mem_cons.1 hl
    · decide
    · exact hblock s (List.mem_of_mem_tail hs) l hl

end Listing

open Listing in
/-- If no name has a line feed, a listing ends in one, its lines are as many as the sizes of the
functions shown make them, and they fall into a block for each function with an empty line between
two. Behind the first two lines of a block come those of the instructions; the line of instruction
`i` begins with a tab, `i + 1` and a tab. -/
theorem listing_shape (options : ListingOptions) (p : Prototype Bytes)
    (h : p.All fun r _ => r.NamesOnOneLine) :
    let text := render options p
    let functions := shown options p
    (∃ front, text = front ++ "\n") ∧
    (textLines text).length =
      (functions.map fun s => blockLength options s.record).sum + (functions.length - 1) ∧
    textLines text = [""].intercalate (functions.map (block options)) ∧
    ∀ s ∈ functions, (block options s).length = blockLength options s.record ∧
      ∀ i ins, s.record.code[i]? = some ins →
        let line := (Scope.ofRecord s.record).instructionLine i ins
        (block options s)[2 + i]? = some line ∧
          ∃ rest, line = "\t" ++ (i + 1).repr ++ "\t" ++ rest := by
  intro text functions
  -- no line of a listing has a line feed in it, so that cutting gives the lines back
  have hlines : textLines text = lines options p :=
    textLines_unlines fun l hl => oneLine_of_mem_lines h hl
  have hne : lines options p ≠ [] := by
    rw [lines_eq_append]
    exact List.cons_ne_nil _ _
  refine ⟨exists_unlines_eq_append hne, hlines ▸ length_lines options p,
    hlines.trans (lines_eq_intercalate options p), fun s _ => ⟨length_block options s, ?_⟩⟩
  intro i ins hins line
  exact ⟨getElem?_block options hins, exists_instructionLine_eq_append _ i ins⟩

open Listing in
/-- Four functions with ten lines each, though each has a constant with a line feed, and three empty
lines. -/
theorem listing_shape_sample :
    sampleTree.All (fun r _ => r.NamesOnOneLine) ∧
      (textLines (render .full sampleTree)).length = 43 := by
  have hnames : sampleTree.All (fun r _ => r.NamesOnOneLine) := by
    decide
  obtain ⟨-, hlength, -, -⟩ := listing_shape .full sampleTree hnames
  exact ⟨hnames, hlength.trans (by decide)⟩

end LuaChunk
