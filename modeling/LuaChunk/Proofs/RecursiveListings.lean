import LuaChunk.Listing
import LuaChunk.Proofs.Preorder
import LuaChunk.Proofs.TextPieces

/-!
# Listings of trees

A listing is made of blocks, one for each function that it shows: the function alone, or all
functions of the tree with the parents first. Between two blocks there is an empty line, so that a
recursive listing is joined from the listings of single functions.

A function stands in the listing of the whole tree as it would stand alone with those inside it.

## Key results

* `lines_eq_append`         the lines of a listing are those of its blocks with empty lines between
* `render_recursive`        a recursive listing is joined from listings that are not
* `recursive_listings`      and has in it the recursive listing of every function inside
-/

namespace LuaChunk

namespace Listing

/-! ### Blocks -/

/-- The lines of a function alone. -/
def block (options : ListingOptions) (p : Prototype Bytes) : List String :=
  ownLines options p.record p.children.length

/-- The functions that a listing shows, in order. -/
def shown (options : ListingOptions) (p : Prototype Bytes) : List (Prototype Bytes) :=
  if options.recursive then p.preorder.map Prod.snd else [p]

/-- A listing shows the function itself first. -/
theorem shown_eq_cons (options : ListingOptions) (p : Prototype Bytes) :
    shown options p = p :: (shown options p).tail := by
  unfold shown
  split
  · rw [FunctionTree.preorder_eq_cons, List.map_cons, List.tail_cons]
  · rfl

/-- The lines of a listing: after the first block, each comes with an empty line before it. -/
theorem lines_eq_append (options : ListingOptions) (p : Prototype Bytes) :
    lines options p =
      block options p ++ (shown options p).tail.flatMap fun s => "" :: block options s := by
  cases hrec : options.recursive with
  -- only the function itself is shown
  | false =>
    obtain ⟨r, cs⟩ := p
    rw [lines_node, shown, hrec]
    rfl
  -- the functions inside are shown as well, child by child
  | true =>
    have hshown : ∀ q, (shown options q).tail = q.preorder.tail.map Prod.snd := fun q => by
      rw [shown, if_pos hrec, List.map_tail]
    induction p using FunctionTree.induction with
    | node r cs ih =>
      -- with the empty line in front, a child's first block is like its others
      have hchild : ∀ c ∈ cs, "" :: lines options c =
          c.preorder.flatMap fun x => "" :: block options x.2 := fun c hc => by
        rw [ih c hc, FunctionTree.preorder_eq_cons, List.flatMap_cons, hshown, List.flatMap_map]
        rfl
      rw [lines_node, if_pos hrec, hshown, List.flatMap_map, List.flatMap_congr hchild,
        ← FunctionTree.flatMap_preorderAll (fun s => "" :: block options s) 0,
        FunctionTree.preorder]
      rfl

/-! ### Text -/

/-- Lines as text, each with its end. -/
def unlines (ls : List String) : String :=
  String.join (ls.map (· ++ "\n"))

/-- Lines in two portions are the text of the first, then that of the second. -/
theorem unlines_append (ls ls' : List String) :
    unlines (ls ++ ls') = unlines ls ++ unlines ls' := by
  rw [unlines, List.map_append, String.join_append]
  rfl

/-- The first line ends in front of the others. -/
theorem unlines_cons (l : String) (ls : List String) :
    unlines (l :: ls) = l ++ "\n" ++ unlines ls := by
  rw [unlines, List.map_cons, String.join_cons]
  rfl

/-- Blocks with an empty line before each are their texts with a line feed before each. -/
theorem unlines_flatMap {α : Type} (f : α → List String) (xs : List α) :
    unlines (xs.flatMap fun x => "" :: f x) =
      String.join ((xs.map fun x => unlines (f x)).map ("\n" ++ ·)) := by
  induction xs with
  | nil => rfl
  | cons x xs ih =>
    rw [List.flatMap_cons, unlines_append, ih, unlines_cons, String.empty_append, List.map_cons,
      List.map_cons, String.join_cons]

/-- A listing is joined from the texts of its blocks. -/
theorem render_eq_intercalate (options : ListingOptions) (p : Prototype Bytes) :
    render options p =
      "\n".intercalate ((shown options p).map fun s => unlines (block options s)) := by
  rw [shown_eq_cons, List.map_cons, intercalate_cons_eq_append_join, ← unlines_flatMap,
    ← unlines_append, ← lines_eq_append]
  rfl

/-- The listing of a function alone. -/
theorem render_alone (options : ListingOptions) (p : Prototype Bytes) :
    render { options with recursive := false } p = unlines (block options p) := by
  rw [render_eq_intercalate]
  exact String.intercalate_singleton

/-- A recursive listing is joined from the listings of single functions. -/
theorem render_recursive (options : ListingOptions) (p : Prototype Bytes) :
    render { options with recursive := true } p =
      "\n".intercalate
        (p.preorder.map fun x => render { options with recursive := false } x.2) := by
  -- a block does not depend on whether others are shown with it
  have hblock : ∀ s, block { options with recursive := true } s = block options s := fun _ => rfl
  rw [render_eq_intercalate, shown, if_pos rfl, List.map_map]
  simp only [render_alone, hblock, Function.comp_def]

/-- A function record with some of everything, at a line; the constant has a line feed in it. -/
def sampleRecord (line : Int32) : FunctionRecord Bytes where
  source := some [0x40, 0x61]
  lineDefined := line
  lastLineDefined := line
  numParams := 0
  isVararg := true
  maxStackSize := 2
  code := [.abx .loadK 0 0, .abc .ret 0 1 0]
  constants := [.string [0x61, 0x0A, 0x62]]
  upvalues := [⟨true, 0, some [0x65]⟩]
  lineInfo := [line]
  locals := [⟨[0x78], 1, 2⟩]

/-- A main function with two functions inside it, the first of which has one inside it. -/
def sampleTree : Prototype Bytes :=
  .node (sampleRecord 0) [.node (sampleRecord 1) [.node (sampleRecord 2) []],
    .node (sampleRecord 3) []]

end Listing

open Listing in
/-- A recursive listing of a tree is joined from the listings of its functions alone, parents first,
with a line feed between each two. So the recursive listing of every function inside is found in it,
right behind the listings of the functions before that one and the line feeds after them. -/
theorem recursive_listings (options : ListingOptions) (p : Prototype Bytes) :
    let alone := render { options with recursive := false }
    let whole := render { options with recursive := true }
    whole p = "\n".intercalate (p.preorder.map fun x => alone x.2) ∧
    ∀ path d, p.at? path = some d →
      let before := p.preceding path
      let after := p.preorder.drop (before.length + d.preorder.length)
      whole p = String.join (before.map fun x => alone x.2 ++ "\n") ++ whole d ++
        String.join (after.map fun x => "\n" ++ alone x.2) := by
  intro alone whole
  refine ⟨render_recursive options p, ?_⟩
  intro path d hd before after
  -- a function is shown itself, so that something stands between the two ends
  have hne : d.preorder.map (fun x => alone x.2) ≠ [] := by
    rw [FunctionTree.preorder_eq_cons]
    exact List.cons_ne_nil _ _
  have hsplit : p.preorder.map (fun x => alone x.2) = before.map (fun x => alone x.2) ++
      d.preorder.map (fun x => alone x.2) ++ after.map (fun x => alone x.2) := by
    -- on the left alone: the functions after `d` are named by the same list
    conv_lhs => rw [FunctionTree.preorder_eq_append hd]
    simp only [List.map_append, List.map_map, Function.comp_def, before, after]
  calc
    whole p = "\n".intercalate (p.preorder.map fun x => alone x.2) :=
      render_recursive options p
    _ = String.join ((before.map fun x => alone x.2).map (· ++ "\n")) ++
        "\n".intercalate (d.preorder.map fun x => alone x.2) ++
        String.join ((after.map fun x => alone x.2).map ("\n" ++ ·)) := by
      rw [hsplit, intercalate_append_append hne]
    _ = _ := by
      rw [List.map_map, List.map_map, ← render_recursive options d]
      simp only [Function.comp_def, whole]

open Listing in
/-- The function that is listed third, of four. -/
theorem recursive_listings_sample :
    let options : ListingOptions := {}
    let alone := render { options with recursive := false }
    let whole := render { options with recursive := true }
    let before := sampleTree.preceding [0, 0]
    sampleTree.at? [0, 0] = some (.node (sampleRecord 2) []) ∧
      before.map (·.1) = [[], [0]] ∧
      whole sampleTree = String.join (before.map fun x => alone x.2 ++ "\n") ++
        whole (.node (sampleRecord 2) []) ++ ("\n" ++ alone (.node (sampleRecord 3) [])) := by
  intro options alone whole before
  have hat : sampleTree.at? [0, 0] = some (.node (sampleRecord 2) []) := rfl
  have hbefore : before.map (·.1) = [[], [0]] := by decide
  have hafter : sampleTree.preorder.drop
      (before.length + (FunctionTree.node (sampleRecord 2) []).preorder.length) =
      [([1], .node (sampleRecord 3) [])] := rfl
  have hwhole := (recursive_listings options sampleTree).2 [0, 0] _ hat
  refine ⟨hat, hbefore, hwhole.trans ?_⟩
  rw [hafter, List.map_singleton, String.join_cons, String.join_nil, String.append_empty]

end LuaChunk
