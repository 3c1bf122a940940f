/-!
# Trees of functions

A chunk describes one function and, inside it, the functions that it defines, to any depth. What is
known of a single function is its record; the tree puts a list of children beside each record.

Functions on the tree are written with `fold`, which computes a result for a node from its record
and the results of its children, so that `FunctionTree.induction` and `fold_node` are all that a
proof needs.

## Key results

* `FunctionTree.induction`   a property holds of every tree if it passes from children to parent
* `FunctionTree.fold_node`   `fold` of a node is the step applied to the folds of its children
* `all_mapRecords`           a property of every node, carried back over a change of all records
* `All.of_at?`               what holds of every node holds of the node that a path leads to
-/

namespace LuaChunk

/-- A function with the functions inside it; `ρ` is the type of a single function's record. -/
inductive FunctionTree (ρ : Type)
  | node (record : ρ) (children : List (FunctionTree ρ))

namespace FunctionTree

variable {ρ ρ' ρ'' β : Type}

/-- A function's own record. -/
def record : FunctionTree ρ → ρ
  | node r _ => r

/-- The functions defined directly inside a function. -/
def children : FunctionTree ρ → List (FunctionTree ρ)
  | node _ cs => cs

/-- A property that passes from the children of each node to the node holds of every tree. -/
@[elab_as_elim] theorem induction {motive : FunctionTree ρ → Prop}
    (node : ∀ r cs, (∀ c ∈ cs, motive c) → motive (.node r cs)) : ∀ t, motive t
  | .node r cs => node r cs fun c _ => induction node c

/-! ### Folding -/

mutual

/-- Computes a result for a tree from the root's record and the results of its children. -/
def fold (step : ρ → List β → β) : FunctionTree ρ → β
  | .node r cs => step r (foldAll step cs)

/-- The results of `fold` for several trees. -/
def foldAll (step : ρ → List β → β) : List (FunctionTree ρ) → List β
  | [] => []
  | t :: ts => fold step t :: foldAll step ts

end

theorem foldAll_eq_map (step : ρ → List β → β) (ts : List (FunctionTree ρ)) :
    foldAll step ts = ts.map (fold step) := by
  induction ts with
  | nil => rfl
  | cons t ts ih => simp [foldAll, ih]

/-- The result for a node is the step applied to its record and the results for its children. -/
@[simp] theorem fold_node (step : ρ → List β → β) (r : ρ) (cs : List (FunctionTree ρ)) :
    fold step (.node r cs) = step r (cs.map (fold step)) := by
  simp [fold, foldAll_eq_map]

/-! ### Measures and views -/

/-- The number of functions in a tree. -/
def count : FunctionTree ρ → Nat :=
  fold fun _ counts => counts.foldr (· + ·) 1

/-- The root counts for one. -/
theorem count_node (r : ρ) (cs : List (FunctionTree ρ)) :
    count (.node r cs) = (cs.map count).foldr (· + ·) 1 :=
  fold_node ..

/-- How deep the innermost function of a tree is nested; a tree without children has height 0. -/
def height : FunctionTree ρ → Nat :=
  fold fun _ heights => (heights.map (· + 1)).foldr max 0

/-- A function with others inside it is one higher than the highest of them. -/
theorem height_node (r : ρ) (cs : List (FunctionTree ρ)) :
    height (.node r cs) = (cs.map fun c => height c + 1).foldr max 0 := by
  simp only [height, fold_node, List.map_map, Function.comp_def]

/-- A tree keeps within a depth if the trees of the root's children keep within one less. -/
theorem height_node_lt_succ_iff {r : ρ} {cs : List (FunctionTree ρ)} {n : Nat} :
    height (.node r cs) < n + 1 ↔ ∀ c ∈ cs, height c < n := by
  rw [height_node]
  induction cs with
  | nil => simp
  | cons c cs ih =>
    simp only [List.map_cons, List.foldr_cons, List.forall_mem_cons, ← ih]
    omega

mutual

/-- Every function of a tree with its depth and all that is inside it: parents first, children in
order; `depth` is the depth of the root. -/
def subtrees (depth : Nat) : FunctionTree ρ → List (Nat × FunctionTree ρ)
  | .node r cs => (depth, .node r cs) :: subtreesAll (depth + 1) cs

/-- The functions of several trees, one tree after the other. -/
def subtreesAll (depth : Nat) : List (FunctionTree ρ) → List (Nat × FunctionTree ρ)
  | [] => []
  | t :: ts => subtrees depth t ++ subtreesAll depth ts

end

theorem subtreesAll_eq_flatMap (depth : Nat) (ts : List (FunctionTree ρ)) :
    subtreesAll depth ts = ts.flatMap (subtrees depth) := by
  induction ts with
  | nil => rfl
  | cons t ts ih => simp [subtreesAll, ih]

/-- The root comes before all that is inside it. -/
theorem subtrees_node (depth : Nat) (r : ρ) (cs : List (FunctionTree ρ)) :
    subtrees depth (.node r cs) = (depth, .node r cs) :: cs.flatMap (subtrees (depth + 1)) := by
  simp [subtrees, subtreesAll_eq_flatMap]

/-- The function that a path of child indices leads to. -/
def at? (t : FunctionTree ρ) : List Nat → Option (FunctionTree ρ)
  | [] => some t
  | i :: path => t.children[i]?.bind fun c => c.at? path

/-! ### Changing every record -/

/-- A tree with every record changed on its own. -/
def mapRecords (f : ρ → ρ') : FunctionTree ρ → FunctionTree ρ' :=
  fold fun r cs => .node (f r) cs

/-- A change of every record changes the root's and those inside. -/
theorem mapRecords_node (f : ρ → ρ') (r : ρ) (cs : List (FunctionTree ρ)) :
    mapRecords f (.node r cs) = .node (f r) (cs.map (mapRecords f)) :=
  fold_node ..

@[simp] theorem record_mapRecords (f : ρ → ρ') (t : FunctionTree ρ) :
    (mapRecords f t).record = f t.record := by
  cases t
  rw [mapRecords_node]
  rfl

/-- Two changes, one after the other, are one change. -/
theorem mapRecords_mapRecords (g : ρ' → ρ'') (f : ρ → ρ') (t : FunctionTree ρ) :
    mapRecords g (mapRecords f t) = mapRecords (fun r => g (f r)) t := by
  induction t using FunctionTree.induction with
  | node r cs ih =>
    simp only [mapRecords_node, List.map_map, node.injEq, true_and]
    exact List.map_congr_left ih

/-- A change that leaves every record as it is changes nothing. -/
theorem mapRecords_of_forall_eq {f : ρ → ρ} (h : ∀ r, f r = r) (t : FunctionTree ρ) :
    mapRecords f t = t := by
  induction t using FunctionTree.induction with
  | node r cs ih =>
    rw [mapRecords_node, h r, List.map_congr_left ih, List.map_id']

@[simp] theorem height_mapRecords (f : ρ → ρ') (t : FunctionTree ρ) :
    (mapRecords f t).height = t.height := by
  induction t using FunctionTree.induction with
  | node r cs ih =>
    simp only [mapRecords_node, height_node, List.map_map]
    -- the children keep their heights, by induction
    congr 1
    exact List.map_congr_left fun c hc => congrArg (· + 1) (ih c hc)

@[simp] theorem count_mapRecords (f : ρ → ρ') (t : FunctionTree ρ) :
    (mapRecords f t).count = t.count := by
  induction t using FunctionTree.induction with
  | node r cs ih =>
    simp only [mapRecords_node, count_node, List.map_map]
    -- the children keep their counts, by induction
    congr 1
    exact List.map_congr_left ih

/-! ### Properties of every node -/

/-- Whether every node of a tree has a property, which is told the node's record and the number of
its children. -/
def All (P : ρ → Nat → Prop) : FunctionTree ρ → Prop :=
  fold fun r children => P r children.length ∧ ∀ c ∈ children, c

/-- A property holds of every node if it holds of the root and of every node inside. -/
theorem all_node {P : ρ → Nat → Prop} {r : ρ} {cs : List (FunctionTree ρ)} :
    All P (.node r cs) ↔ P r cs.length ∧ ∀ c ∈ cs, All P c := by
  simp only [All, fold_node, List.length_map, List.forall_mem_map]

instance {P : ρ → Nat → Prop} [∀ r n, Decidable (P r n)] (t : FunctionTree ρ) :
    Decidable (All P t) :=
  -- the same fold with a Boolean at every node, which can be run
  decidable_of_iff
    (fold (fun r children => decide (P r children.length) && children.all id) t = true) <| by
    induction t using FunctionTree.induction with
    | node r cs ih =>
      rw [fold_node, all_node, Bool.and_eq_true, decide_eq_true_iff, List.length_map,
        List.all_map, List.all_eq_true]
      exact and_congr_right fun _ => forall_congr' fun c => forall_congr' (ih c)

/-- A property of every record after a change is a property of every record before it. -/
theorem all_mapRecords {P : ρ' → Nat → Prop} {f : ρ → ρ'} {t : FunctionTree ρ} :
    All P (mapRecords f t) ↔ All (fun r n => P (f r) n) t := by
  induction t using FunctionTree.induction with
  | node r cs ih =>
    simp only [mapRecords_node, all_node, List.length_map, List.forall_mem_map]
    exact and_congr_right fun _ => forall_congr' fun c => forall_congr' (ih c)

/-- A property of every node may be weakened, node by node. -/
theorem All.mono {P Q : ρ → Nat → Prop} {t : FunctionTree ρ} (h : All P t)
    (hPQ : ∀ r n, P r n → Q r n) : All Q t := by
  induction t using FunctionTree.induction with
  | node r cs ih =>
    rw [all_node] at h ⊢
    exact ⟨hPQ _ _ h.1, fun c hc => ih c hc (h.2 c hc)⟩

/-- Two properties of every node hold together of every node. -/
theorem All.and {P Q : ρ → Nat → Prop} {t : FunctionTree ρ} (hP : All P t) (hQ : All Q t) :
    All (fun r n => P r n ∧ Q r n) t := by
  induction t using FunctionTree.induction with
  | node r cs ih =>
    rw [all_node] at hP hQ ⊢
    exact ⟨⟨hP.1, hQ.1⟩, fun c hc => ih c hc (hP.2 c hc) (hQ.2 c hc)⟩

/-- What holds of all records holds of those in a tree. -/
theorem all_of_forall {P : ρ → Nat → Prop} (h : ∀ r n, P r n) (t : FunctionTree ρ) : All P t := by
  induction t using FunctionTree.induction with
  | node r cs ih => exact all_node.2 ⟨h r cs.length, ih⟩

/-- Two changes that agree on the records of a tree give the same tree. -/
theorem mapRecords_congr {f g : ρ → ρ'} {t : FunctionTree ρ} (h : All (fun r _ => f r = g r) t) :
    mapRecords f t = mapRecords g t := by
  induction t using FunctionTree.induction with
  | node r cs ih =>
    obtain ⟨hr, hcs⟩ := all_node.1 h
    rw [mapRecords_node, mapRecords_node, hr]
    exact congrArg _ (List.map_congr_left fun c hc => ih c hc (hcs c hc))

/-! ### Functions at the end of a path -/

/-- A path leads into a child first and on from there. -/
theorem at?_cons_eq_some {t s : FunctionTree ρ} {i : Nat} {path : List Nat} :
    t.at? (i :: path) = some s ↔ ∃ c, t.children[i]? = some c ∧ c.at? path = some s :=
  Option.bind_eq_some_iff

theorem at?_cons {r : ρ} {c : FunctionTree ρ} {cs : List (FunctionTree ρ)} {i : Nat}
    (hc : cs[i]? = some c) (path : List Nat) : (node r cs).at? (i :: path) = c.at? path := by
  simp only [at?, children, hc, Option.bind_some]

/-- A path is followed to its end by following its front first. -/
theorem at?_append (t : FunctionTree ρ) (front back : List Nat) :
    t.at? (front ++ back) = (t.at? front).bind fun s => s.at? back := by
  induction front generalizing t with
  | nil => rfl
  | cons i front ih =>
    simp only [List.cons_append, at?]
    cases t.children[i]? with
    | none => rfl
    | some c => exact ih c

/-- The children of a changed tree are the changed children. -/
theorem children_mapRecords (f : ρ → ρ') (t : FunctionTree ρ) :
    (mapRecords f t).children = t.children.map (mapRecords f) := by
  cases t
  rw [mapRecords_node]
  rfl

/-- A change of all records changes what a path leads to, and not where it leads. -/
theorem at?_mapRecords (f : ρ → ρ') (t : FunctionTree ρ) (path : List Nat) :
    (mapRecords f t).at? path = (t.at? path).map (mapRecords f) := by
  induction path generalizing t with
  | nil => rfl
  | cons i path ih =>
    simp only [at?, children_mapRecords, List.getElem?_map]
    cases t.children[i]? with
    | none => rfl
    | some c => exact ih c

/-- Where the same is told of two trees, record by record, the same paths lead to a function, and
the same is told of it. -/
theorem exists_at?_of_mapRecords_eq {f : ρ → ρ''} {f' : ρ' → ρ''} {t : FunctionTree ρ}
    {t' : FunctionTree ρ'} (h : mapRecords f t = mapRecords f' t') {path : List Nat}
    {s : FunctionTree ρ} (hs : t.at? path = some s) :
    ∃ s', t'.at? path = some s' ∧ f' s'.record = f s.record := by
  -- follow the path in what is told of both trees
  have hpath := congrArg (·.at? path) h
  simp only [at?_mapRecords, hs, Option.map_some] at hpath
  obtain ⟨s', hs', heq⟩ := Option.map_eq_some_iff.1 hpath.symm
  have hrecord := congrArg FunctionTree.record heq
  rw [record_mapRecords, record_mapRecords] at hrecord
  exact ⟨s', hs', hrecord⟩

/-- What holds of every node of a tree holds of every node of a function inside it. -/
theorem All.of_at? {P : ρ → Nat → Prop} {t s : FunctionTree ρ} {path : List Nat} (h : All P t)
    (hs : t.at? path = some s) : All P s := by
  induction path generalizing t with
  | nil =>
    obtain rfl := Option.some.inj hs
    exact h
  | cons i path ih =>
    obtain ⟨r, cs⟩ := t
    -- the first step leads to a child, every node of which is a node of the tree
    obtain ⟨c, hc, hs⟩ := at?_cons_eq_some.1 hs
    exact ih ((all_node.1 h).2 c (List.mem_of_getElem? hc)) hs

/-- What holds of every node holds of the root. -/
theorem All.record {P : ρ → Nat → Prop} {t : FunctionTree ρ} (h : All P t) :
    P t.record t.children.length := by
  cases t
  exact (all_node.1 h).1

/-- No path leads deeper than the tree is high. -/
theorem length_add_height_le {t s : FunctionTree ρ} {path : List Nat} (h : t.at? path = some s) :
    path.length + s.height ≤ t.height := by
  induction path generalizing t with
  | nil =>
    obtain rfl := Option.some.inj h
    simp
  | cons i path ih =>
    obtain ⟨r, cs⟩ := t
    obtain ⟨c, hc, hs⟩ := at?_cons_eq_some.1 h
    -- a child is at least one lower than its parent
    have hlt : c.height < (FunctionTree.node r cs).height :=
      height_node_lt_succ_iff.1 (Nat.lt_succ_self _) c (List.mem_of_getElem? hc)
    have hle := ih hs
    simp only [List.length_cons]
    omega

end FunctionTree

end LuaChunk
