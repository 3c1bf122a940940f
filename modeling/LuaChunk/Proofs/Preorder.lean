import LuaChunk.FunctionTree

/-!
# Parents before children

The functions of a tree in the order in which a listing goes through them: a function first, then
all that is inside it, child by child. Each stands with the path that leads to it.

The functions inside a given one stand together, from the place of that one on. What stands in front
of them is what is listed before the path comes up.

## Key results

* `subtrees_eq_preorder`    the same functions, with how deep they are in place of the path
* `mem_preorder`            every function is listed with the path that leads to it
* `preorder_eq_append`      the functions inside a function stand together behind its path
-/

namespace LuaChunk

namespace FunctionTree

variable {ρ β : Type}

mutual

/-- Every function of a tree with the path that leads to it: parents first, children in order. -/
def preorder : FunctionTree ρ → List (List Nat × FunctionTree ρ)
  | .node r cs => ([], .node r cs) :: preorderAll 0 cs

/-- The functions of several trees, one tree after the other; the first is the child `index`. -/
def preorderAll (index : Nat) : List (FunctionTree ρ) → List (List Nat × FunctionTree ρ)
  | [] => []
  | t :: ts =>
    (preorder t).map (fun (path, s) => (index :: path, s)) ++ preorderAll (index + 1) ts

end

/-- A tree is listed first, under the empty path. -/
theorem preorder_eq_cons (t : FunctionTree ρ) : t.preorder = ([], t) :: t.preorder.tail := by
  cases t
  rw [preorder]
  rfl

/-- The children behind others are numbered on from them. -/
theorem preorderAll_append (index : Nat) (ts us : List (FunctionTree ρ)) :
    preorderAll index (ts ++ us) = preorderAll index ts ++ preorderAll (index + ts.length) us := by
  induction ts generalizing index with
  | nil => rfl
  | cons t ts ih =>
    rw [List.cons_append, preorderAll, preorderAll, ih, List.append_assoc, List.length_cons,
      Nat.add_right_comm, Nat.add_assoc]

/-- What does not look at the paths goes through several trees as through one after the other. -/
theorem flatMap_preorderAll (f : FunctionTree ρ → List β) (index : Nat)
    (ts : List (FunctionTree ρ)) :
    (preorderAll index ts).flatMap (fun x => f x.2) =
      ts.flatMap fun t => t.preorder.flatMap fun x => f x.2 := by
  induction ts generalizing index with
  | nil => rfl
  | cons t ts ih =>
    rw [preorderAll, List.flatMap_append, ih, List.flatMap_map, List.flatMap_cons]

/-- The same functions are listed with how deep they are as with the path that leads to them. -/
theorem subtrees_eq_preorder (depth : Nat) (t : FunctionTree ρ) :
    subtrees depth t = t.preorder.map fun (path, s) => (depth + path.length, s) := by
  induction t using FunctionTree.induction generalizing depth with
  | node r cs ih =>
    -- the depth of a child grows by one, and so does the length of every path in it
    have hall : ∀ index, subtreesAll (depth + 1) cs =
        (preorderAll index cs).map fun (path, s) => (depth + path.length, s) := by
      induction cs with
      | nil => intro index; rfl
      | cons c cs ihcs =>
        intro index
        have hc := ih c List.mem_cons_self (depth + 1)
        have hcs := ihcs (fun d hd => ih d (List.mem_cons_of_mem _ hd)) (index + 1)
        rw [subtreesAll, preorderAll, hc, hcs, List.map_append, List.map_map]
        simp only [Function.comp_def, List.length_cons, Nat.add_assoc, Nat.add_comm 1]
    rw [subtrees, preorder, hall 0, List.map_cons]
    rfl

/-! ### The functions inside a function -/

/-- What is listed of several trees is listed of one of them, whose number begins the path. -/
theorem exists_of_mem_preorderAll {index : Nat} {ts : List (FunctionTree ρ)}
    {x : List Nat × FunctionTree ρ} (h : x ∈ preorderAll index ts) :
    ∃ i t back, ts[i]? = some t ∧ x.1 = (index + i) :: back ∧ (back, x.2) ∈ t.preorder := by
  induction ts generalizing index with
  | nil => exact nomatch h
  | cons t ts ih =>
    obtain hmem | hmem := List.mem_append.1 h
    -- it is in the first tree
    · obtain ⟨y, hy, rfl⟩ := List.mem_map.1 hmem
      exact ⟨0, t, y.1, rfl, rfl, hy⟩
    -- it is in one of the others, which are numbered on
    · obtain ⟨i, u, back, hu, hpath, hback⟩ := ih hmem
      exact ⟨i + 1, u, back, hu, by rw [hpath, Nat.add_right_comm, Nat.add_assoc], hback⟩

/-- The functions of one child stand together: behind the root and the children before it, and in
front of the children after it. -/
theorem preorder_node_eq_append {r : ρ} {cs : List (FunctionTree ρ)} {c : FunctionTree ρ} {i : Nat}
    (hc : cs[i]? = some c) :
    preorder (.node r cs) = ([], .node r cs) :: preorderAll 0 (cs.take i) ++
      c.preorder.map (fun (path, s) => (i :: path, s)) ++
      preorderAll (i + 1) (cs.drop (i + 1)) := by
  obtain ⟨hi, hget⟩ := List.getElem?_eq_some_iff.1 hc
  -- the children in front of this one, this one, and those behind it
  have hlength : (cs.take i).length = i := List.length_take_of_le (Nat.le_of_lt hi)
  have hsplit : cs.take i ++ c :: cs.drop (i + 1) = cs := by
    rw [← hget, ← List.drop_eq_getElem_cons hi, List.take_append_drop]
  have hcs := preorderAll_append 0 (cs.take i) (c :: cs.drop (i + 1))
  rw [hsplit, hlength, Nat.zero_add, preorderAll, ← List.append_assoc] at hcs
  rw [preorder, hcs]
  rfl

/-- The functions inside a function stand together, and its path has not come up before. -/
theorem exists_preorder_eq_append {t s : FunctionTree ρ} {path : List Nat}
    (h : t.at? path = some s) :
    ∃ before after, t.preorder =
        before ++ s.preorder.map (fun (back, u) => (path ++ back, u)) ++ after ∧
      ∀ x ∈ before, x.1 ≠ path := by
  induction path generalizing t with
  | nil =>
    obtain rfl := Option.some.inj h
    exact ⟨[], [], by simp, fun x hx => nomatch hx⟩
  | cons i path ih =>
    obtain ⟨r, cs⟩ := t
    obtain ⟨c, hc, hs⟩ : ∃ c, cs[i]? = some c ∧ c.at? path = some s := at?_cons_eq_some.1 h
    obtain ⟨before, after, heq, hbefore⟩ := ih hs
    -- the root, the children before the one on the path, and what comes first in that one
    refine ⟨([], .node r cs) :: preorderAll 0 (cs.take i) ++
        before.map (fun (back, u) => (i :: back, u)),
      after.map (fun (back, u) => (i :: back, u)) ++ preorderAll (i + 1) (cs.drop (i + 1)),
      ?_, ?_⟩
    · rw [preorder_node_eq_append hc, heq]
      simp only [List.map_append, List.map_map, Function.comp_def, List.cons_append,
        List.append_assoc]
    -- only in the child itself can the path begin as the path that is looked for
    · intro x hx hpath
      obtain hfront | hmem := List.mem_append.1 hx
      · obtain rfl | hmem := List.mem_cons.1 hfront
        · exact List.cons_ne_nil i path hpath.symm
        · obtain ⟨j, u, back, hu, hhead, -⟩ := exists_of_mem_preorderAll hmem
          have hij : i = 0 + j := (List.cons.inj (hpath.symm.trans hhead)).1
          have hlt : j < (cs.take i).length := (List.getElem?_eq_some_iff.1 hu).1
          have hle : (cs.take i).length ≤ i := List.length_take_le i cs
          omega
      · obtain ⟨y, hy, rfl⟩ := List.mem_map.1 hmem
        exact hbefore y hy (List.cons.inj hpath).2

/-- What is listed are the paths that lead to a function, each with the function. -/
theorem mem_preorder {t s : FunctionTree ρ} {path : List Nat} :
    (path, s) ∈ t.preorder ↔ t.at? path = some s := by
  constructor
  -- what is listed of a tree is the root or inside a child, as the path says
  · intro h
    induction path generalizing t with
    | nil =>
      obtain ⟨r, cs⟩ := t
      obtain heq | hmem := List.mem_cons.1 h
      · exact congrArg some (Prod.mk.inj heq).2.symm
      · obtain ⟨_, _, _, -, hpath, -⟩ := exists_of_mem_preorderAll hmem
        exact nomatch hpath
    | cons i path ih =>
      obtain ⟨r, cs⟩ := t
      obtain heq | hmem := List.mem_cons.1 h
      · exact nomatch heq
      · obtain ⟨j, c, back, hc, hpath, hback⟩ := exists_of_mem_preorderAll hmem
        obtain ⟨rfl, rfl⟩ := List.cons.inj (Nat.zero_add j ▸ hpath)
        rw [at?_cons hc]
        exact ih hback
  -- and what a path leads to is the first of the functions that stand together there
  · intro h
    obtain ⟨before, after, heq, -⟩ := exists_preorder_eq_append h
    have hroot : ([], s) ∈ s.preorder := by
      rw [preorder_eq_cons]
      exact List.mem_cons_self
    rw [heq]
    exact List.mem_append_left _ (List.mem_append_right _
      (List.mem_map.2 ⟨([], s), hroot, Prod.ext (List.append_nil path) rfl⟩))

/-- The functions that come before the one that a path leads to. -/
def preceding (t : FunctionTree ρ) (path : List Nat) : List (List Nat × FunctionTree ρ) :=
  t.preorder.takeWhile fun x => x.1 ≠ path

/-- The functions of a tree are those before a function, the function with those inside it, and
those after them. -/
theorem preorder_eq_append {t s : FunctionTree ρ} {path : List Nat} (h : t.at? path = some s) :
    t.preorder = t.preceding path ++ s.preorder.map (fun (back, u) => (path ++ back, u)) ++
      t.preorder.drop ((t.preceding path).length + s.preorder.length) := by
  obtain ⟨before, after, heq, hbefore⟩ := exists_preorder_eq_append h
  -- up to the path nothing else has it
  have hpreceding : t.preceding path = before := by
    rw [preceding, heq, preorder_eq_cons, List.append_assoc,
      List.takeWhile_append_of_pos fun x hx => decide_eq_true (hbefore x hx), List.map_cons,
      List.cons_append, List.takeWhile_cons_of_neg (by simp), List.append_nil]
  have hdrop : t.preorder.drop (before.length + s.preorder.length) = after :=
    heq ▸ List.drop_left' (by rw [List.length_append, List.length_map])
  rw [hpreceding, hdrop, ← heq]

end FunctionTree

end LuaChunk
