import LuaChunk.Proofs.Loading

/-!
# Where the records of a chunk begin and end

The function records of a chunk in the order in which they end: those inside a record, first to
last, and then the record itself. `offsetAt` is where the record begins that a path leads to. A
chunk that is cut short still has its first complete records, those that end in front of the cut.

Nothing here refers to how a chunk is read.

## Key results

* `mem_postorder`       every function is listed once for the path that leads to it
* `isPrefix_offsetAt`   the bytes of a record stand where `offsetAt` says
* `offsetAt_lt`         a record begins before the records inside it
* `offsetAt_sibling`    and behind the records that stand before it in the same record
* `recordEnds_node`     the records of a tree are those of its children, then its own
-/

namespace LuaChunk

/-! ### Children before parents -/

namespace FunctionTree

variable {ρ ρ' : Type}

mutual

/-- Every function of a tree with the path that leads to it: children in order, then their
parent. -/
def postorder : FunctionTree ρ → List (List Nat × FunctionTree ρ)
  | .node r cs => postorderAll 0 cs ++ [([], .node r cs)]

/-- The functions of several trees, one tree after the other; the first is the child `index`. -/
def postorderAll (index : Nat) : List (FunctionTree ρ) → List (List Nat × FunctionTree ρ)
  | [] => []
  | t :: ts =>
    (postorder t).map (fun (path, s) => (index :: path, s)) ++ postorderAll (index + 1) ts

end

/-- What is listed of several trees is listed of one of them, whose number begins the path. -/
theorem mem_postorderAll {index : Nat} {ts : List (FunctionTree ρ)} {path : List Nat}
    {s : FunctionTree ρ} :
    (path, s) ∈ postorderAll index ts ↔
      ∃ i t back, ts[i]? = some t ∧ path = (index + i) :: back ∧ (back, s) ∈ postorder t := by
  induction ts generalizing index with
  | nil => simp [postorderAll]
  | cons t ts ih =>
    rw [postorderAll, List.mem_append, ih, List.mem_map]
    constructor
    · rintro (⟨⟨back, s'⟩, hmem, heq⟩ | ⟨i, t', back, ht', rfl, hmem⟩)
      -- in the first tree
      · obtain ⟨rfl, rfl⟩ := Prod.mk.inj heq
        exact ⟨0, t, back, rfl, rfl, hmem⟩
      -- in one of the others, which are numbered on
      · exact ⟨i + 1, t', back, ht', by rw [Nat.add_right_comm, Nat.add_assoc], hmem⟩
    · rintro ⟨i, t', back, ht', rfl, hmem⟩
      cases i with
      | zero =>
        obtain rfl := Option.some.inj ht'
        exact .inl ⟨(back, s), hmem, rfl⟩
      | succ i => exact .inr ⟨i, t', back, ht', by rw [Nat.add_right_comm, Nat.add_assoc], hmem⟩

/-- What is listed are the paths that lead to a function, each with the function. -/
theorem mem_postorder {t s : FunctionTree ρ} {path : List Nat} :
    (path, s) ∈ postorder t ↔ t.at? path = some s := by
  induction path generalizing t with
  -- the empty path leads to the root, which is listed last
  | nil =>
    obtain ⟨r, cs⟩ := t
    simp [postorder, mem_postorderAll, at?, eq_comm]
  | cons i path ih =>
    obtain ⟨r, cs⟩ := t
    rw [postorder, List.mem_append, mem_postorderAll, at?_cons_eq_some]
    simp only [Nat.zero_add, List.cons.injEq, List.mem_singleton, Prod.mk.injEq, List.cons_ne_nil,
      false_and, or_false]
    constructor
    -- a function in a child is listed with the child's place in front of its path
    · rintro ⟨_, c, _, hc, ⟨rfl, rfl⟩, hmem⟩
      exact ⟨c, hc, ih.1 hmem⟩
    · rintro ⟨c, hc, hs⟩
      exact ⟨i, c, path, hc, ⟨rfl, rfl⟩, ih.2 hs⟩

/-- A tree lists as many functions as it has. -/
theorem length_postorder (t : FunctionTree ρ) : (postorder t).length = t.count := by
  induction t using FunctionTree.induction with
  | node r cs ih =>
    -- the children together, whichever place the first of them has
    have hall : ∀ index, (postorderAll index cs).length + 1 = (cs.map count).foldr (· + ·) 1 := by
      induction cs with
      | nil => intro index; rfl
      | cons c cs ihcs =>
        intro index
        have hc := ih c List.mem_cons_self
        have hcs := ihcs (fun d hd => ih d (List.mem_cons_of_mem _ hd)) (index + 1)
        simp only [postorderAll, List.length_append, List.length_map, List.map_cons,
          List.foldr_cons]
        omega
    rw [postorder, count_node, List.length_append]
    exact hall 0

/-- Changing the records of a tree changes those of the functions that are listed. -/
theorem postorder_mapRecords (f : ρ → ρ') (t : FunctionTree ρ) :
    postorder (mapRecords f t) = (postorder t).map fun (path, s) => (path, mapRecords f s) := by
  induction t using FunctionTree.induction with
  | node r cs ih =>
    -- the children together, as before
    have hall : ∀ index, postorderAll index (cs.map (mapRecords f)) =
        (postorderAll index cs).map fun (path, s) => (path, mapRecords f s) := by
      induction cs with
      | nil => intro index; rfl
      | cons c cs ihcs =>
        intro index
        have hc := ih c List.mem_cons_self
        have hcs := ihcs (fun d hd => ih d (List.mem_cons_of_mem _ hd)) (index + 1)
        simp only [List.map_cons, postorderAll, hc, hcs, List.map_append, List.map_map]
        rfl
    rw [mapRecords_node, postorder, postorder, hall, List.map_append, ← mapRecords_node]
    rfl

end FunctionTree

/-! ### Where records begin -/

namespace StoredFunction

open FunctionTree

/-- Where the child `i` of a record that begins at `start` begins. -/
def childOffset (start : Nat) (t : StoredFunction) (i : Nat) : Nat :=
  start + t.record.headBytes.length + 4 + ((t.children.take i).flatMap bytes).length

/-- Where the record begins that a path leads to, if the whole begins at `start`. -/
def offsetAt (start : Nat) (t : StoredFunction) : List Nat → Nat
  | [] => start
  | i :: path =>
    match t.children[i]? with
    | some c => offsetAt (t.childOffset start i) c path
    | none => t.childOffset start i

/-- A path leads on from where the child begins. -/
theorem offsetAt_cons {t c : StoredFunction} {i : Nat} (hc : t.children[i]? = some c)
    (start : Nat) (path : List Nat) :
    offsetAt start t (i :: path) = offsetAt (childOffset start t i) c path := by
  rw [offsetAt, hc]

@[simp] theorem offsetAt_singleton (start : Nat) (t : StoredFunction) (i : Nat) :
    offsetAt start t [i] = childOffset start t i := by
  rw [offsetAt]
  split <;> rfl

/-- A path leads on from where its front leads to. -/
theorem offsetAt_append {t s : StoredFunction} {path : List Nat} (hs : t.at? path = some s)
    (start : Nat) (back : List Nat) :
    offsetAt start t (path ++ back) = offsetAt (offsetAt start t path) s back := by
  induction path generalizing t start with
  | nil =>
    obtain rfl := Option.some.inj hs
    rfl
  | cons i path ih =>
    obtain ⟨c, hc, hs⟩ := at?_cons_eq_some.1 hs
    rw [List.cons_append, offsetAt_cons hc, offsetAt_cons hc, ih hs]

/-- A child begins behind the head of its record. -/
theorem lt_childOffset (start : Nat) (t : StoredFunction) (i : Nat) :
    start < childOffset start t i := by
  unfold childOffset
  omega

/-- Nothing inside a record begins before it. -/
theorem le_offsetAt (start : Nat) (t : StoredFunction) (path : List Nat) :
    start ≤ offsetAt start t path := by
  induction path generalizing t start with
  | nil => exact Nat.le_refl _
  | cons i path ih =>
    -- a child begins behind the head of the record
    have hlt := lt_childOffset start t i
    rw [offsetAt]
    split
    · exact Nat.le_trans (Nat.le_of_lt hlt) (ih _ _)
    · exact Nat.le_of_lt hlt

/-- A record begins before the records inside it. -/
theorem offsetAt_lt {t s : StoredFunction} {path : List Nat} (hs : t.at? path = some s)
    (start i : Nat) (back : List Nat) :
    offsetAt start t path < offsetAt start t (path ++ i :: back) := by
  have hlt := lt_childOffset (offsetAt start t path) s i
  rw [offsetAt_append hs, offsetAt]
  split
  · exact Nat.lt_of_lt_of_le hlt (le_offsetAt _ _ _)
  · exact hlt

/-- The next child begins where a child ends. -/
theorem childOffset_succ {t c : StoredFunction} {i : Nat} (hc : t.children[i]? = some c)
    (start : Nat) : childOffset start t (i + 1) = childOffset start t i + (bytes c).length := by
  simp only [childOffset, List.take_add_one, hc, Option.toList_some, List.flatMap_append,
    List.flatMap_cons, List.flatMap_nil, List.append_nil, List.length_append]
  omega

/-- Children begin in their order. -/
theorem childOffset_mono (start : Nat) (t : StoredFunction) {i j : Nat} (hle : i ≤ j) :
    childOffset start t i ≤ childOffset start t j := by
  obtain ⟨more, hmore⟩ := List.take_prefix_take_left (l := t.children) hle
  simp only [childOffset, ← hmore, List.flatMap_append, List.length_append]
  omega

/-- A record ends before the next one in the same record begins. -/
theorem offsetAt_sibling {t s : StoredFunction} {path : List Nat} {i j : Nat}
    (hs : t.at? (path ++ [i]) = some s) (hlt : i < j) (start : Nat) :
    offsetAt start t (path ++ [i]) + (bytes s).length ≤ offsetAt start t (path ++ [j]) := by
  -- both records are children of one, whose child on the left ends where the next begins
  rw [at?_append, Option.bind_eq_some_iff] at hs
  obtain ⟨parent, hparent, hs⟩ := hs
  obtain ⟨c, hc, hs⟩ := at?_cons_eq_some.1 hs
  obtain rfl := Option.some.inj hs
  rw [offsetAt_append hparent, offsetAt_append hparent, offsetAt_singleton, offsetAt_singleton,
    ← childOffset_succ hc]
  exact childOffset_mono _ parent hlt

/-- The bytes of a child stand where it begins. -/
theorem isPrefix_childOffset {t c : StoredFunction} {i : Nat} (hc : t.children[i]? = some c)
    {bs : Bytes} {start : Nat} (h : bytes t <+: bs.drop start) :
    bytes c <+: bs.drop (childOffset start t i) := by
  obtain ⟨r, cs⟩ := t
  obtain ⟨rest, hrest⟩ := h
  have hc : cs[i]? = some c := hc
  have hcs : cs.flatMap bytes =
      (cs.take i).flatMap bytes ++ (bytes c ++ (cs.drop (i + 1)).flatMap bytes) := by
    -- the children in front of this one, this one, and those behind it
    obtain ⟨hi, rfl⟩ := List.getElem?_eq_some_iff.1 hc
    rw [← List.flatMap_cons, ← List.drop_eq_getElem_cons hi, ← List.flatMap_append,
      List.take_append_drop]
  -- what stands in front of the child, from where the record begins
  let front := r.headBytes ++ Bytes.leBytes 4 cs.length ++ (cs.take i).flatMap bytes
  have hoffset : childOffset start (.node r cs) i = start + front.length := by
    simp only [childOffset, front, record, children, List.length_append, Bytes.length_leBytes,
      Nat.add_assoc]
  have hbytes : bytes (.node r cs) = front ++ (bytes c ++
      ((cs.drop (i + 1)).flatMap bytes ++ r.debugBytes)) := by
    rw [bytes_node 0 0]
    simp only [front, Form.counted, Form.list, Form.function, List.append_assoc, hcs]
  rw [hoffset, ← List.drop_drop, ← hrest, hbytes, List.append_assoc, List.drop_left,
    List.append_assoc]
  exact List.prefix_append _ _

/-- The bytes of a record stand where it begins. -/
theorem isPrefix_offsetAt {t s : StoredFunction} {path : List Nat} (hs : t.at? path = some s)
    {bs : Bytes} {start : Nat} (h : bytes t <+: bs.drop start) :
    bytes s <+: bs.drop (offsetAt start t path) := by
  induction path generalizing t start with
  | nil =>
    obtain rfl := Option.some.inj hs
    exact h
  | cons i path ih =>
    obtain ⟨c, hc, hs⟩ := at?_cons_eq_some.1 hs
    rw [offsetAt_cons hc]
    exact ih hs (isPrefix_childOffset hc h)

end StoredFunction

/-! ### Ends of records -/

/-- Function records in the order in which they end, each with the offset behind its last byte. -/
abbrev RecordEnds := List (Nat × RecordSummary)

/-- The records that end at `limit` or before. -/
def RecordEnds.within (limit : Nat) (ends : RecordEnds) : List RecordSummary :=
  (ends.filter (·.1 ≤ limit)).map (·.2)

/-- What there is of several forms that stand one after the other, in order. -/
def Form.eachAt {α β γ : Type} (F : Form β α) (f : Nat → β → List γ) : Nat → List β → List γ
  | _, [] => []
  | start, s :: ss => f start s ++ F.eachAt f (start + (F.bytes s).length) ss

namespace StoredFunction

open FunctionTree

/-- What is told of a record that begins at `offset`. -/
def summary (offset depth : Nat) (t : StoredFunction) : RecordSummary where
  offset
  depth
  lineDefined := t.record.lineDefined
  instructions := t.record.code.length
  constants := t.record.constants.length

/-- The ends of a record that begins at `start` and of the records inside it; `depth` is the depth
of the whole. -/
def recordEnds (depth start : Nat) (t : StoredFunction) : RecordEnds :=
  t.postorder.map fun (path, s) =>
    let offset := offsetAt start t path
    (offset + (bytes s).length, summary offset (depth + path.length) s)

/-- The records of a tree are those of its children, then its own. -/
theorem recordEnds_node (depth room start : Nat) (r : StoredRecord) (cs : List StoredFunction) :
    recordEnds depth start (.node r cs) =
      (Form.function (depth + 1) room).eachAt (recordEnds (depth + 1))
          (start + r.headBytes.length + 4) cs
        ++ [(start + (bytes (.node r cs)).length, summary start depth (.node r cs))] := by
  -- the children are taken one by one, those in front only for where the others begin
  have hall : ∀ front back, cs = front ++ back →
      ((postorderAll front.length back).map fun (path, s) =>
        (offsetAt start (.node r cs) path + (bytes s).length,
          summary (offsetAt start (.node r cs) path) (depth + path.length) s)) =
      (Form.function (depth + 1) room).eachAt (recordEnds (depth + 1))
        (childOffset start (.node r cs) front.length) back := by
    intro front back hcs
    induction back generalizing front with
    | nil => rfl
    -- the children behind this one begin where it ends
    | cons c back ih =>
      have hc : (FunctionTree.node r cs).children[front.length]? = some c := by
        simp [children, hcs]
      have hrest := ih (front ++ [c]) (by rw [hcs, List.append_assoc]; rfl)
      rw [List.length_append, List.length_singleton, childOffset_succ hc] at hrest
      rw [postorderAll, List.map_append, hrest, List.map_map, Form.eachAt]
      congr 1
      refine List.map_congr_left fun found _ => ?_
      obtain ⟨path, s⟩ := found
      simp only [Function.comp_apply, offsetAt_cons hc, List.length_cons, Nat.add_assoc,
        Nat.add_comm 1]
  have hchildren := hall [] cs rfl
  rw [recordEnds, postorder, List.map_append]
  exact congrArg (· ++ _) hchildren

end StoredFunction

/-- The function records of a chunk that end within its first `n` bytes. -/
def StoredChunk.recordsWithin (chunk : StoredChunk) (n : Nat) : List RecordSummary :=
  (chunk.main.recordEnds 0 (Header.bytes.length + 1)).within n

end LuaChunk
