import LuaChunk.Proofs.Streams

/-!
# When two closures are equal

Closures compare field by field, strings by content and floating-point numbers as numbers. So the
numbers and tables of string handles never matter, a NaN makes a closure differ from every closure,
itself included, and the sign of a zero is not seen. But for that, equality sees all that a dump
tells, and a dump tells all that equality sees.

## Key results

* `Binary64.numEq_iff`          when two numbers are equal
* `FunctionTree.isEqv_iff`      trees are equal if they are once every record is in normal form
* `Closure.same_iff`            closures are equal if they are once they are in normal form
* `Closure.equal_eq_same`       closures of handles compare as what the handles hold
* `Closure.equal_iff_dump_eq`   two closures that were loaded are equal if their normal forms are
  dumped alike and no constant is a NaN
-/

namespace LuaChunk

/-! ### Numbers -/

namespace Binary64

/-- The number zero. -/
def zero : Binary64 :=
  ⟨0⟩

/-- Zero with the sign bit set. -/
def negativeZero : Binary64 :=
  ⟨0x8000000000000000⟩

/-- A number in normal form: the one zero for both. -/
def normalize (x : Binary64) : Binary64 :=
  if x = negativeZero then zero else x

/-- There are two zeros, which differ in the sign bit. -/
theorem isZero_iff {x : Binary64} : x.isZero = true ↔ x = zero ∨ x = negativeZero := by
  obtain ⟨bits⟩ := x
  have hlt := bits.toNat_lt
  simp only [isZero, exponent, fraction, zero, negativeZero, mk.injEq, ← UInt64.toNat_inj,
    Bool.and_eq_true, decide_eq_true_eq, Nat.shiftRight_eq_div_pow, Nat.one_shiftLeft,
    UInt64.toNat_ofNat]
  -- all bits but the sign
  omega

/-- Both zeros have the one zero as their normal form. -/
theorem normalize_eq_zero_iff {x : Binary64} : x.normalize = zero ↔ x.isZero = true := by
  rw [isZero_iff, normalize]
  split
  · next h => simp [h]
  · next h => simp [h]

/-- A number that is no zero is its own normal form. -/
theorem normalize_of_not_isZero {x : Binary64} (h : x.isZero = false) : x.normalize = x := by
  apply if_neg
  rintro rfl
  exact nomatch h

/-- Two numbers are equal if neither is a NaN and their normal forms are the same. -/
theorem numEq_iff {x y : Binary64} :
    x.numEq y = true ↔ x.isNaN = false ∧ y.isNaN = false ∧ x.normalize = y.normalize := by
  have heq : (x == y || x.isZero && y.isZero) = true ↔ x.normalize = y.normalize := by
    rw [Bool.or_eq_true, Bool.and_eq_true, beq_iff_eq]
    constructor
    -- the same pattern, or two zeros
    · rintro (rfl | ⟨hx, hy⟩)
      · rfl
      · rw [normalize_eq_zero_iff.2 hx, normalize_eq_zero_iff.2 hy]
    · intro h
      -- if one is a zero, the other is one too
      by_cases hx : x.isZero = true
      · have hzero := normalize_eq_zero_iff.2 hx
        exact .inr ⟨hx, normalize_eq_zero_iff.1 (h.symm.trans hzero)⟩
      · -- what is no zero is its own normal form
        have hy : ¬y.isZero = true := fun hy =>
          hx (normalize_eq_zero_iff.1 (h.trans (normalize_eq_zero_iff.2 hy)))
        rw [Bool.not_eq_true] at hx hy
        rw [normalize_of_not_isZero hx, normalize_of_not_isZero hy] at h
        exact .inl h
  simp only [numEq, Bool.and_eq_true, Bool.not_eq_true', and_assoc, heq]

end Binary64

/-! ### Sequences and trees -/

section Lists

variable {α β : Type} {eq : α → α → Bool} {P : α → Prop} {f : α → β}

/-- Sequences compare as the sequences they are made from, if their entries do. -/
theorem isEqv_map {f : β → α} {eq' : β → β → Bool} {xs : List β}
    (h : ∀ x ∈ xs, ∀ y, eq (f x) (f y) = eq' x y) (ys : List β) :
    (xs.map f).isEqv (ys.map f) eq = xs.isEqv ys eq' := by
  induction xs generalizing ys with
  -- the other sequence is as short, or the two differ in length
  | nil => cases ys <;> rfl
  | cons x xs ih =>
    cases ys with
    | nil => rfl
    | cons y ys =>
      -- both begin with an entry, and the entries behind compare by induction
      have hx := h x List.mem_cons_self y
      have hxs := ih (fun x hx => h x (List.mem_cons_of_mem _ hx)) ys
      simp only [List.map_cons, List.isEqv, hx, hxs]

/-- Sequences compare by normal forms if their entries do. -/
theorem isEqv_iff {xs : List α} (h : ∀ x ∈ xs, ∀ y, eq x y = true ↔ P x ∧ P y ∧ f x = f y)
    (ys : List α) :
    xs.isEqv ys eq = true ↔ (∀ x ∈ xs, P x) ∧ (∀ y ∈ ys, P y) ∧ xs.map f = ys.map f := by
  induction xs generalizing ys with
  | nil => cases ys <;> simp [List.isEqv]
  | cons x xs ih =>
    cases ys with
    | nil => simp [List.isEqv]
    | cons y ys =>
      have hx := h x List.mem_cons_self y
      have hxs := ih (fun x hx => h x (List.mem_cons_of_mem _ hx)) ys
      simp only [List.isEqv, Bool.and_eq_true, hx, hxs, List.forall_mem_cons, List.map_cons,
        List.cons.injEq]
      -- the same facts on both sides, of the first entries and of the others
      constructor
      · rintro ⟨⟨hx, hy, hxy⟩, hxs, hys, hxys⟩
        exact ⟨⟨hx, hxs⟩, ⟨hy, hys⟩, hxy, hxys⟩
      · rintro ⟨⟨hx, hxs⟩, ⟨hy, hys⟩, hxy, hxys⟩
        exact ⟨⟨hx, hy, hxy⟩, hxs, hys, hxys⟩

end Lists

namespace FunctionTree

variable {ρ ρ' : Type}

mutual

/-- Equality of trees whose records compare by `eq`. -/
def isEqv (eq : ρ → ρ → Bool) : FunctionTree ρ → FunctionTree ρ → Bool
  | .node r cs, .node s ds => eq r s && isEqvAll eq cs ds

/-- Equality of lists of such trees. -/
def isEqvAll (eq : ρ → ρ → Bool) : List (FunctionTree ρ) → List (FunctionTree ρ) → Bool
  | [], [] => true
  | c :: cs, d :: ds => isEqv eq c d && isEqvAll eq cs ds
  | _, _ => false

end

/-- Trees compare by their records and then child by child. -/
theorem isEqv_node (eq : ρ → ρ → Bool) (r s : ρ) (cs ds : List (FunctionTree ρ)) :
    isEqv eq (.node r cs) (.node s ds) = (eq r s && cs.isEqv ds (isEqv eq)) := by
  -- the mutual recursion over the children is a comparison of two lists
  have hall : isEqvAll eq cs ds = cs.isEqv ds (isEqv eq) := by
    induction cs generalizing ds with
    | nil => cases ds <;> rfl
    | cons c cs ih =>
      cases ds with
      | nil => rfl
      | cons d ds => exact congrArg _ (ih ds)
  rw [isEqv, hall]

/-- Trees compare as the trees they are made from, if their records do. -/
theorem isEqv_mapRecords {f : ρ' → ρ} {eq : ρ → ρ → Bool} {eq' : ρ' → ρ' → Bool}
    (h : ∀ r s, eq (f r) (f s) = eq' r s) (p q : FunctionTree ρ') :
    isEqv eq (mapRecords f p) (mapRecords f q) = isEqv eq' p q := by
  induction p using FunctionTree.induction generalizing q with
  | node r cs ih =>
    obtain ⟨s, ds⟩ := q
    simp only [mapRecords_node, isEqv_node, h, isEqv_map ih]

/-- Trees compare by normal forms if their records do. -/
theorem isEqv_iff {eq : ρ → ρ → Bool} {P : ρ → Prop} {f : ρ → ρ'}
    (h : ∀ r s, eq r s = true ↔ P r ∧ P s ∧ f r = f s) (p q : FunctionTree ρ) :
    isEqv eq p q = true ↔
      All (fun r _ => P r) p ∧ All (fun r _ => P r) q ∧ mapRecords f p = mapRecords f q := by
  induction p using FunctionTree.induction generalizing q with
  | node r cs ih =>
    obtain ⟨s, ds⟩ := q
    rw [isEqv_node, Bool.and_eq_true, h, LuaChunk.isEqv_iff ih]
    simp only [all_node, mapRecords_node, node.injEq]
    constructor
    -- the same facts on both sides, of the records and of the children
    · rintro ⟨⟨hr, hs, hrs⟩, hcs, hds, hcds⟩
      exact ⟨⟨hr, hcs⟩, ⟨hs, hds⟩, hrs, hcds⟩
    · rintro ⟨⟨hr, hcs⟩, ⟨hs, hds⟩, hrs, hcds⟩
      exact ⟨⟨hr, hs, hrs⟩, hcs, hds, hcds⟩

end FunctionTree

namespace Prototype

open FunctionTree

mutual

/-- The equality of the library is the one that compares records. -/
theorem same_eq_isEqv : ∀ p q : Prototype Bytes, p.same q = isEqv FunctionRecord.same p q
  | .node r _, .node s _ => congrArg (r.same s && ·) (sameAll_eq_isEqvAll ..)

/-- The same holds of lists of functions. -/
theorem sameAll_eq_isEqvAll :
    ∀ cs ds : List (Prototype Bytes), sameAll cs ds = isEqvAll FunctionRecord.same cs ds
  | [], [] => rfl
  | c :: cs, d :: ds => congrArg₂ (· && ·) (same_eq_isEqv c d) (sameAll_eq_isEqvAll cs ds)
  | [], _ :: _ => rfl
  | _ :: _, [] => rfl

end

end Prototype

/-! ### Normal forms -/

namespace Constant

variable {σ : Type}

/-- Whether a constant is no NaN. -/
def NaNFree : Constant σ → Prop
  | float x => x.isNaN = false
  | _ => True

instance (k : Constant σ) : Decidable k.NaNFree :=
  match k with
  | float x => inferInstanceAs (Decidable (x.isNaN = false))
  | nil | boolean _ | integer _ | string _ => inferInstanceAs (Decidable True)

/-- A constant in normal form: no zero has a sign. -/
def normalize : Constant σ → Constant σ
  | float x => float x.normalize
  | k => k

/-- Constants are equal if neither is a NaN and they agree in normal form. -/
theorem same_iff (k l : Constant Bytes) :
    k.same l = true ↔ k.NaNFree ∧ l.NaNFree ∧ k.normalize = l.normalize := by
  cases k <;> cases l <;> simp [same, NaNFree, normalize, Binary64.numEq_iff]

end Constant

namespace FunctionRecord

variable {σ : Type}

/-- Whether no constant of a record is a NaN. -/
def NaNFree (r : FunctionRecord σ) : Prop :=
  ∀ k ∈ r.constants, k.NaNFree

instance (r : FunctionRecord σ) : Decidable r.NaNFree :=
  inferInstanceAs (Decidable (∀ k ∈ r.constants, k.NaNFree))

/-- A record with its constants in normal form. -/
def normalize (r : FunctionRecord σ) : FunctionRecord σ :=
  { r with constants := r.constants.map Constant.normalize }

/-- Records are equal if neither has a NaN and they agree in normal form. -/
theorem same_iff (r s : FunctionRecord Bytes) :
    r.same s = true ↔ r.NaNFree ∧ s.NaNFree ∧ r.normalize = s.normalize := by
  rw [same, Bool.and_eq_true, beq_iff_eq, isEqv_iff fun k _ l => Constant.same_iff k l]
  simp only [NaNFree, normalize, mk.injEq]
  -- the constants on the one hand, all other fields on the other
  grind

end FunctionRecord

namespace Prototype

open FunctionTree

variable {σ : Type}

/-- Whether no constant of a function and of the functions inside it is a NaN. -/
def NaNFree : Prototype σ → Prop :=
  All fun r _ => r.NaNFree

instance (p : Prototype σ) : Decidable p.NaNFree :=
  inferInstanceAs (Decidable (All (fun r _ => r.NaNFree) p))

/-- A function with all constants in normal form. -/
def normalize : Prototype σ → Prototype σ :=
  mapRecords FunctionRecord.normalize

/-- Functions are equal if neither has a NaN and they agree in normal form. -/
theorem same_iff (p q : Prototype Bytes) :
    p.same q = true ↔ p.NaNFree ∧ q.NaNFree ∧ p.normalize = q.normalize := by
  rw [same_eq_isEqv]
  exact FunctionTree.isEqv_iff FunctionRecord.same_iff p q

end Prototype

namespace Closure

variable {σ : Type}

/-- Whether no constant of a closure is a NaN. -/
def NaNFree (c : Closure σ) : Prop :=
  c.prototype.NaNFree

instance (c : Closure σ) : Decidable c.NaNFree :=
  inferInstanceAs (Decidable c.prototype.NaNFree)

/-- A closure with all constants in normal form. -/
def normalize (c : Closure σ) : Closure σ :=
  ⟨c.upvalueCount, c.prototype.normalize⟩

/-- Closures are equal if neither has a NaN and they agree in normal form. -/
theorem same_iff (c d : Closure Bytes) :
    c.same d = true ↔ c.NaNFree ∧ d.NaNFree ∧ c.normalize = d.normalize := by
  rw [same, Bool.and_eq_true, beq_iff_eq, Prototype.same_iff, normalize, normalize, mk.injEq]
  exact ⟨fun ⟨hcount, hc, hd, h⟩ => ⟨hc, hd, hcount, h⟩,
    fun ⟨hc, hd, hcount, h⟩ => ⟨hcount, hc, hd, h⟩⟩

end Closure

/-! ### Closures of handles -/

/-- Equality of constants whose strings are handles, which compare by content. -/
def Constant.equal : Constant StringHandle → Constant StringHandle → Bool
  | nil, nil => true
  | boolean x, boolean y => x == y
  | float x, float y => x.numEq y
  | integer x, integer y => x == y
  | string x, string y => x.same y
  | _, _ => false

/-- Equality of records whose strings are handles. -/
def FunctionRecord.equal (r s : FunctionRecord StringHandle) : Bool :=
  ({ r with constants := [] } : FunctionRecord StringHandle) == { s with constants := [] }
    && r.constants.isEqv s.constants Constant.equal

/-- Equality of functions whose strings are handles. -/
def Prototype.equal : Prototype StringHandle → Prototype StringHandle → Bool :=
  FunctionTree.isEqv FunctionRecord.equal

/-- Equality of closures whose strings are handles. -/
def Closure.equal (c d : Closure StringHandle) : Bool :=
  c.upvalueCount == d.upvalueCount && c.prototype.equal d.prototype

/-- Constants of handles compare as what the handles hold. -/
theorem Constant.same_map_content (k l : Constant StringHandle) :
    (k.map StringHandle.content).same (l.map StringHandle.content) = k.equal l := by
  cases k <;> cases l <;> simp [map, same, equal, StringHandle.same]

/-- Records of handles compare as what the handles hold. -/
theorem FunctionRecord.same_map_content (r s : FunctionRecord StringHandle) :
    (r.map StringHandle.content).same (s.map StringHandle.content) = r.equal s := by
  -- the constants compare one by one
  have hconstants : (r.map StringHandle.content).constants.isEqv
      (s.map StringHandle.content).constants Constant.same =
        r.constants.isEqv s.constants Constant.equal :=
    isEqv_map (fun k _ l => Constant.same_map_content k l) _
  -- the other fields are the same in both
  have hfields : (({ r.map StringHandle.content with constants := [] } : FunctionRecord Bytes) ==
      { s.map StringHandle.content with constants := [] }) =
        (({ r with constants := [] } : FunctionRecord StringHandle) ==
          { s with constants := [] }) := by
    rw [Bool.eq_iff_iff, beq_iff_eq, beq_iff_eq, mk.injEq, mk.injEq]
    simp only [map]
  rw [same, equal, hconstants, hfields]

/-- Functions of handles compare as what the handles hold. -/
theorem Prototype.same_map_content (p q : Prototype StringHandle) :
    (p.map StringHandle.content).same (q.map StringHandle.content) = p.equal q := by
  rw [same_eq_isEqv]
  exact FunctionTree.isEqv_mapRecords FunctionRecord.same_map_content p q

/-- Closures of handles compare as what the handles hold. -/
theorem Closure.equal_eq_same (c d : Closure StringHandle) :
    c.equal d = c.contents.same d.contents :=
  congrArg _ (Prototype.same_map_content c.prototype d.prototype).symm

/-- Replacing strings makes no constant a NaN, and takes none away. -/
theorem Constant.nanFree_map {σ τ : Type} (f : σ → τ) (k : Constant σ) :
    (k.map f).NaNFree ↔ k.NaNFree := by
  cases k <;> exact Iff.rfl

theorem FunctionRecord.nanFree_map {σ τ : Type} (f : σ → τ) (r : FunctionRecord σ) :
    (r.map f).NaNFree ↔ r.NaNFree := by
  simp only [NaNFree, map, List.forall_mem_map, Constant.nanFree_map]

/-- A closure has a NaN if and only if its contents have one. -/
theorem Closure.nanFree_contents {c : Closure StringHandle} :
    c.contents.NaNFree ↔ c.NaNFree := by
  simp only [NaNFree, Prototype.NaNFree, contents, map, Prototype.map,
    FunctionTree.all_mapRecords, FunctionRecord.nanFree_map]

/-- It makes no difference whether strings are replaced before numbers are brought into normal form
or after. -/
theorem FunctionRecord.map_normalize {σ τ : Type} (f : σ → τ) (r : FunctionRecord σ) :
    r.normalize.map f = (r.map f).normalize := by
  have hconstant : ∀ k : Constant σ, k.normalize.map f = (k.map f).normalize := by
    intro k
    cases k <;> rfl
  simp only [normalize, map, List.map_map, Function.comp_def, hconstant]

/-- The contents of a normal form are the normal form of the contents. -/
theorem Closure.contents_normalize (c : Closure StringHandle) :
    c.normalize.contents = c.contents.normalize := by
  simp only [contents, normalize, map, Prototype.map, Prototype.normalize,
    FunctionTree.mapRecords_mapRecords, FunctionRecord.map_normalize]

/-! ### Normal forms are dumped -/

theorem StoredConstant.Writable.normalize {k : Constant Bytes} (h : Writable k) :
    Writable k.normalize := by
  cases k <;> exact h

/-- A record in normal form can be written if the record can. -/
theorem FunctionRecord.Writable.normalize {r : FunctionRecord Bytes} {n : Nat} (h : r.Writable n) :
    r.normalize.Writable n :=
  { h with
    constants := by
      show (r.constants.map _).length < _
      rw [List.length_map]
      exact h.constants
    constant := List.forall_mem_map.2 fun k hk => (h.constant k hk).normalize }

/-- A closure in normal form can be written if the closure can. -/
theorem Closure.WellFormed.normalize {c : Closure Bytes} (h : c.WellFormed) :
    c.normalize.WellFormed where
  writable := FunctionTree.all_mapRecords.2 (h.writable.mono fun _ _ hr => hr.normalize)
  sources := (Prototype.sourcesResolved_mapRecords (f := FunctionRecord.normalize)
    fun _ => rfl).2 h.sources
  upvalueCount := by
    rw [Closure.normalize, Prototype.normalize, FunctionTree.record_mapRecords]
    exact h.upvalueCount

/-- A closure that was loaded can be written and read back. -/
theorem Closure.Loaded.wellFormed {c : Closure StringHandle} (h : c.Loaded) :
    c.contents.WellFormed := by
  obtain ⟨options, table, name, bs, hlen, hload⟩ := h
  exact wellFormed_of_load hlen hload

/-- Closures of handles are equal if neither has a NaN and their contents agree in normal form. -/
theorem Closure.equal_iff (c d : Closure StringHandle) :
    c.equal d = true ↔
      c.NaNFree ∧ d.NaNFree ∧ c.contents.normalize = d.contents.normalize := by
  rw [equal_eq_same, same_iff, nanFree_contents, nanFree_contents]

/-- Two closures that were loaded, be it with different tables, are equal if and only if neither has
a constant that is a NaN and their normal forms have the same dump; the handles of their strings
matter only for what they hold. A closure is equal to what its dump loads to if and only if it has
no constant that is a NaN. -/
theorem equal_iff_dump_eq (x y : Closure StringHandle) (hx : x.Loaded) (hy : y.Loaded) :
    (∃ dumpX dumpY, dump x.normalize.contents false = .ok dumpX ∧
      dump y.normalize.contents false = .ok dumpY ∧
      (x.equal y = true ↔ x.NaNFree ∧ y.NaNFree ∧ dumpX = dumpY)) ∧
    x.equal y = x.contents.same y.contents ∧
    ∃ dumped, dump x.contents false = .ok dumped ∧
      ∀ (options : LoadOptions) table name, options.keepDebug = true →
        x.prototype.height ≤ options.maxDepth →
          ∃ again, (load options table name dumped).outcome = .ok again ∧
            (x.equal again = true ↔ x.NaNFree) := by
  have hnormalX := hx.wellFormed.normalize
  have hnormalY := hy.wellFormed.normalize
  obtain ⟨dumpX, hdumpX, -⟩ := load_dump hnormalX false
  obtain ⟨dumpY, hdumpY, -⟩ := load_dump hnormalY false
  -- a dump tells all of a normal form
  have hdumps : dumpX = dumpY ↔ x.contents.normalize = y.contents.normalize := by
    constructor
    · rintro rfl
      exact eq_of_dump_eq hnormalX hnormalY false (hdumpX.trans hdumpY.symm)
    · intro h
      rw [h, hdumpY] at hdumpX
      exact (Except.ok.inj hdumpX).symm
  refine ⟨⟨dumpX, dumpY, ?_, ?_, ?_⟩, Closure.equal_eq_same x y, ?_⟩
  -- the normal form of the contents is what is dumped
  · rwa [x.contents_normalize]
  · rwa [y.contents_normalize]
  · rw [hdumps, Closure.equal_iff]
  -- the dump of the closure itself, loaded again
  · obtain ⟨dumped, hdump, hagain⟩ := load_dump hx.wellFormed false
    refine ⟨dumped, hdump, fun options table name hkeep hheight => ?_⟩
    rw [← x.height_contents] at hheight
    obtain ⟨again, hload, hcontents⟩ := hagain options table name hheight
    rw [LoadOptions.keep, if_pos hkeep, if_neg Bool.false_ne_true] at hcontents
    refine ⟨again, hload, ?_⟩
    -- the closure that is loaded holds the same as the one that was dumped
    rw [Closure.equal_iff, ← Closure.nanFree_contents (c := again), hcontents,
      Closure.nanFree_contents]
    exact ⟨And.left, fun h => ⟨h, h, rfl⟩⟩

/-- A chunk with a number and a string. -/
def StoredChunk.constants (number : Binary64) : StoredChunk where
  upvalueCount := 0
  main := .node
    { source := ⟨none, false⟩
      lineDefined := 0
      lastLineDefined := 0
      numParams := 0
      isVararg := 0
      maxStackSize := 2
      code := []
      constants := [.float number, .string false ⟨some [0x6B], false⟩]
      upvalues := []
      lineInfo := []
      locals := []
      upvalueNames := [] }
    []

/-- The two zeros, loaded with two tables of which one has had another string before. -/
theorem equal_iff_dump_eq_zeros :
    let table := StringTable.empty 0
    let table' := ((StringTable.empty 1).intern [0x61]).2
    let zero := StoredChunk.constants .zero
    let negativeZero := StoredChunk.constants .negativeZero
    let x := zero.closure.map (table.internAll zero.strings).handle
    let y := negativeZero.closure.map (table'.internAll negativeZero.strings).handle
    x.Loaded ∧ y.Loaded ∧ x.equal y = true ∧ x.contents.same y.contents = true := by
  intro table table' zero negativeZero x y
  have hload : ∀ (table : StringTable) {chunk : StoredChunk}, (Form.chunk 200).Fits chunk →
      chunk.bytes.length < 2 ^ 31 →
        (chunk.closure.map (table.internAll chunk.strings).handle).Loaded := by
    intro table chunk hfits hlen
    have hload := outcome_load_append {} table "sample" hfits []
    rw [List.append_nil] at hload
    exact ⟨{}, table, "sample", chunk.bytes, hlen, hload⟩
  have hx : x.Loaded := hload table (by decide) (by decide +kernel)
  have hy : y.Loaded := hload table' (by decide) (by decide +kernel)
  obtain ⟨⟨dumpX, dumpY, hdumpX, hdumpY, hequal⟩, hsame, -⟩ := equal_iff_dump_eq x y hx hy
  -- the two zeros have one normal form, so the two dumps are the same
  have hnormal : x.normalize.contents = y.normalize.contents := by
    rw [x.contents_normalize, y.contents_normalize, Closure.contents_map_handle,
      Closure.contents_map_handle]
    rfl
  have hdumps : dumpX = dumpY := by
    rw [hnormal, hdumpY] at hdumpX
    exact (Except.ok.inj hdumpX).symm
  have hfree : x.NaNFree ∧ y.NaNFree := by
    rw [← Closure.nanFree_contents, ← Closure.nanFree_contents, Closure.contents_map_handle,
      Closure.contents_map_handle]
    decide
  have h := hequal.2 ⟨hfree.1, hfree.2, hdumps⟩
  exact ⟨hx, hy, h, hsame.symm.trans h⟩

end LuaChunk
