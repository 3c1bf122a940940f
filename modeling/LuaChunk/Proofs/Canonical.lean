import LuaChunk.Proofs.RoundTrip

/-!
# Canonical chunks

A stored form is canonical if every choice that the grammar leaves open has been made as the writer
makes it. What a form stands for is written as that very form if and only if it is canonical, phrase
by phrase, and hence a buffer is the dump of what it loads to if and only if it is a canonical chunk
with nothing behind it.

## Key results

* `ofRecord_value_iff`       a record is written as it was stored
* `ofPrototype_elide_iff`    a tree of records is written as it was stored
* `dump_eq_iff_canonical`    a buffer is dumped as it was
-/

namespace LuaChunk

/-! ### Strings and truth values -/

/-- Whether the size of a string takes one byte if it can. -/
def StoredString.Canonical (s : StoredString) : Prop :=
  match s.content with
  | none => s.escaped = false
  | some content => s.escaped = true ↔ 254 ≤ content.length

/-- A string is written as it was stored if and only if it is canonical. -/
theorem StoredString.ofContent_content_iff {s : StoredString} :
    ofContent s.content = s ↔ s.Canonical := by
  obtain ⟨content, escaped⟩ := s
  cases content <;> cases escaped <;> simp [ofContent, Canonical]

/-- Whether a truth value is 0 or 1. -/
def CanonicalTruth (b : UInt8) : Prop :=
  b = 0 ∨ b = 1

instance (b : UInt8) : Decidable (CanonicalTruth b) :=
  inferInstanceAs (Decidable (b = 0 ∨ b = 1))

/-- A truth value is written as it was stored if and only if it is 0 or 1. -/
theorem truthByte_value_iff {b : UInt8} :
    Form.truthByte (Form.truth.value b) = b ↔ CanonicalTruth b := by
  show (if (b != 0) = true then 1 else 0) = b ↔ b = 0 ∨ b = 1
  by_cases hzero : b = 0
  -- false is written as it was stored
  · simp [hzero]
  · -- any other byte is true, and true is written as 1
    have htrue : (b != 0) = true := by simpa using hzero
    rw [if_pos htrue]
    constructor
    · exact fun h => .inr h.symm
    · rintro (h | h)
      · exact absurd h hzero
      · exact h.symm

/-! ### Constants, upvalues and local variables -/

/-- Whether a constant is canonical: a string is present, and its tag is that of its length. -/
def StoredConstant.Canonical : StoredConstant → Prop
  | .boolean b => CanonicalTruth b
  | .string long s =>
    s.Canonical ∧ ∃ content, s.content = some content ∧
      (long = true ↔ Constant.maxShortLength < content.length)
  | _ => True

/-- A constant is written as it was stored if and only if it is canonical. -/
theorem StoredConstant.ofConstant_value_iff {k : StoredConstant} :
    ofConstant (Form.constant.value k) = k ↔ k.Canonical := by
  cases k with
  | boolean b =>
    show StoredConstant.boolean _ = .boolean b ↔ CanonicalTruth b
    rw [StoredConstant.boolean.injEq, truthByte_value_iff]
  -- a number is stored in four bytes, to which it can always go back
  | integer i =>
    show StoredConstant.integer i.toInt64.toInt32 = .integer i ↔ True
    rw [Int32.toInt32_toInt64, eq_self]
  | string long s =>
    obtain ⟨content, escaped⟩ := s
    cases content with
    | none =>
      -- it is written as an empty string, which is present
      simp [ofConstant, Form.constant, StoredString.ofContent, Canonical]
    | some bs =>
      -- its tag is the one that is written if it goes by the length
      have hstring := StoredString.ofContent_content_iff (s := ⟨some bs, escaped⟩)
      have hlong : decide (Constant.maxShortLength < bs.length) = long ↔
          (long = true ↔ Constant.maxShortLength < bs.length) := by
        cases long <;> simp
      show StoredConstant.string (decide (Constant.maxShortLength < bs.length))
          (.ofContent (some bs)) = .string long ⟨some bs, escaped⟩ ↔
        StoredString.Canonical ⟨some bs, escaped⟩ ∧ ∃ content, some bs = some content ∧
          (long = true ↔ Constant.maxShortLength < content.length)
      rw [StoredConstant.string.injEq, hlong, and_comm, and_congr_left' hstring]
      simp
  | _ => exact ⟨fun _ => trivial, fun _ => rfl⟩

/-- Whether an upvalue is canonical. -/
def StoredUpvalue.Canonical (u : StoredUpvalue) : Prop :=
  CanonicalTruth u.inStack

/-- An upvalue is written as it was stored if and only if it is canonical, whatever its name. -/
theorem StoredUpvalue.ofUpvalue_value_iff {u : StoredUpvalue} {name : Option Bytes} :
    ofUpvalue { Form.upvalue.value u with name } = u ↔ u.Canonical := by
  obtain ⟨inStack, index⟩ := u
  show StoredUpvalue.mk (Form.truthByte (Form.truth.value inStack)) index = ⟨inStack, index⟩ ↔
    CanonicalTruth inStack
  rw [StoredUpvalue.mk.injEq, truthByte_value_iff, eq_self, and_true]

/-- Whether a local variable is canonical: its name is present. -/
def StoredLocal.Canonical (v : StoredLocal) : Prop :=
  v.name.Canonical ∧ v.name.content ≠ none

/-- A local variable is written as it was stored if and only if it is canonical. -/
theorem StoredLocal.ofLocal_value_iff {v : StoredLocal} :
    ofLocal (Form.localVariable.value v) = v ↔ v.Canonical := by
  obtain ⟨⟨content, escaped⟩, startPc, endPc⟩ := v
  cases content with
  | none =>
    -- the name is written as an empty one, which is present
    simp [ofLocal, Form.localVariable, StoredString.ofContent, Canonical]
  | some bs =>
    have hname := StoredString.ofContent_content_iff (s := ⟨some bs, escaped⟩)
    show StoredLocal.mk (.ofContent (some bs)) startPc endPc =
        ⟨⟨some bs, escaped⟩, startPc, endPc⟩ ↔
      StoredString.Canonical ⟨some bs, escaped⟩ ∧ some bs ≠ none
    rw [StoredLocal.mk.injEq, ← hname]
    simp

/-! ### Function records -/

/-- Whether a record inside a function of source `parent` is canonical: its source is absent if it
is that of the parent and not empty otherwise, every upvalue has an entry for its name, and its
parts are canonical. -/
structure StoredRecord.Canonical (parent : Option Bytes) (r : StoredRecord) : Prop where
  source : r.source.Canonical
  source_eq_none_iff : r.source.content = none ↔ r.resolvedSource parent = parent
  source_ne_empty : r.source.content ≠ some []
  isVararg : CanonicalTruth r.isVararg
  constants : ∀ k ∈ r.constants, k.Canonical
  upvalues : ∀ u ∈ r.upvalues, u.Canonical
  locals : ∀ v ∈ r.locals, v.Canonical
  upvalueNames : ∀ s ∈ r.upvalueNames, s.Canonical
  length_upvalueNames : r.upvalueNames.length = r.upvalues.length

/-- A function leaves a list as it is if and only if it leaves each entry as it is. -/
theorem map_eq_self_iff {α : Type} {f : α → α} {xs : List α} :
    xs.map f = xs ↔ ∀ x ∈ xs, f x = x := by
  have h := List.map_inj_left (f := f) (g := id) (l := xs)
  rwa [List.map_id] at h

namespace StoredRecord

variable {r : StoredRecord} {parent : Option Bytes}

/-- What is written for a source is what was stored. An empty source is written as an absent one,
and so is one that repeats the source of the parent. -/
theorem ofContent_source_iff :
    StoredString.ofContent
        (if r.resolvedSource parent = parent then none else r.resolvedSource parent) = r.source ↔
      r.source.Canonical ∧ (r.source.content = none ↔ r.resolvedSource parent = parent) ∧
        r.source.content ≠ some [] := by
  have hcanonical := StoredString.ofContent_content_iff (s := r.source)
  have hne : ∀ content, content ≠ r.source.content → StoredString.ofContent content ≠ r.source :=
    fun content hne h => hne (congrArg StoredString.content h)
  rcases hsource : r.source.content with _ | _ | ⟨b, bs⟩
  -- an absent source is that of the parent, and written as it was
  · have hresolved : r.resolvedSource parent = parent := by simp [resolvedSource, hsource]
    rw [hsource] at hcanonical
    rw [if_pos hresolved, hcanonical]
    simp [hresolved]
  -- so is an empty one, but it is written as an absent one
  · have hresolved : r.resolvedSource parent = parent := by simp [resolvedSource, hsource]
    rw [if_pos hresolved]
    simp [hne none (by simp [hsource])]
  -- any other is written unless it repeats that of the parent
  · have hresolved : r.resolvedSource parent = some (b :: bs) := by simp [resolvedSource, hsource]
    rw [hsource] at hcanonical
    rw [hresolved]
    by_cases heq : some (b :: bs) = parent
    · subst heq
      rw [if_pos rfl]
      simp [hne none (by simp [hsource])]
    · rw [if_neg heq, hcanonical]
      simp [heq]

/-- The upvalues that are written are those that were stored if and only if these are canonical. -/
theorem ofUpvalue_namedUpvalues_iff :
    r.namedUpvalues.map StoredUpvalue.ofUpvalue = r.upvalues ↔ ∀ u ∈ r.upvalues, u.Canonical := by
  rw [map_ofUpvalue_namedUpvalues, map_eq_self_iff]
  exact forall_congr' fun u => forall_congr' fun _ => StoredUpvalue.ofUpvalue_value_iff

/-- The names that are written are those that were stored, if there was one for every upvalue. -/
theorem ofContent_names_iff :
    r.namedUpvalues.map (fun u => StoredString.ofContent u.name) = r.upvalueNames ↔
      (∀ s ∈ r.upvalueNames, s.Canonical) ∧ r.upvalueNames.length = r.upvalues.length := by
  -- entry by entry, what is written is the name that is stored, if one is
  have hget : ∀ i : Nat, (r.namedUpvalues.map fun u => StoredString.ofContent u.name)[i]? =
      r.upvalues[i]?.map fun _ =>
        StoredString.ofContent (r.upvalueNames[i]?.bind StoredString.content) := by
    intro i
    simp [namedUpvalues, List.getElem?_mapIdx, Function.comp_def, Form.string]
  constructor
  -- every entry is written, so there were as many names as upvalues
  · intro h
    have hlen := congrArg List.length h
    rw [List.length_map, namedUpvalues, List.length_mapIdx] at hlen
    refine ⟨fun s hs => ?_, hlen.symm⟩
    obtain ⟨i, hi, rfl⟩ := List.getElem_of_mem hs
    have hentry := hget i
    rw [h, List.getElem?_eq_getElem hi, List.getElem?_eq_getElem (hlen ▸ hi)] at hentry
    exact StoredString.ofContent_content_iff.1 (Option.some.inj hentry).symm
  · rintro ⟨hcanonical, hlen⟩
    apply List.ext_getElem?
    intro i
    rw [hget]
    -- a name that is stored, and an index past all of them
    by_cases hi : i < r.upvalueNames.length
    · have hname := hcanonical _ (List.getElem_mem hi)
      rw [List.getElem?_eq_getElem hi, List.getElem?_eq_getElem (hlen ▸ hi)]
      exact congrArg some (StoredString.ofContent_content_iff.2 hname)
    · rw [List.getElem?_eq_none (by omega), List.getElem?_eq_none (by omega)]
      rfl

/-- A record is written as it was stored if and only if it is canonical. -/
theorem ofRecord_value_iff :
    ofRecord false (r.value
        (if r.resolvedSource parent = parent then none else r.resolvedSource parent)) = r ↔
      r.Canonical parent := by
  -- lists of constants and of local variables are written entry by entry
  have hconstants : (Form.constant.counted.value r.constants).map StoredConstant.ofConstant =
      r.constants ↔ ∀ k ∈ r.constants, k.Canonical := by
    show (r.constants.map Form.constant.value).map StoredConstant.ofConstant = r.constants ↔ _
    rw [List.map_map, map_eq_self_iff]
    exact forall₂_congr fun k _ => StoredConstant.ofConstant_value_iff
  have hlocals : (Form.localVariable.counted.value r.locals).map StoredLocal.ofLocal =
      r.locals ↔ ∀ v ∈ r.locals, v.Canonical := by
    show (r.locals.map Form.localVariable.value).map StoredLocal.ofLocal = r.locals ↔ _
    rw [List.map_map, map_eq_self_iff]
    exact forall₂_congr fun v _ => StoredLocal.ofLocal_value_iff
  constructor
  -- what is written agrees with what was stored field by field
  · intro h
    obtain ⟨hsource, hnone, hempty⟩ := ofContent_source_iff.1 (congrArg StoredRecord.source h)
    obtain ⟨hnames, hlen⟩ := ofContent_names_iff.1 (congrArg StoredRecord.upvalueNames h)
    exact
      { source := hsource
        source_eq_none_iff := hnone
        source_ne_empty := hempty
        isVararg := truthByte_value_iff.1 (congrArg StoredRecord.isVararg h)
        constants := hconstants.1 (congrArg StoredRecord.constants h)
        upvalues := ofUpvalue_namedUpvalues_iff.1 (congrArg StoredRecord.upvalues h)
        locals := hlocals.1 (congrArg StoredRecord.locals h)
        upvalueNames := hnames
        length_upvalueNames := hlen }
  · intro h
    exact StoredRecord.ext
      (ofContent_source_iff.2 ⟨h.source, h.source_eq_none_iff, h.source_ne_empty⟩) rfl rfl rfl
      (truthByte_value_iff.2 h.isVararg) rfl rfl (hconstants.2 h.constants)
      (ofUpvalue_namedUpvalues_iff.2 h.upvalues) rfl (hlocals.2 h.locals)
      (ofContent_names_iff.2 ⟨h.upvalueNames, h.length_upvalueNames⟩)

end StoredRecord

/-! ### Trees of records -/

namespace StoredFunction

open FunctionTree

/-- Whether a record inside a function of source `parent` is canonical, with all that is inside
it. -/
def Canonical (t : StoredFunction) (parent : Option Bytes) : Prop :=
  (fold (fun r children => fun parent =>
      r.Canonical parent ∧ ∀ c ∈ children, c (r.resolvedSource parent))
    t : Option Bytes → Prop) parent

/-- Below a record, canonical means so for the source that the record has. -/
theorem canonical_node {r : StoredRecord} {cs : List StoredFunction} {parent : Option Bytes} :
    Canonical (.node r cs) parent ↔
      r.Canonical parent ∧ ∀ c ∈ cs, Canonical c (r.resolvedSource parent) := by
  simp only [Canonical, fold_node, List.forall_mem_map]

/-- A tree is written as it was stored if and only if it is canonical. -/
theorem ofPrototype_elide_iff {t : StoredFunction} {parent : Option Bytes} :
    ofPrototype false ((t.prototype parent).elideSources parent) = t ↔ t.Canonical parent := by
  induction t using FunctionTree.induction generalizing parent with
  | node r cs ih =>
    -- the record and each child on its own, all below the source that has been resolved
    rw [prototype_node, Prototype.elideSources_node, ofPrototype, mapRecords_node,
      FunctionTree.node.injEq, List.map_map, List.map_map, map_eq_self_iff, canonical_node]
    exact and_congr StoredRecord.ofRecord_value_iff (forall₂_congr fun c hc => ih c hc)

end StoredFunction

/-! ### Chunks -/

/-- Whether a chunk is canonical; there is no source around its main function. -/
def StoredChunk.Canonical (chunk : StoredChunk) : Prop :=
  chunk.main.Canonical none

/-- A chunk is written as it was stored if and only if it is canonical. -/
theorem StoredChunk.ofClosure_closure_iff {chunk : StoredChunk} :
    ofClosure chunk.closure false = chunk ↔ chunk.Canonical := by
  rw [Canonical, ← StoredFunction.ofPrototype_elide_iff]
  obtain ⟨count, main⟩ := chunk
  show StoredChunk.mk count _ = ⟨count, main⟩ ↔ _
  rw [StoredChunk.mk.injEq, eq_self, true_and]
  rfl

/-- What was loaded is dumped as the buffer it was loaded from if and only if the buffer is a
canonical chunk with nothing behind it. -/
theorem dump_eq_iff_canonical (options : LoadOptions) (table : StringTable) (name : String)
    (bs : Bytes) (c : Closure StringHandle) (hlen : bs.length < 2 ^ 31)
    (hkeep : options.keepDebug = true) (hload : (load options table name bs).outcome = .ok c) :
    (∃ (chunk : StoredChunk) (rest : Bytes), chunk.Fits ∧ bs = chunk.bytes ++ rest) ∧
    ∀ (chunk : StoredChunk) (rest : Bytes), chunk.Fits → bs = chunk.bytes ++ rest →
      (dump c.contents false = .ok bs ↔ rest = [] ∧ chunk.Canonical) := by
  have hc := wellFormed_of_load hlen hload
  obtain ⟨loaded, hfits, hcontents, behind, hbehind⟩ := exists_chunk_of_load hload
  rw [LoadOptions.keep, if_pos hkeep] at hcontents
  refine ⟨⟨loaded, behind, hfits.1, hbehind.symm⟩, fun chunk rest hfits' hbs => ?_⟩
  -- there is no other chunk at the front of the buffer than the one that was read
  obtain ⟨rfl, rfl⟩ := StoredChunk.append_inj hfits.1 hfits' (hbehind.trans hbs)
  rw [dump_eq_ok hc.writable, Except.ok.injEq, hbs, ← StoredChunk.ofClosure_closure_iff,
    ← hcontents]
  -- both sides now say that the written form is the chunk
  constructor
  -- nothing stands behind what is written, so nothing stood behind the chunk
  · intro h
    rw [← List.append_nil (StoredChunk.bytes (.ofClosure ..))] at h
    obtain ⟨hchunk, hrest⟩ := StoredChunk.append_inj (hc.fits_ofClosure false) hfits.1 h
    exact ⟨hrest.symm, hchunk⟩
  · rintro ⟨hrest, hchunk⟩
    rw [hrest, hchunk, List.append_nil]

/-- The sample is not canonical, since one of its truth values is neither 0 nor 1. -/
theorem dump_eq_iff_canonical_sample :
    let table := StringTable.empty 0
    let chunk := StoredChunk.sample
    let c := chunk.closure.map (table.internAll chunk.strings).handle
    (load {} table "sample" chunk.bytes).outcome = .ok c ∧ ¬chunk.Canonical ∧
      dump c.contents false ≠ .ok chunk.bytes := by
  intro table chunk c
  have hload : (load {} table "sample" chunk.bytes).outcome = .ok c :=
    outcome_load_sample true table "sample"
  have hfits : chunk.Fits := by decide
  have hiff := (dump_eq_iff_canonical {} table "sample" _ c length_sample_lt rfl hload).2 chunk []
    hfits (List.append_nil _).symm
  have hnot : ¬chunk.Canonical := by
    intro h
    obtain ⟨hmain, -⟩ := StoredFunction.canonical_node.1 h
    exact absurd hmain.isVararg (by decide)
  exact ⟨hload, hnot, fun h => hnot (hiff.1 h).2⟩

end LuaChunk
