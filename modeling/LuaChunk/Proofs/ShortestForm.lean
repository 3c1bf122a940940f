import LuaChunk.Proofs.RoundTrip
import LuaChunk.Proofs.Truncation

/-!
# The shortest form

Of all chunks that stand for a closure the writer makes a short one: no string has a longer size
than it needs, and no source is repeated. What was loaded is written in no more bytes than were
read, but for one thing. A chunk may name fewer upvalues than there are, and the writer names all of
them, an upvalue without a name by a size of zero. So a dump can be longer than what was read by one
byte for each upvalue that was not named; a stripped dump is never longer.

## Key results

* `length_ofRecord_le`         a record is written in no more bytes than it was stored in
* `length_ofPrototype_le`      nor is a tree of records, but for the names that were left out
* `length_dump_le`             the dump of what was loaded is no longer than what was read
-/

namespace LuaChunk

/-! ### Strings -/

namespace StoredString

/-- The size of a string takes nine bytes with the escape, and one without it. -/
theorem length_bytes (s : StoredString) :
    (Form.string.bytes s).length = (if s.escaped then 9 else 1) + (s.content.getD []).length := by
  simp only [Form.string, List.length_append]
  split <;> simp

/-- A string is written in no more bytes than it was stored in: its size is escaped only where it
has to be. -/
theorem length_ofContent_le {s : StoredString} (h : Form.string.Fits s) :
    (Form.string.bytes (.ofContent s.content)).length ≤ (Form.string.bytes s).length := by
  obtain ⟨content, escaped⟩ := s
  rw [length_bytes, length_bytes, content_ofContent]
  -- nine bytes for the size are enough for any form that is written
  cases escaped with
  | true =>
    rw [if_pos rfl]
    split <;> omega
  | false =>
    -- a size in one byte is below 255, so that it is written in one byte
    have hshort : ¬254 ≤ (content.getD []).length := by
      have hlt : StoredString.size ⟨content, false⟩ < 0xFF := h
      cases content with
      | none => exact Nat.not_succ_le_zero _
      | some bs => exact Nat.not_le.2 (Nat.lt_of_succ_lt_succ hlt)
    simp [ofContent, hshort]

/-- An absent string takes as many bytes as an empty one. -/
theorem length_ofContent_some (content : Option Bytes) :
    (Form.string.bytes (.ofContent (some (content.getD [])))).length =
      (Form.string.bytes (.ofContent content)).length := by
  rw [length_bytes, length_bytes]
  rfl

/-- No string takes fewer bytes than an absent one. -/
theorem length_ofContent_none_le (s : StoredString) :
    (Form.string.bytes (.ofContent none)).length ≤ (Form.string.bytes s).length :=
  one_le_length_string s

end StoredString

/-! ### Constants and local variables -/

/-- A constant is written in no more bytes than it was stored in. -/
theorem StoredConstant.length_ofConstant_le {k : StoredConstant} (h : Form.constant.Fits k) :
    (Form.constant.bytes (ofConstant (Form.constant.value k))).length ≤
      (Form.constant.bytes k).length := by
  cases k with
  -- an absent string is written as an empty one, in as many bytes
  | string long s =>
    have hcontent := StoredString.length_ofContent_le h
    rw [← StoredString.length_ofContent_some] at hcontent
    exact Nat.succ_le_succ hcontent
  | _ => exact Nat.le_refl _

/-- A local variable is written in no more bytes than it was stored in. -/
theorem StoredLocal.length_ofLocal_le {v : StoredLocal} (h : Form.localVariable.Fits v) :
    (Form.localVariable.bytes (ofLocal (Form.localVariable.value v))).length ≤
      (Form.localVariable.bytes v).length := by
  have hname := StoredString.length_ofContent_le h
  rw [← StoredString.length_ofContent_some] at hname
  simp only [Form.localVariable, ofLocal, List.length_append]
  exact Nat.add_le_add_right (Nat.add_le_add_right hname _) _

/-! ### Sequences -/

namespace Form

variable {α β : Type} {F : Form β α} {ss : List β}

/-- Sequences of the same number of entries compare as their entries do. -/
theorem length_counted_map_le_add {f : β → β} (extra : β → Nat)
    (h : ∀ s ∈ ss, (F.bytes (f s)).length ≤ (F.bytes s).length + extra s) :
    (F.counted.bytes (ss.map f)).length ≤ (F.counted.bytes ss).length + (ss.map extra).sum := by
  rw [length_counted, length_counted]
  induction ss with
  | nil => simp
  | cons s ss ih =>
    -- the first entry and the others each have room to spare for what they add
    have hs := h s List.mem_cons_self
    have hss := ih fun t ht => h t (List.mem_cons_of_mem _ ht)
    simp only [list, List.map_cons, List.sum_cons, List.flatMap_cons, List.length_append] at hss ⊢
    omega

/-- Where no entry gets longer, neither does the sequence. -/
theorem length_counted_map_le {f : β → β}
    (h : ∀ s ∈ ss, (F.bytes (f s)).length ≤ (F.bytes s).length) :
    (F.counted.bytes (ss.map f)).length ≤ (F.counted.bytes ss).length := by
  have hle := length_counted_map_le_add (fun _ => 0) h
  rwa [List.map_const', List.sum_replicate_nat, Nat.mul_zero, Nat.add_zero] at hle

/-- Where no entry is written in more bytes than it was stored in, neither is the sequence. -/
theorem length_counted_map_value_le {f : α → β}
    (h : ∀ s ∈ ss, (F.bytes (f (F.value s))).length ≤ (F.bytes s).length) :
    (F.counted.bytes ((F.counted.value ss).map f)).length ≤ (F.counted.bytes ss).length := by
  have hmap : (F.counted.value ss).map f = ss.map fun s => f (F.value s) := List.map_map
  rw [hmap]
  exact length_counted_map_le h

end Form

/-! ### Function records -/

namespace StoredRecord

variable {r : StoredRecord}

/-- How many upvalues there is no entry for among the names. -/
def unnamedUpvalues (r : StoredRecord) : Nat :=
  r.upvalues.length - r.upvalueNames.length

/-- The names that are stored are written in no more bytes, and each that is not in one byte. -/
theorem length_names_le {us : List StoredUpvalue} {names : List StoredString}
    (h : ∀ s ∈ names, Form.string.Fits s) (hle : names.length ≤ us.length) :
    (Form.string.list.bytes ((us.mapIdx fun i u => { Form.upvalue.value u with
      name := names[i]?.bind Form.string.value }).map fun u => .ofContent u.name)).length ≤
        (Form.string.list.bytes names).length + (us.length - names.length) := by
  induction us generalizing names with
  | nil => simp [Form.list]
  | cons u us ih =>
    rw [List.mapIdx_cons, List.map_cons]
    cases names with
    | nil =>
      -- no name is left, and one byte is written for each upvalue
      have hothers := ih h (Nat.zero_le _)
      have hnone : (Form.string.bytes (.ofContent none)).length = 1 := rfl
      simp only [Form.list, List.flatMap_cons, List.length_append] at hothers ⊢
      simp only [List.getElem?_nil, Option.bind_none, hnone, List.length_nil, List.length_cons,
        List.flatMap_nil] at hothers ⊢
      omega
    -- a name that is stored, written in no more bytes, and the others behind it
    | cons s names =>
      have hfirst := StoredString.length_ofContent_le (h s List.mem_cons_self)
      have hothers := ih (fun t ht => h t (List.mem_cons_of_mem _ ht)) (Nat.le_of_succ_le_succ hle)
      simp only [Form.list, List.flatMap_cons, List.length_append, List.length_cons] at hothers ⊢
      simp only [List.getElem?_cons_zero, List.getElem?_cons_succ, Option.bind_some] at hothers ⊢
      show (Form.string.bytes (.ofContent s.content)).length + _ ≤ _
      omega

/-- In front of the records inside it, a record is written in no more bytes than it was stored in,
if its source is. -/
theorem length_headBytes_ofRecord_le (h : r.Fits) (strip : Bool) {source : Option Bytes}
    (hsource : (Form.string.bytes (.ofContent source)).length ≤
      (Form.string.bytes r.source).length) :
    (ofRecord strip (r.value source)).headBytes.length ≤ r.headBytes.length := by
  -- constants and upvalues are the sequences that can change
  have hconstants := Form.length_counted_map_value_le fun k hk =>
    StoredConstant.length_ofConstant_le (h.constants.2 k hk)
  have hupvalues : (Form.upvalue.counted.bytes (r.namedUpvalues.map .ofUpvalue)).length ≤
      (Form.upvalue.counted.bytes r.upvalues).length := by
    rw [map_ofUpvalue_namedUpvalues]
    exact Form.length_counted_map_le fun _ _ => Nat.le_refl 2
  simp only [headBytes, ofRecord, value, List.length_append, List.length_cons, List.length_nil]
  omega

/-- Behind the records inside it, a record is written in no more bytes than it was stored in, but
for the names that were left out. -/
theorem length_debugBytes_ofRecord_le (h : r.Fits) (source : Option Bytes) :
    (ofRecord false (r.value source)).debugBytes.length ≤
      r.debugBytes.length + r.unnamedUpvalues := by
  have hlocals := Form.length_counted_map_value_le fun v hv =>
    StoredLocal.length_ofLocal_le (h.locals.2 v hv)
  have hnames := length_names_le h.upvalueNames.2 h.length_upvalueNames_le
  simp only [debugBytes, ofRecord, value, List.length_append, Form.length_counted Form.string,
    Bool.false_eq_true, if_false, unnamedUpvalues]
  unfold namedUpvalues
  omega

/-- Without debug information only three counts are left. -/
theorem length_debugBytes_ofRecord_true_le (s : FunctionRecord Bytes) (r : StoredRecord) :
    (ofRecord true s).debugBytes.length ≤ r.debugBytes.length := by
  have hempty : (ofRecord true s).debugBytes.length = 12 := rfl
  rw [hempty]
  simp only [debugBytes, List.length_append, Form.length_counted]
  omega

/-- What the writer leaves out when it strips need not be there. -/
theorem ofRecord_true_dropDebug (s : FunctionRecord Bytes) :
    ofRecord true s.dropDebug = ofRecord true s := by
  simp [ofRecord, FunctionRecord.dropDebug, StoredUpvalue.ofUpvalue]

end StoredRecord

/-! ### Trees of records -/

namespace StoredFunction

open FunctionTree

/-- How many upvalues of a function and of the functions inside it there is no entry for among the
names. -/
def unnamedUpvalues : StoredFunction → Nat :=
  fold fun r counts => r.unnamedUpvalues + counts.sum

/-- The upvalues without an entry are those of the record and of its children. -/
theorem unnamedUpvalues_node (r : StoredRecord) (cs : List StoredFunction) :
    unnamedUpvalues (.node r cs) = r.unnamedUpvalues + (cs.map unnamedUpvalues).sum :=
  fold_node ..

/-- Where every upvalue has an entry among the names, none is left out. -/
theorem unnamedUpvalues_eq_zero {t : StoredFunction}
    (h : All (fun r _ => r.upvalues.length ≤ r.upvalueNames.length) t) :
    t.unnamedUpvalues = 0 := by
  induction t using FunctionTree.induction with
  | node r cs ih =>
    obtain ⟨hr, hcs⟩ := all_node.1 h
    have hchildren : cs.map unnamedUpvalues = cs.map fun _ => 0 :=
      List.map_congr_left fun c hc => ih c hc (hcs c hc)
    rw [unnamedUpvalues_node, StoredRecord.unnamedUpvalues, Nat.sub_eq_zero_of_le hr, hchildren,
      List.map_const', List.sum_replicate_nat, Nat.mul_zero]

/-- A tree is written in no more bytes than it was stored in, but for the names that were left
out. -/
theorem length_ofPrototype_le {t : StoredFunction} (h : t.Fits) (parent : Option Bytes) :
    (ofPrototype false ((t.prototype parent).elideSources parent)).bytes.length ≤
      t.bytes.length + t.unnamedUpvalues := by
  induction t using FunctionTree.induction generalizing parent with
  | node r cs ih =>
    obtain ⟨⟨hr, -⟩, hcs⟩ := fits_node.1 h
    -- a source that is not that of the parent is the one that was stored
    have hsource : (Form.string.bytes (.ofContent
        (if r.resolvedSource parent = parent then none else r.resolvedSource parent))).length ≤
          (Form.string.bytes r.source).length := by
      split
      -- the source is left out, and an absent one is the shortest
      · exact StoredString.length_ofContent_none_le r.source
      · next hne =>
        obtain heq | ⟨heq, -⟩ := r.resolvedSource_eq_or parent
        · exact absurd heq hne
        · rw [heq]
          exact StoredString.length_ofContent_le hr.source
    have hhead := StoredRecord.length_headBytes_ofRecord_le hr false hsource
    have hdebug := StoredRecord.length_debugBytes_ofRecord_le hr
      (if r.resolvedSource parent = parent then none else r.resolvedSource parent)
    have hchildren := Form.length_counted_map_le_add (F := Form.function 0 0) unnamedUpvalues
      fun c hc => ih c hc (hcs c hc) (r.resolvedSource parent)
    rw [prototype_node, Prototype.elideSources_node, ofPrototype, mapRecords_node, List.map_map,
      List.map_map, unnamedUpvalues_node, bytes_node 0 0, bytes_node 0 0]
    simp only [List.length_append]
    exact Nat.le_trans (Nat.add_le_add (Nat.add_le_add hhead hchildren) hdebug) (by omega)

/-- Stripped, a tree is written in no more bytes than it was stored in. -/
theorem length_ofPrototype_strip_le {t : StoredFunction} (h : t.Fits) (parent : Option Bytes) :
    (ofPrototype true (t.prototype parent).strip).bytes.length ≤ t.bytes.length := by
  induction t using FunctionTree.induction generalizing parent with
  | node r cs ih =>
    obtain ⟨⟨hr, -⟩, hcs⟩ := fits_node.1 h
    -- stripping first or while writing makes the same record
    have hrecord : StoredRecord.ofRecord true
        { (r.value (r.resolvedSource parent)).dropDebug with source := none } =
          .ofRecord true (r.value none) :=
      StoredRecord.ofRecord_true_dropDebug (r.value none)
    have hhead := StoredRecord.length_headBytes_ofRecord_le hr true
      (StoredString.length_ofContent_none_le r.source)
    have hdebug := StoredRecord.length_debugBytes_ofRecord_true_le (r.value none) r
    have hchildren := Form.length_counted_map_le (F := Form.function 0 0)
      fun c hc => ih c hc (hcs c hc) (r.resolvedSource parent)
    rw [prototype_node, Prototype.strip, mapRecords_node, ofPrototype, mapRecords_node,
      List.map_map, List.map_map, hrecord, bytes_node 0 0, bytes_node 0 0]
    simp only [List.length_append]
    exact Nat.add_le_add (Nat.add_le_add hhead hchildren) hdebug

end StoredFunction

/-! ### Chunks -/

/-- What was loaded with its debug information is dumped stripped in no more bytes than were read,
and whole in no more than that and one byte for each upvalue that was not named; so a chunk that
names every upvalue does not get longer. The bytes that were read are a chunk. -/
theorem length_dump_le (options : LoadOptions) (table : StringTable) (name : String) (bs : Bytes)
    (c : Closure StringHandle) (hlen : bs.length < 2 ^ 31) (hkeep : options.keepDebug = true)
    (hload : (load options table name bs).outcome = .ok c) :
    let consumed := bs.length - (load options table name bs).ignored
    ∃ stripped whole, dump c.contents true = .ok stripped ∧ dump c.contents false = .ok whole ∧
      stripped.length ≤ consumed ∧
      (∃ chunk : StoredChunk, chunk.Fits ∧ chunk.bytes = bs.take consumed) ∧
      ∀ chunk : StoredChunk, chunk.Fits → chunk.bytes = bs.take consumed →
        whole.length ≤ consumed + chunk.main.unnamedUpvalues ∧
          (FunctionTree.All (fun r _ => r.upvalues.length ≤ r.upvalueNames.length) chunk.main →
            whole.length ≤ consumed) := by
  intro consumed
  have hwritable := (wellFormed_of_load hlen hload).writable
  obtain ⟨chunk, hfits, hcontents, rest, hbs⟩ := exists_chunk_of_load hload
  rw [LoadOptions.keep, if_pos hkeep] at hcontents
  have hignored := ignored_load_append options table name hfits rest
  rw [hbs] at hignored
  -- what is not ignored is the chunk
  have hconsumed : consumed = chunk.bytes.length := by
    have hsum := congrArg List.length hbs
    rw [List.length_append] at hsum
    omega
  have htake : bs.take consumed = chunk.bytes := by
    rw [hconsumed, ← hbs, List.take_left]
  have hmain : c.contents.prototype = chunk.main.prototype none :=
    congrArg Closure.prototype hcontents
  refine ⟨_, _, dump_eq_ok hwritable true, dump_eq_ok hwritable false, ?_,
    ⟨chunk, hfits.1, htake.symm⟩, fun other hother hbytes => ?_⟩
  -- the stripped dump; the rest of the chunk is as long as before
  · have hle := StoredFunction.length_ofPrototype_strip_le hfits.1.main none
    rw [hconsumed, StoredChunk.length_bytes, StoredChunk.length_bytes, StoredChunk.ofClosure,
      if_pos rfl, Prototype.elideSources_strip, hmain]
    exact Nat.add_le_add_left hle _
  · -- there is no other chunk at the front of the buffer than the one that was read
    obtain rfl := StoredChunk.bytes_inj hother hfits.1 (hbytes.trans htake)
    have hle := StoredFunction.length_ofPrototype_le hfits.1.main none
    have hwhole : (StoredChunk.ofClosure c.contents false).bytes.length ≤
        consumed + other.main.unnamedUpvalues := by
      rw [hconsumed, StoredChunk.length_bytes, StoredChunk.length_bytes, StoredChunk.ofClosure,
        if_neg Bool.false_ne_true, hmain]
      exact Nat.le_trans (Nat.add_le_add_left hle _) (Nat.add_assoc ..).ge
    refine ⟨hwhole, fun hnamed => ?_⟩
    rwa [StoredFunction.unnamedUpvalues_eq_zero hnamed] at hwhole

/-- A chunk as the writer would write it, but for the name of an upvalue. -/
def StoredChunk.unnamed : StoredChunk where
  upvalueCount := 1
  main := .node
    { source := ⟨none, false⟩
      lineDefined := 0
      lastLineDefined := 0
      numParams := 0
      isVararg := 0
      maxStackSize := 2
      code := []
      constants := []
      upvalues := [⟨1, 0⟩]
      lineInfo := []
      locals := []
      upvalueNames := [] }
    []

/-- One byte longer is as long as the dump of a chunk can get that does not name one upvalue. -/
theorem length_dump_le_unnamed :
    let table := StringTable.empty 0
    let chunk := StoredChunk.unnamed
    let bs := chunk.bytes ++ [0, 0]
    let c := chunk.closure.map (table.internAll chunk.strings).handle
    (load {} table "sample" bs).outcome = .ok c ∧ chunk.main.unnamedUpvalues = 1 ∧
      ∃ stripped whole, dump c.contents true = .ok stripped ∧ dump c.contents false = .ok whole ∧
        stripped.length ≤ chunk.bytes.length ∧ whole.length = chunk.bytes.length + 1 := by
  intro table chunk bs c
  have hfits : (Form.chunk 200).Fits chunk := by decide
  have hload : (load {} table "sample" bs).outcome = .ok c :=
    outcome_load_append {} table "sample" hfits [0, 0]
  have hlen : bs.length < 2 ^ 31 := by decide +kernel
  have hignored : (load {} table "sample" bs).ignored = 2 :=
    ignored_load_append {} table "sample" hfits [0, 0]
  obtain ⟨stripped, whole, hstripped, hwhole, hle, -, hall⟩ :=
    length_dump_le {} table "sample" bs c hlen rfl hload
  rw [hignored] at hle hall
  refine ⟨hload, rfl, stripped, whole, hstripped, hwhole, hle,
    Nat.le_antisymm (hall chunk hfits.1 rfl).1 ?_⟩
  -- the dump has one byte for the name that is absent
  have hdump := dump_eq_ok (wellFormed_of_load hlen hload).writable false
  obtain rfl := Except.ok.inj (hwhole.symm.trans hdump)
  rw [Closure.contents_map_handle]
  decide +kernel

end LuaChunk
