import LuaChunk.Proofs.Loading
import LuaChunk.Proofs.WrittenForm

/-!
# Closures that can be written and read back

A closure is well-formed if all its parts fit in their fields, its sources can be told from absent
ones, and it has as many upvalues as are declared. The written form of such a closure stands for the
closure itself, or for the stripped one if the writer strips.

Every closure that a chunk stands for is well-formed unless the chunk is very long: four bytes can
tell more entries than the writer is willing to count.

## Key results

* `closure_ofClosure`     what the written form stands for
* `fits_ofClosure`        the written form fits
* `wellFormed_closure`    what a chunk of less than `2 ^ 31` bytes stands for is well-formed
-/

namespace LuaChunk

/-- Whether a closure can be written and read back. -/
structure Closure.WellFormed (c : Closure Bytes) : Prop where
  writable : c.prototype.Writable
  sources : c.prototype.SourcesResolved none
  upvalueCount : c.upvalueCount.toNat = c.prototype.record.upvalues.length

namespace Closure.WellFormed

variable {c : Closure Bytes}

theorem dropDebug (h : c.WellFormed) : c.dropDebug.WellFormed where
  writable := h.writable.dropDebug
  sources := h.sources.dropDebug
  upvalueCount := h.upvalueCount.trans c.prototype.length_upvalues_dropDebug.symm

/-! ### The written form of a well-formed closure -/

/-- The written form of a closure stands for the closure, or for the stripped one. -/
theorem closure_ofClosure (h : c.WellFormed) (strip : Bool) :
    (StoredChunk.ofClosure c strip).closure = if strip then c.strip else c := by
  cases strip with
  | false =>
    -- the sources that were left out are put back
    have hmain : (StoredFunction.ofPrototype false (c.prototype.elideSources none)).prototype none =
        c.prototype := by
      rw [← StoredFunction.inheritSources_asStored,
        StoredFunction.asStored_ofPrototype (h.writable.elideSources none)]
      exact Prototype.inheritSources_elideSources h.sources
    exact congrArg (Closure.mk c.upvalueCount) hmain
  | true =>
    -- there is no source to leave out, and no debug information to lose
    have hmain : (StoredFunction.ofPrototype true (c.prototype.strip.elideSources none)).prototype
        none = c.prototype.strip := by
      have hput := Prototype.inheritSources_elideSources c.prototype.sourcesResolved_strip
      rw [Prototype.elideSources_strip] at hput ⊢
      rw [← StoredFunction.inheritSources_asStored,
        StoredFunction.asStored_ofPrototype h.writable.strip, if_pos rfl,
        Prototype.dropDebug_strip, hput]
    exact congrArg (Closure.mk c.upvalueCount) hmain

theorem fits_ofClosure (h : c.WellFormed) (strip : Bool) :
    (StoredChunk.ofClosure c strip).Fits :=
  StoredChunk.fits_ofClosure (h.writable.stored strip) h.upvalueCount

/-- It also fits where functions may nest no deeper than they do in the closure. -/
theorem fits_ofClosure_of_height (h : c.WellFormed) (strip : Bool) {limit : Nat}
    (hheight : c.prototype.height ≤ limit) :
    (Form.chunk limit).Fits (StoredChunk.ofClosure c strip) := by
  rw [← StoredChunk.height_ofClosure c strip] at hheight
  exact ⟨h.fits_ofClosure strip, hheight⟩

end Closure.WellFormed

/-! ### What a chunk stands for -/

/-- A content of less than `2 ^ 63` bytes has a size in eight. -/
theorem StoredString.sizable_of_lt {content : Option Bytes}
    (h : (content.getD []).length < 2 ^ 63) : Sizable content := by
  unfold Sizable
  omega

/-- A constant that is stored in less than `2 ^ 31` bytes can be written. -/
theorem StoredConstant.writable_value {k : StoredConstant}
    (h : (Form.constant.bytes k).length < 2 ^ 31) : Writable (Form.constant.value k) := by
  cases k with
  -- four bytes were read, and four bytes hold it again
  | integer i => exact congrArg Int32.toInt64 (Int32.toInt32_toInt64 i)
  -- its content is shorter than its bytes
  | string long s =>
    have hcontent := s.length_content_lt
    have hbytes : (Form.string.bytes s).length < 2 ^ 31 := Nat.lt_of_succ_lt h
    exact StoredString.sizable_of_lt (Nat.lt_trans hcontent (by omega))
  | _ => trivial

namespace StoredRecord

variable {r : StoredRecord}

/-- An upvalue has one of the names that are stored, or none. -/
theorem name_of_mem_namedUpvalues {u : Upvalue} (hu : u ∈ r.namedUpvalues) :
    u.name = none ∨ ∃ s ∈ r.upvalueNames, u.name = s.content := by
  obtain ⟨i, hi, rfl⟩ := List.mem_mapIdx.1 hu
  -- the names are given to upvalues in order, and may run out
  cases hname : r.upvalueNames[i]? with
  | none => exact .inl rfl
  | some s => exact .inr ⟨s, List.mem_of_getElem? hname, rfl⟩

/-- No part of a record is longer than the record, and no sequence has more entries than bytes. -/
theorem writable_value {source : Option Bytes} {n : Nat}
    (hsource : (source.getD []).length < 2 ^ 31) (hn : n < 2 ^ 31)
    (hlen : r.headBytes.length + r.debugBytes.length < 2 ^ 31) :
    (r.value source).Writable n := by
  -- the length of a record is that of its parts together
  simp only [headBytes, debugBytes, List.length_append] at hlen
  have hword : ∀ ins, 1 ≤ (Form.instruction.bytes ins).length := by
    simp [Form.instruction, Form.fixed]
  have hint : ∀ i, 1 ≤ (Form.int.bytes i).length := by simp [Form.int, Form.fixed]
  have hupvalue : ∀ u, 1 ≤ (Form.upvalue.bytes u).length := by simp [Form.upvalue]
  have hlocal : ∀ v, 1 ≤ (Form.localVariable.bytes v).length := fun v =>
    Nat.le_trans (by decide) (nine_le_length_localVariable v)
  have hcode := Form.length_le_length_counted hword r.code
  have hconstants := Form.length_le_length_counted one_le_length_constant r.constants
  have hupvalues := Form.length_le_length_counted hupvalue r.upvalues
  have hlineInfo := Form.length_le_length_counted hint r.lineInfo
  have hlocals := Form.length_le_length_counted hlocal r.locals
  exact
    { source := StoredString.sizable_of_lt (Nat.lt_trans hsource (by decide))
      code := by show r.code.length < _; omega
      constants := by
        show (r.constants.map _).length < _
        rw [List.length_map]
        omega
      upvalues := by
        show r.namedUpvalues.length < _
        rw [namedUpvalues, List.length_mapIdx]
        omega
      children := hn
      lineInfo := by show r.lineInfo.length < _; omega
      locals := by
        show (r.locals.map _).length < _
        rw [List.length_map]
        omega
      constant := List.forall_mem_map.2 fun k hk => by
        have hbytes := Form.length_le_length_counted_of_mem (F := Form.constant) hk
        exact StoredConstant.writable_value (by omega)
      localName := List.forall_mem_map.2 fun v hv => by
        have hbytes := Form.length_le_length_counted_of_mem (F := Form.localVariable) hv
        have hname : (Form.string.bytes v.name).length ≤ (Form.localVariable.bytes v).length := by
          simp only [Form.localVariable, List.length_append]
          omega
        have hcontent := v.name.length_content_lt
        exact StoredString.sizable_of_lt (Nat.lt_trans hcontent (by omega))
      upvalueName := fun u hu => by
        -- a name is one of those that are stored, or none
        rcases name_of_mem_namedUpvalues hu with hnone | ⟨s, hs, hname⟩
        · rw [hnone]
          exact StoredString.sizable_none
        · have hbytes := Form.length_le_length_counted_of_mem (F := Form.string) hs
          have hcontent := s.length_content_lt
          rw [hname]
          exact StoredString.sizable_of_lt (by omega) }

end StoredRecord

namespace StoredFunction

variable {t : StoredFunction} {parent : Option Bytes}

/-- A function that is stored in less than `2 ^ 31` bytes can be written. -/
theorem writable_prototype (hparent : (parent.getD []).length < 2 ^ 31)
    (hlen : t.bytes.length < 2 ^ 31) : (t.prototype parent).Writable := by
  induction t using FunctionTree.induction generalizing parent with
  | node r cs ih =>
    -- the bytes of a node are those of its head, its children and its debug information
    rw [bytes_node 0 0, List.length_append, List.length_append] at hlen
    have hpos : ∀ t, 1 ≤ ((Form.function 0 0).bytes t).length := fun t =>
      Nat.le_trans (by decide) (Read.minRecordSize_le_length t)
    have hchildren := Form.length_le_length_counted hpos cs
    -- the source is inherited from a record that was long enough to hold it
    have hsource : ((r.resolvedSource parent).getD []).length < 2 ^ 31 := by
      rcases r.resolvedSource_eq_or parent with heq | ⟨heq, -⟩
      · rw [heq]
        exact hparent
      · have hcontent := r.source.length_content_lt
        simp only [StoredRecord.headBytes, List.length_append] at hlen
        rw [heq]
        omega
    rw [prototype_node, Prototype.Writable, FunctionTree.all_node, List.length_map]
    refine ⟨StoredRecord.writable_value hsource (by omega) (by omega), ?_⟩
    -- each child is stored within the bytes of its parent
    refine List.forall_mem_map.2 fun c hc => ih c hc hsource ?_
    have hchild : c.bytes.length ≤ _ :=
      Form.length_le_length_counted_of_mem (F := Form.function 0 0) hc
    omega

/-- A source that is resolved is never empty, and is absent only if none is around it. -/
theorem sourcesResolved_prototype (hparent : parent ≠ some []) (t : StoredFunction) :
    (t.prototype parent).SourcesResolved parent := by
  induction t using FunctionTree.induction generalizing parent with
  | node r cs ih =>
    have hsource : r.resolvedSource parent ≠ some [] ∧
        (r.resolvedSource parent = none → parent = none) := by
      -- the source is the one around, or one that is stored and not empty
      rcases r.resolvedSource_eq_or parent with heq | ⟨heq, hne⟩
      · rw [heq]
        exact ⟨hparent, id⟩
      · rw [heq]
        exact ⟨fun h => absurd (by rw [h]; rfl) hne, fun h => absurd (by rw [h]; rfl) hne⟩
    rw [prototype_node, Prototype.sourcesResolved_node]
    exact ⟨hsource.1, hsource.2, List.forall_mem_map.2 fun c hc => ih c hc hsource.1⟩

end StoredFunction

/-- What a chunk of less than `2 ^ 31` bytes stands for can be written and read back. -/
theorem wellFormed_closure {chunk : StoredChunk} (h : chunk.Fits)
    (hlen : chunk.bytes.length < 2 ^ 31) : chunk.closure.WellFormed where
  writable := by
    refine StoredFunction.writable_prototype (Nat.two_pow_pos 31) ?_
    rw [StoredChunk.bytes, List.length_append, List.length_cons] at hlen
    omega
  sources :=
    have hnone : none ≠ some ([] : Bytes) := nofun
    StoredFunction.sourcesResolved_prototype hnone chunk.main
  upvalueCount := h.upvalueCount.trans (chunk.main.length_upvalues_prototype none).symm

end LuaChunk
