import LuaChunk.Proofs.StoredForm

/-!
# The grammar is unambiguous

A chunk can be cut in one way only: where two stored forms that fit begin the same buffer, they are
the same form and leave the same rest. This is more than that two forms with the same bytes are the
same, and it is what passes from the parts of a form to the whole.

## Key results

* `counted_unambiguous`      a sequence is unambiguous if its entries are
* `function_unambiguous`     a function record with all that is inside it
* `StoredChunk.append_inj`   a buffer begins with one chunk at most
-/

namespace LuaChunk

namespace Form

variable {α β : Type}

/-- Of two forms that fit, neither begins the other: a buffer that begins with both has one form and
one rest. -/
def Unambiguous (F : Form β α) : Prop :=
  ∀ {s t : β} {r r' : Bytes}, F.Fits s → F.Fits t → F.bytes s ++ r = F.bytes t ++ r' →
    s = t ∧ r = r'

/-- Two forms that fit and have the same bytes are the same. -/
theorem Unambiguous.bytes_inj {F : Form β α} (hF : F.Unambiguous) {s t : β} (hs : F.Fits s)
    (ht : F.Fits t) (h : F.bytes s = F.bytes t) : s = t :=
  (hF hs ht (congrArg (· ++ []) h)).1

/-! ### Values of fixed width -/

/-- A number of known width is settled by the front of a buffer, and so is the rest behind it. -/
theorem leBytes_append_inj {width m n : Nat} {r r' : Bytes} (hm : m < 2 ^ (8 * width))
    (hn : n < 2 ^ (8 * width)) (h : Bytes.leBytes width m ++ r = Bytes.leBytes width n ++ r') :
    m = n ∧ r = r' := by
  obtain ⟨hbytes, hrest⟩ := List.append_inj h (by rw [Bytes.length_leBytes, Bytes.length_leBytes])
  have hvalue := congrArg Bytes.leValue hbytes
  rw [Bytes.leValue_leBytes, Bytes.leValue_leBytes, Nat.one_shiftLeft, Nat.mod_eq_of_lt hm,
    Nat.mod_eq_of_lt hn] at hvalue
  exact ⟨hvalue, hrest⟩

theorem truth_unambiguous : truth.Unambiguous :=
  fun _ _ h => List.cons.inj h

/-- Values of fixed width are unambiguous if their numbers fit and tell them apart. -/
theorem fixed_unambiguous {width : Nat} {toNat : α → Nat} (hlt : ∀ a, toNat a < 2 ^ (8 * width))
    (hinj : ∀ {a b}, toNat a = toNat b → a = b) : (fixed width toNat).Unambiguous := by
  intro a b r r' _ _ h
  obtain ⟨hab, hrest⟩ := leBytes_append_inj (hlt a) (hlt b) h
  exact ⟨hinj hab, hrest⟩

theorem int_unambiguous : int.Unambiguous := by
  refine fixed_unambiguous (fun i => i.toUInt32.toNat_lt) fun {i j} h => ?_
  obtain ⟨_⟩ := i
  obtain ⟨_⟩ := j
  exact congrArg Int32.ofUInt32 (UInt32.toNat_inj.1 h)

theorem number_unambiguous : number.Unambiguous := by
  refine fixed_unambiguous (fun x => x.bits.toNat_lt) fun {x y} h => ?_
  obtain ⟨_⟩ := x
  obtain ⟨_⟩ := y
  exact congrArg Binary64.mk (UInt64.toNat_inj.1 h)

theorem instruction_unambiguous : instruction.Unambiguous := by
  refine fixed_unambiguous (fun ins => ins.word.toNat_lt) fun {x y} h => ?_
  obtain ⟨_⟩ := x
  obtain ⟨_⟩ := y
  exact congrArg Instruction.mk (UInt32.toNat_inj.1 h)

/-! ### Sequences -/

/-- Sequences of the same length; without that, one could be the beginning of the other. -/
theorem list_append_inj {F : Form β α} (hF : F.Unambiguous) {ss ts : List β} {r r' : Bytes}
    (hlen : ss.length = ts.length) (hss : F.list.Fits ss) (hts : F.list.Fits ts)
    (h : F.list.bytes ss ++ r = F.list.bytes ts ++ r') : ss = ts ∧ r = r' := by
  induction ss generalizing ts with
  | nil =>
    obtain rfl := List.length_eq_zero_iff.1 hlen.symm
    exact ⟨rfl, h⟩
  | cons s ss ih =>
    cases ts with
    -- the lengths differ
    | nil => simp at hlen
    | cons t ts =>
      obtain ⟨fitsHead, fitsTail⟩ := List.forall_mem_cons.1 hss
      obtain ⟨fitsHead', fitsTail'⟩ := List.forall_mem_cons.1 hts
      simp only [list, List.flatMap_cons, List.append_assoc] at h
      -- the first entries are the same, and so is what stands behind them
      obtain ⟨rfl, htail⟩ := hF fitsHead fitsHead' h
      obtain ⟨rfl, hrest⟩ := ih (Nat.succ.inj hlen) fitsTail fitsTail' htail
      exact ⟨rfl, hrest⟩

/-- A counted sequence is unambiguous if its entries are. -/
theorem counted_unambiguous {F : Form β α} (hF : F.Unambiguous) : F.counted.Unambiguous := by
  intro ss ts r r' hss hts h
  -- the counts settle that both have the same length
  simp only [counted, List.append_assoc] at h
  obtain ⟨hlen, hlist⟩ := leBytes_append_inj hss.1 hts.1 h
  exact list_append_inj hF hlen hss.2 hts.2 hlist

/-! ### Strings and constants -/

/-- What follows a size is cut off where the size says. -/
private theorem content_append_inj {s t : StoredString} {r r' : Bytes} (hsize : s.size = t.size)
    (h : s.content.getD [] ++ r = t.content.getD [] ++ r') : s.content = t.content ∧ r = r' := by
  -- both are absent, or both are as long as the size says
  unfold StoredString.size at hsize
  cases hs : s.content with
  | none =>
    cases ht : t.content with
    | none =>
      rw [hs, ht] at h
      exact ⟨rfl, h⟩
    | some bs => simp [hs, ht] at hsize
  | some as =>
    cases ht : t.content with
    | none => simp [hs, ht] at hsize
    | some bs =>
      simp only [hs, ht, Nat.add_right_cancel_iff] at hsize
      rw [hs, ht] at h
      obtain ⟨hcontent, hrest⟩ := List.append_inj h hsize
      exact ⟨congrArg some hcontent, hrest⟩

/-- The first byte of a string tells whether more of its size follows. -/
theorem string_unambiguous : string.Unambiguous := by
  rintro ⟨a, escaped⟩ ⟨b, escaped'⟩ r r' hs ht h
  cases escaped <;> cases escaped'
  -- two short sizes, each its own first byte
  · obtain ⟨hfirst, hcontent⟩ := List.cons.inj h
    have hsize := congrArg UInt8.toNat hfirst
    rw [StoredString.toNat_shortSize hs, StoredString.toNat_shortSize ht] at hsize
    obtain ⟨rfl, hrest⟩ := content_append_inj hsize hcontent
    exact ⟨rfl, hrest⟩
  -- a short size is less than the escape
  · have hsize := congrArg UInt8.toNat (List.cons.inj h).1
    rw [StoredString.toNat_shortSize hs] at hsize
    exact absurd hsize (Nat.ne_of_lt hs)
  · have hsize := congrArg UInt8.toNat (List.cons.inj h).1
    rw [StoredString.toNat_shortSize ht] at hsize
    exact absurd hsize.symm (Nat.ne_of_lt ht)
  -- two long sizes behind the escape
  · simp only [string, if_true, List.cons_append, List.append_assoc, List.cons.injEq,
      true_and] at h
    obtain ⟨hsize, hcontent⟩ := leBytes_append_inj hs ht h
    obtain ⟨rfl, hrest⟩ := content_append_inj hsize hcontent
    exact ⟨rfl, hrest⟩

/-- The tag of a constant tells its kind, and the kind how far it goes. -/
theorem constant_unambiguous : constant.Unambiguous := by
  intro k l r r' hk hl h
  cases k <;> cases l
  -- constants of the same kind: behind the tag stand two forms of one rule
  case nil.nil => exact ⟨rfl, (List.cons.inj h).2⟩
  case boolean.boolean b b' =>
    obtain ⟨rfl, hrest⟩ := truth_unambiguous trivial trivial (List.cons.inj h).2
    exact ⟨rfl, hrest⟩
  case float.float x x' =>
    obtain ⟨rfl, hrest⟩ := number_unambiguous trivial trivial (List.cons.inj h).2
    exact ⟨rfl, hrest⟩
  case integer.integer i i' =>
    obtain ⟨rfl, hrest⟩ := int_unambiguous trivial trivial (List.cons.inj h).2
    exact ⟨rfl, hrest⟩
  case string.string long s long' s' =>
    obtain ⟨htag, hstring⟩ := List.cons.inj h
    obtain ⟨rfl, hrest⟩ := string_unambiguous hk hl hstring
    -- the tag tells the two stored forms of a string apart
    cases long <;> cases long'
    · exact ⟨rfl, hrest⟩
    · exact absurd htag (by decide)
    · exact absurd htag (by decide)
    · exact ⟨rfl, hrest⟩
  -- no two kinds of constants have a tag in common
  case' nil.string long _ | boolean.string long _ | float.string long _ | integer.string long _ |
    string.nil long _ | string.boolean long _ _ | string.float long _ _ | string.integer long _ _ =>
    cases long
  all_goals exact absurd (List.cons.inj h).1 (by decide)

/-! ### Upvalues and local variables -/

theorem upvalue_unambiguous : upvalue.Unambiguous := by
  rintro ⟨_, _⟩ ⟨_, _⟩ r r' _ _ h
  obtain ⟨rfl, h⟩ := List.cons.inj h
  obtain ⟨rfl, hrest⟩ := List.cons.inj h
  exact ⟨rfl, hrest⟩

/-- A local variable is settled by its name and the two numbers behind it. -/
theorem localVariable_unambiguous : localVariable.Unambiguous := by
  rintro ⟨name, startPc, endPc⟩ ⟨name', startPc', endPc'⟩ r r' hv hv' h
  simp only [localVariable, List.append_assoc] at h
  obtain ⟨rfl, h₁⟩ := string_unambiguous hv hv' h
  obtain ⟨rfl, h₂⟩ := int_unambiguous trivial trivial h₁
  obtain ⟨rfl, hrest⟩ := int_unambiguous trivial trivial h₂
  exact ⟨rfl, hrest⟩

/-! ### Function records -/

/-- Two records that have their heads in common differ in their debug information at most. -/
private theorem headBytes_append_inj {s t : StoredRecord} {r r' : Bytes} (hs : s.Fits)
    (ht : t.Fits) (h : s.headBytes ++ r = t.headBytes ++ r') :
    { s with lineInfo := t.lineInfo, locals := t.locals, upvalueNames := t.upvalueNames } = t ∧
      r = r' := by
  obtain ⟨source, lineDefined, lastLineDefined, numParams, isVararg, maxStackSize, code, constants,
    upvalues, _, _, _⟩ := s
  obtain ⟨source', lineDefined', lastLineDefined', numParams', isVararg', maxStackSize', code',
    constants', upvalues', _, _, _⟩ := t
  simp only [StoredRecord.headBytes, List.append_assoc, List.cons_append, List.nil_append] at h
  -- the fields one after the other, each settled by the front of what is left
  obtain ⟨rfl, h₁⟩ := string_unambiguous hs.source ht.source h
  obtain ⟨rfl, h₂⟩ := int_unambiguous trivial trivial h₁
  obtain ⟨rfl, h₃⟩ := int_unambiguous trivial trivial h₂
  obtain ⟨rfl, h₄⟩ := List.cons.inj h₃
  obtain ⟨rfl, h₅⟩ := List.cons.inj h₄
  obtain ⟨rfl, h₆⟩ := List.cons.inj h₅
  obtain ⟨rfl, h₇⟩ := counted_unambiguous instruction_unambiguous hs.code ht.code h₆
  obtain ⟨rfl, h₈⟩ := counted_unambiguous constant_unambiguous hs.constants ht.constants h₇
  obtain ⟨rfl, hrest⟩ := counted_unambiguous upvalue_unambiguous hs.upvalues ht.upvalues h₈
  exact ⟨rfl, hrest⟩

/-- Debug information is settled by its bytes. -/
private theorem debugBytes_append_inj {s t : StoredRecord} {r r' : Bytes} (hs : s.Fits)
    (ht : t.Fits) (h : s.debugBytes ++ r = t.debugBytes ++ r') :
    (s.lineInfo = t.lineInfo ∧ s.locals = t.locals ∧ s.upvalueNames = t.upvalueNames) ∧
      r = r' := by
  simp only [StoredRecord.debugBytes, List.append_assoc] at h
  obtain ⟨hlineInfo, h₁⟩ := counted_unambiguous int_unambiguous hs.lineInfo ht.lineInfo h
  obtain ⟨hlocals, h₂⟩ := counted_unambiguous localVariable_unambiguous hs.locals ht.locals h₁
  obtain ⟨hnames, hrest⟩ :=
    counted_unambiguous string_unambiguous hs.upvalueNames ht.upvalueNames h₂
  exact ⟨⟨hlineInfo, hlocals, hnames⟩, hrest⟩

/-- The induction is on how deep functions may be nested, since the records inside a record are a
sequence of forms of one rule. -/
theorem function_unambiguous (depth room : Nat) : (function depth room).Unambiguous := by
  induction room generalizing depth with
  -- there are no records to compare where none may be opened
  | zero => exact fun hs => absurd hs.2 (Nat.not_lt_zero _)
  | succ room ih =>
    rintro ⟨s, cs⟩ ⟨t, ds⟩ r r' hs ht h
    obtain ⟨fitsRecord, fitsChildren⟩ := StoredFunction.fits_function_node.1 hs
    obtain ⟨fitsRecord', fitsChildren'⟩ := StoredFunction.fits_function_node.1 ht
    change StoredFunction.bytes (.node s cs) ++ r = StoredFunction.bytes (.node t ds) ++ r' at h
    simp only [StoredFunction.bytes_node (depth + 1) room, List.append_assoc] at h
    -- the head, then the children, then the debug information
    obtain ⟨hhead, h₁⟩ := headBytes_append_inj fitsRecord fitsRecord' h
    obtain ⟨rfl, h₂⟩ := counted_unambiguous (ih (depth + 1)) fitsChildren fitsChildren' h₁
    obtain ⟨⟨hlineInfo, hlocals, hnames⟩, hrest⟩ :=
      debugBytes_append_inj fitsRecord fitsRecord' h₂
    rw [← hlineInfo, ← hlocals, ← hnames] at hhead
    exact ⟨congrArg (FunctionTree.node · cs) hhead, hrest⟩

end Form

/-! ### Chunks -/

/-- A buffer begins with one function record at most. -/
theorem StoredFunction.append_inj {s t : StoredFunction} {r r' : Bytes} (hs : s.Fits)
    (ht : t.Fits) (h : s.bytes ++ r = t.bytes ++ r') : s = t ∧ r = r' := by
  -- enough room for both records, at whose depth the rule is that of all records
  let room := max s.height t.height + 1
  have hs : (Form.function 0 room).Fits s := ⟨hs, Nat.lt_succ_of_le (Nat.le_max_left ..)⟩
  have ht : (Form.function 0 room).Fits t := ⟨ht, Nat.lt_succ_of_le (Nat.le_max_right ..)⟩
  exact Form.function_unambiguous 0 room hs ht h

/-- To cut a chunk off a buffer in one way only, it is enough that its functions fit. -/
theorem StoredChunk.append_inj_of_main {chunk chunk' : StoredChunk} {r r' : Bytes}
    (hfits : chunk.main.Fits) (hfits' : chunk'.main.Fits)
    (h : chunk.bytes ++ r = chunk'.bytes ++ r') : chunk = chunk' ∧ r = r' := by
  obtain ⟨count, main⟩ := chunk
  obtain ⟨count', main'⟩ := chunk'
  simp only [bytes, List.append_assoc, List.append_cancel_left_eq, List.cons_append,
    List.cons.injEq] at h
  obtain ⟨rfl, hmain⟩ := h
  obtain ⟨rfl, hrest⟩ := StoredFunction.append_inj hfits hfits' hmain
  exact ⟨rfl, hrest⟩

/-- A buffer begins with one chunk at most, and what stands behind it is settled with it. -/
theorem StoredChunk.append_inj {chunk chunk' : StoredChunk} {r r' : Bytes} (hfits : chunk.Fits)
    (hfits' : chunk'.Fits) (h : chunk.bytes ++ r = chunk'.bytes ++ r') :
    chunk = chunk' ∧ r = r' :=
  append_inj_of_main hfits.main hfits'.main h

/-- Two chunks that fit and have the same bytes are the same. -/
theorem StoredChunk.bytes_inj {chunk chunk' : StoredChunk} (hfits : chunk.Fits)
    (hfits' : chunk'.Fits) (h : chunk.bytes = chunk'.bytes) : chunk = chunk' :=
  (append_inj hfits hfits' (congrArg (· ++ []) h)).1

end LuaChunk
