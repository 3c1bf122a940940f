import LuaChunk.Proofs.InstructionTexts

/-!
# Texts that stay on one line

A line of a listing is put together from names, numbers, constants and fixed words, and none of them
may break it. Numbers and words have no line feed. A quoted text shows one by an escape, so that a
string constant may have any content. A name breaks the line only if there is a line feed among its
bytes: in the text of a byte string the byte stands for itself and nothing else stands for it.

## Key results

* `Utf8.oneLine_decode`         a byte string without a line feed is text without one
* `Quoted.oneLine_ofString`     no quoted text has a line feed
* `Listing.oneLine_of_mem_ownLines`   nor has any line of a function whose names have none
-/

namespace LuaChunk

/-- Whether a text has no line feed in it. -/
def OneLine (text : String) : Prop :=
  '\n' ∉ text.toList

instance (text : String) : Decidable (OneLine text) :=
  inferInstanceAs (Decidable ('\n' ∉ text.toList))

namespace OneLine

@[simp] theorem append_iff {s t : String} : OneLine (s ++ t) ↔ OneLine s ∧ OneLine t := by
  rw [OneLine, String.toList_append, List.mem_append, not_or]
  rfl

theorem push {s : String} (h : OneLine s) {c : Char} (hc : c ≠ '\n') : OneLine (s.push c) := by
  rw [OneLine, String.toList_push, List.mem_append, List.mem_singleton, not_or]
  exact ⟨h, hc.symm⟩

/-- A text of characters stays on one line if none of them is a line feed. -/
theorem ofList_iff {cs : List Char} : OneLine (String.ofList cs) ↔ '\n' ∉ cs := by
  rw [OneLine, String.toList_ofList]

@[simp] theorem nat (n : Nat) : OneLine n.repr :=
  notMem_repr_nat (by decide) n

@[simp] theorem int (i : Int) : OneLine i.repr :=
  notMem_repr_int (by decide) (by decide) i

/-- A text in a text breaks the line if it does alone. -/
@[simp] theorem toString_string {s : String} : OneLine (toString s) ↔ OneLine s :=
  Iff.rfl

theorem ite {c : Prop} [Decidable c] {s t : String} (hs : OneLine s) (ht : OneLine t) :
    OneLine (if c then s else t) := by
  split <;> assumption

/-- Texts joined on one line stay on it if the text between them does. -/
theorem intercalate {sep : String} {ps : List String} (hsep : OneLine sep)
    (h : ∀ p ∈ ps, OneLine p) : OneLine (sep.intercalate ps) :=
  notMem_intercalate hsep h

end OneLine

/-! ### Byte strings as text -/

namespace Utf8

/-- The byte of a line feed. -/
def lineFeed : UInt8 := 0x0A

/-- No other number is the line feed, and one that is no character becomes another. -/
theorem ofNat_ne_lineFeed {n : Nat} (h : n ≠ 10) : Char.ofNat n ≠ '\n' := by
  intro heq
  rw [Char.ofNat] at heq
  -- the number is that of a character
  by_cases hvalid : n.isValidChar
  · rw [dif_pos hvalid] at heq
    -- any other number becomes the character zero
    exact h (congrArg Char.toNat heq)
  · rw [dif_neg hvalid] at heq
    exact absurd heq (by decide)

/-- Whether a sequence that has begun cannot end as a character below U+0040: some of its bits are
set already, or there is a byte to come that sets some and is not the last one. -/
def Sequence.Large (s : Sequence) : Prop :=
  0 < s.value ∨ 2 ≤ s.missing ∧ 0x90 ≤ s.low ∧ s.high ≤ 0xBF

/-- A byte that begins a sequence leads to no character below U+0040. -/
theorem Sequence.large_of_ofLead? {b : UInt8} {s : Sequence} (h : ofLead? b = some s) :
    s.Large := by
  have hpos : ∀ {low : UInt8} {base : Nat}, low ≤ b → base < low.toNat → 0 < b.toNat - base :=
    fun hle hlt => Nat.sub_pos_of_lt (Nat.lt_of_lt_of_le hlt (UInt8.le_iff_toNat_le.1 hle))
  unfold ofLead? at h
  -- only the lead bytes E0 and F0 set no bit, and after them the lowest next bytes are kept out
  split_ifs at h with hC2 hE0 hED hE1 hF0 hF1 hF4 <;> obtain rfl := Option.some.inj h
  · exact .inl (hpos hC2.1 (by decide))
  · exact .inr (by decide)
  · exact .inl (by decide)
  · exact .inl (hpos hE1.1 (by decide))
  · exact .inr (by decide)
  · exact .inl (hpos hF1.1 (by decide))
  · exact .inl (by decide)

/-- A byte that continues such a sequence sets some of its bits. -/
theorem Sequence.Large.value_pos {s : Sequence} (h : s.Large) {b : UInt8}
    (hb : s.low ≤ b ∧ b ≤ s.high) : 0 < s.value * 64 + b.toNat % 64 := by
  obtain hvalue | ⟨-, hlow, hhigh⟩ := h
  · omega
  · have hge := UInt8.le_iff_toNat_le.1 (UInt8.le_trans hlow hb.1)
    have hle := UInt8.le_iff_toNat_le.1 (UInt8.le_trans hb.2 hhigh)
    have hlower : UInt8.toNat 0x90 = 144 := rfl
    have hupper : UInt8.toNat 0xBF = 191 := rfl
    omega

namespace Progress

/-- Whether no line feed has been read, nor can one come of the sequence that has begun. -/
structure OnOneLine (p : Progress) : Prop where
  text : OneLine p.text
  pending : ∀ s, p.pending = some s → s.Large

/-- A byte that begins anew breaks no line unless it is a line feed. -/
theorem onOneLine_start {text : String} (h : OneLine text) {b : UInt8} (hb : b ≠ lineFeed) :
    (start text b).OnOneLine := by
  unfold start
  -- the byte is a character on its own
  split
  · have hne : b.toNat ≠ 10 := fun heq => hb (UInt8.toNat_inj.1 heq)
    exact ⟨h.push (ofNat_ne_lineFeed hne), nofun⟩
  -- it begins a sequence, or is taken for an invalid one
  · split
    · next s hs => exact ⟨h, fun _ hpending =>
        Option.some.inj hpending ▸ Sequence.large_of_ofLead? hs⟩
    · exact ⟨h.push (by decide), nofun⟩

/-- A byte that is no line feed leaves it so: it completes a character past U+003F, goes on with the
sequence, or is taken on its own. -/
theorem OnOneLine.step {p : Progress} (h : p.OnOneLine) {b : UInt8} (hb : b ≠ lineFeed) :
    (p.step b).OnOneLine := by
  unfold Progress.step
  split
  -- no sequence has begun
  · exact onOneLine_start h.text hb
  -- one has, and the byte goes on with it or breaks it off
  · next s hs =>
    have hlarge := h.pending s hs
    split
    · next hnext =>
      have hpos := hlarge.value_pos hnext
      dsimp only
      split
      · next hlast =>
        -- the last byte is there, so a bit was set before and is now past the sixth
        have hvalue : 0 < s.value := hlarge.resolve_right fun hmissing => by omega
        exact ⟨h.text.push (ofNat_ne_lineFeed (by omega)), nofun⟩
      · exact ⟨h.text, fun _ hpending => Option.some.inj hpending ▸ .inl hpos⟩
    -- the sequence is broken off, and the byte begins anew
    · exact onOneLine_start (h.text.push (by decide)) hb

/-- A sequence that is broken off at the end breaks no line. -/
theorem OnOneLine.finish {p : Progress} (h : p.OnOneLine) : OneLine p.finish := by
  unfold Progress.finish
  split
  · exact h.text
  · exact h.text.push (by decide)

end Progress

/-- In the text of a byte string there is no line feed but for a line feed among the bytes. -/
theorem oneLine_decode {bs : Bytes} (h : lineFeed ∉ bs) : OneLine (decode bs) := by
  refine Progress.OnOneLine.finish (List.foldlRecOn bs Progress.step ⟨by decide, nofun⟩ ?_)
  exact fun p hp b hb => hp.step fun heq => h (heq ▸ hb)

end Utf8

/-! ### Constants -/

/-- No digit is a line feed. -/
theorem digitChar_ne_lineFeed : ∀ d < 16, Nat.digitChar d ≠ '\n' := by
  decide

/-- A number in hexadecimal has no line feed. -/
theorem lineFeed_notMem_toDigits (n : Nat) : '\n' ∉ Nat.toDigits 16 n := by
  induction n using Nat.strongRecOn with
  | ind n ih =>
    rw [Nat.toDigits_eq_if (by decide)]
    split
    -- a single digit
    · next hlt => exact mt List.mem_singleton.1 (digitChar_ne_lineFeed n hlt).symm
    · next hge =>
      -- the last digit, behind those of the quotient
      have hdigit := digitChar_ne_lineFeed (n % 16) (Nat.mod_lt n (by decide))
      rw [List.mem_append, not_or, List.mem_singleton]
      exact ⟨ih (n / 16) (by omega), hdigit.symm⟩

namespace Quoted

/-- An escape by number has no line feed. -/
theorem lineFeed_notMem_numbered (c : Char) : '\n' ∉ numbered c := by
  rw [numbered, List.mem_append, List.mem_append, not_or, not_or]
  exact ⟨⟨by decide, lineFeed_notMem_toDigits c.toNat⟩, by decide⟩

/-- No character is quoted by a line feed, not even the line feed itself. -/
theorem lineFeed_notMem_escape (c : Char) : '\n' ∉ escape c := by
  unfold escape
  split
  any_goals decide
  -- a character that has no escape of its own, and so is no line feed
  next hne _ _ =>
  split
  · exact lineFeed_notMem_numbered c
  · exact mt List.mem_singleton.1 (Ne.symm hne)

/-- No quoted text has a line feed. -/
theorem oneLine_ofString (s : String) : OneLine (ofString s) := by
  rw [ofString, OneLine.ofList_iff, List.mem_append, List.mem_append, not_or, not_or,
    List.mem_flatMap]
  exact ⟨⟨by decide, fun ⟨c, _, hc⟩ => lineFeed_notMem_escape c hc⟩, by decide⟩

end Quoted

namespace Decimal

/-- The digits behind a point have no line feed. -/
theorem lineFeed_notMem_fractionDigits (places n : Nat) : '\n' ∉ fractionDigits places n := by
  induction places generalizing n with
  | zero => exact List.not_mem_nil
  | succ places ih =>
    have hdigit := digitChar_ne_lineFeed (n % 10) (by omega)
    rw [fractionDigits, List.mem_append, not_or, List.mem_singleton]
    exact ⟨ih (n / 10), hdigit.symm⟩

/-- A decimal number stays on one line. -/
theorem oneLine_text (d : Decimal) : OneLine d.text := by
  unfold text
  split
  · exact OneLine.nat d.digits
  · simp only [OneLine.append_iff, OneLine.ofList_iff]
    exact ⟨⟨OneLine.nat _, by decide⟩, lineFeed_notMem_fractionDigits _ _⟩

end Decimal

namespace Binary64

/-- The digits of a floating-point number stay on one line. -/
theorem oneLine_magnitudeText (x : Binary64) : OneLine x.magnitudeText := by
  unfold magnitudeText
  split
  -- a finite number, with a point or without one
  · dsimp only
    split
    · exact OneLine.append_iff.2 ⟨OneLine.nat _, by decide⟩
    · exact x.magnitude.shortest.oneLine_text
  · decide

/-- A floating-point number stays on one line, with a sign or as a NaN. -/
theorem oneLine_text (x : Binary64) : OneLine x.text := by
  unfold text
  split
  · decide
  · split
    · exact OneLine.append_iff.2 ⟨by decide, x.oneLine_magnitudeText⟩
    · exact x.oneLine_magnitudeText

end Binary64

/-- The text of a constant stays on one line, whatever it holds. -/
theorem Constant.oneLine_text (k : Constant Bytes) : OneLine k.text := by
  cases k with
  | nil => decide
  | boolean value => cases value <;> decide
  | float value => exact value.oneLine_text
  | integer value => exact OneLine.int value.toInt
  | string content => exact Quoted.oneLine_ofString _

/-! ### Names -/

/-- Whether no name in a record has a line feed: not that of the source, of a local variable or of
an upvalue. -/
structure FunctionRecord.NamesOnOneLine (r : FunctionRecord Bytes) : Prop where
  source : ∀ name ∈ r.source, Utf8.lineFeed ∉ name
  locals : ∀ v ∈ r.locals, Utf8.lineFeed ∉ v.name
  upvalues : ∀ u ∈ r.upvalues, ∀ name ∈ u.name, Utf8.lineFeed ∉ name

instance (r : FunctionRecord Bytes) : Decidable r.NamesOnOneLine :=
  decidable_of_iff ((∀ name ∈ r.source, Utf8.lineFeed ∉ name) ∧
      (∀ v ∈ r.locals, Utf8.lineFeed ∉ v.name) ∧
      ∀ u ∈ r.upvalues, ∀ name ∈ u.name, Utf8.lineFeed ∉ name)
    ⟨fun ⟨hsource, hlocals, hupvalues⟩ => ⟨hsource, hlocals, hupvalues⟩,
      fun ⟨hsource, hlocals, hupvalues⟩ => ⟨hsource, hlocals, hupvalues⟩⟩

/-- A source without a line feed is shown without one. -/
theorem FunctionRecord.NamesOnOneLine.sourceText {r : FunctionRecord Bytes}
    (h : r.NamesOnOneLine) : OneLine r.sourceText := by
  unfold FunctionRecord.sourceText
  split
  · next name hname => exact Utf8.oneLine_decode (h.source name hname)
  · decide

namespace Listing

variable {r : FunctionRecord Bytes}

/-! ### Lines -/

@[simp] theorem oneLine_plural (n : Nat) : OneLine (plural n) :=
  OneLine.ite (by decide) (by decide)

@[simp] theorem oneLine_counted_iff {n : Nat} {noun : String} :
    OneLine (counted n noun) ↔ OneLine noun := by
  simp +decide [counted]

/-- The title of a function is one line if its source is. -/
theorem oneLine_titleLine (h : r.NamesOnOneLine) : OneLine (titleLine r) := by
  have hkind : OneLine (if r.isMain then "main" else "function") :=
    OneLine.ite (by decide) (by decide)
  simp +decide [titleLine, hkind, h.sourceText]

/-- The summary of a function is one line. -/
theorem oneLine_summaryLine (r : FunctionRecord Bytes) (functions : Nat) :
    OneLine (summaryLine r functions) := by
  have hmore : OneLine (if r.isVararg then "+" else "") := OneLine.ite (by decide) (by decide)
  unfold summaryLine
  refine OneLine.intercalate (by decide) ?_
  simp +decide [hmore]

/-- The column of an instruction has no line feed. -/
theorem oneLine_instructionColumn (ins : Instruction) : OneLine (instructionColumn ins) := by
  rw [instructionColumn_eq, OneLine.append_iff, OneLine.append_iff]
  refine ⟨⟨notMem_padded (by decide) (notMem_shownName (by decide) _), by decide⟩, ?_⟩
  -- neither in hexadecimal nor in the operands
  cases h : ins.opcode? with
  | none =>
    rw [shownOperands_of_unknown h, OneLine.append_iff]
    exact ⟨by decide, Hex.notMem_padded (by decide) 8 _⟩
  | some op =>
    rw [shownOperands_of_opcode? h]
    exact notMem_operandText (by decide) (by decide) (by decide) op _

namespace Scope

/-- A constant in a remark has no line feed. -/
theorem oneLine_constantText (s : Scope) (index : Nat) : OneLine (s.constantText index) := by
  unfold constantText
  split
  · next k _ => exact k.oneLine_text
  · decide

/-- The name of an upvalue has a line feed only if it is stored with one. -/
theorem oneLine_upvalueName (h : r.NamesOnOneLine) (index : Nat) :
    OneLine ((ofRecord r).upvalueName index) := by
  unfold upvalueName
  split
  -- a name among the upvalues of the record
  · next name hname =>
    obtain ⟨u, hu, hname⟩ := Option.bind_eq_some_iff.1 hname
    have hmem : u ∈ r.upvalues := List.mem_of_getElem? (List.getElem?_toArray.symm.trans hu)
    exact Utf8.oneLine_decode (h.upvalues u hmem name hname)
  · decide

/-- A source line is shown without a line feed. -/
theorem oneLine_lineText (s : Scope) (pc : Nat) : OneLine (s.lineText pc) := by
  unfold lineText
  split
  · exact OneLine.int _
  · decide

/-- Nothing that is mentioned has a line feed. -/
theorem oneLine_mentionText (h : r.NamesOnOneLine) (m : Mention) :
    OneLine ((ofRecord r).mentionText m) := by
  cases m with
  | upvalue index => exact oneLine_upvalueName h index
  | constant index => exact oneLine_constantText _ index
  | noConstant => exact (by decide : OneLine "-")
  | target number => simp +decide [mentionText]
  | function index => simp +decide [mentionText]

/-- A remark has no line feed. -/
theorem oneLine_remark (h : r.NamesOnOneLine) (pc : Nat) (ins : Instruction) :
    OneLine ((ofRecord r).remark pc ins) := by
  unfold remark
  split
  · decide
  · split
    · decide
    · refine OneLine.append_iff.2 ⟨by decide, OneLine.intercalate (by decide) ?_⟩
      exact List.forall_mem_map.2 fun m _ => oneLine_mentionText h m

/-- The line of an instruction is one line. -/
theorem oneLine_instructionLine (h : r.NamesOnOneLine) (pc : Nat) (ins : Instruction) :
    OneLine ((ofRecord r).instructionLine pc ins) := by
  simp +decide [instructionLine, oneLine_lineText, oneLine_instructionColumn, oneLine_remark h]

end Scope

/-- Every line of a table of constants is one line. -/
theorem oneLine_of_mem_constantLines {l : String} (hl : l ∈ constantLines r) : OneLine l := by
  obtain rfl | hl := List.mem_cons.1 hl
  · simp +decide
  · obtain ⟨i, hi, rfl⟩ := List.mem_mapIdx.1 hl
    simp +decide [Constant.oneLine_text]

/-- Every line of a table of local variables is one line if their names are. -/
theorem oneLine_of_mem_localLines (h : r.NamesOnOneLine) {l : String} (hl : l ∈ localLines r) :
    OneLine l := by
  obtain rfl | hl := List.mem_cons.1 hl
  · simp +decide
  · obtain ⟨i, hi, rfl⟩ := List.mem_mapIdx.1 hl
    have hname := Utf8.oneLine_decode (h.locals r.locals[i] (List.getElem_mem hi))
    simp +decide [hname]

/-- Every line of a table of upvalues is one line if their names are. -/
theorem oneLine_of_mem_upvalueLines (h : r.NamesOnOneLine) {l : String}
    (hl : l ∈ upvalueLines r) : OneLine l := by
  obtain rfl | hl := List.mem_cons.1 hl
  · simp +decide
  · obtain ⟨i, hi, rfl⟩ := List.mem_mapIdx.1 hl
    simp +decide [Scope.oneLine_upvalueName h]

/-- Every line of a function is one line. -/
theorem oneLine_of_mem_ownLines (h : r.NamesOnOneLine) {options : ListingOptions} {functions : Nat}
    {l : String} (hl : l ∈ ownLines options r functions) : OneLine l := by
  simp only [ownLines, List.mem_append, List.mem_cons, List.mem_ite_nil_right] at hl
  -- the title, the summary, the instructions and the three tables
  obtain (((rfl | rfl | hcode) | ⟨-, hconstants⟩) | ⟨-, hlocals⟩) | ⟨-, hupvalues⟩ := hl
  · exact oneLine_titleLine h
  · exact oneLine_summaryLine r functions
  · obtain ⟨i, hi, rfl⟩ := List.mem_mapIdx.1 hcode
    exact Scope.oneLine_instructionLine h i _
  · exact oneLine_of_mem_constantLines hconstants
  · exact oneLine_of_mem_localLines h hlocals
  · exact oneLine_of_mem_upvalueLines h hupvalues

end Listing

end LuaChunk
