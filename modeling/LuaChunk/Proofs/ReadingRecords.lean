import LuaChunk.Proofs.Reading
import LuaChunk.Reader.Closure

/-!
# Reading function records

The reads of constants, upvalues, local variables and whole function records follow their rules of
the grammar. A record is read by recursion on how many records may still be opened, and its rule
says the same of depth.

## Key results

* `minRecordSize_le_length`   no function record is shorter than the smallest one
* `prototype_reads`           what `Read.prototype` accepts are the stored forms of records
-/

namespace LuaChunk

namespace Read

variable {α β : Type}

/-! ### Constants -/

/-- Reads a constant after its tag. -/
private def constantAfter (tag : UInt8) : Read (Constant Bytes) :=
  if tag = Constant.nilTag then
    pure .nil
  else if tag = Constant.booleanTag then do
    return .boolean (← truth)
  else if tag = Constant.floatTag then do
    return .float (← number)
  else if tag = Constant.integerTag then do
    return .integer (← integer)
  else if tag = Constant.shortStringTag ∨ tag = Constant.longStringTag then do
    let content := (← string).getD []
    note (.string content)
    return .string content
  else
    throw (.unrecognizedConstantTag tag)

/-- Reads a string constant after its tag. -/
private def stringConstant : Read (Constant Bytes) := do
  let content := (← string).getD []
  note (.string content)
  return .string content

/-- Both tags of strings announce the same. -/
private theorem constantAfter_stringTag (long : Bool) :
    constantAfter (if long then Constant.longStringTag else Constant.shortStringTag) =
      stringConstant := by
  cases long <;> rfl

/-- A string constant takes the bytes of its string, and is noted with an absent string as an empty
one. -/
private theorem takes_stringConstant {s : StoredString} (hs : Form.string.Fits s) (start : Nat) :
    Takes stringConstant start (Form.string.bytes s) (.string (s.content.getD []))
      #[.string (s.content.getD [])] := by
  have hnote := (takes_note (start + (Form.string.bytes s).length)
    (.string (s.content.getD []))).map fun _ => Constant.string (s.content.getD [])
  exact ((string_reads.takes s hs start).bind hnote).of_eq (List.append_nil _) rfl rfl

/-- A constant that fits has a tag, behind which its other bytes are taken. -/
private theorem takes_constantAfter {k : StoredConstant} (hk : Form.constant.Fits k)
    (start : Nat) :
    ∃ tag bs, Form.constant.bytes k = tag :: bs ∧
      Takes (constantAfter tag) start bs (Form.constant.value k)
        (Form.constant.findings start k) := by
  cases k with
  | nil =>
    exact ⟨_, _, rfl, takes_pure start Constant.nil⟩
  | boolean b =>
    exact ⟨_, _, rfl, (truth_reads.takes b trivial start).map Constant.boolean⟩
  | float x =>
    exact ⟨_, _, rfl, (number_reads.takes x trivial start).map Constant.float⟩
  | integer i =>
    exact ⟨_, _, rfl, ((int_reads.takes i trivial start).map Int32.toInt64).map Constant.integer⟩
  -- the only kind that has to fit and that is noted
  | string long s =>
    refine ⟨_, _, rfl, ?_⟩
    rw [constantAfter_stringTag]
    exact takes_stringConstant hk start

/-- Whatever is accepted behind a tag is a constant that fits, together with that tag. -/
private theorem constantAfter_eq_ok {tag : UInt8} {a : Constant Bytes} {r r' : Reader}
    (h : constantAfter tag r = .ok a r') :
    ∃ k, Form.constant.Fits k ∧ Form.constant.value k = a ∧
      tag :: r.rest = Form.constant.bytes k ++ r'.rest := by
  -- one case for each tag, in the order in which they are tried
  unfold constantAfter at h
  split at h
  · next htag =>
    obtain ⟨rfl, rfl⟩ := pure_eq_ok.1 h
    exact ⟨.nil, trivial, rfl, by rw [htag]; rfl⟩
  split at h
  · next htag =>
    obtain ⟨_, hb, rfl⟩ := map_eq_ok.1 h
    obtain ⟨b, _, rfl, hrest⟩ := truth_reads.accepts hb
    exact ⟨.boolean b, trivial, rfl, by rw [htag, hrest]; rfl⟩
  split at h
  · next htag =>
    obtain ⟨_, hx, rfl⟩ := map_eq_ok.1 h
    obtain ⟨x, _, rfl, hrest⟩ := number_reads.accepts hx
    exact ⟨.float x, trivial, rfl, by rw [htag, hrest]; rfl⟩
  split at h
  · next htag =>
    obtain ⟨_, hinteger, rfl⟩ := map_eq_ok.1 h
    obtain ⟨_, hi, rfl⟩ := map_eq_ok.1 hinteger
    obtain ⟨i, _, rfl, hrest⟩ := int_reads.accepts hi
    exact ⟨.integer i, trivial, rfl, by rw [htag, hrest]; rfl⟩
  split at h
  · next htag =>
    obtain ⟨_, _, hstring, h⟩ := bind_eq_ok.1 h
    obtain ⟨s, hs, rfl, hrest⟩ := string_reads.accepts hstring
    obtain ⟨_, hnote, rfl⟩ := map_eq_ok.1 h
    -- to note a string does not move the reader
    simp only [note, EStateM.Result.ok.injEq, true_and] at hnote
    subst hnote
    -- the two tags of strings stand for different stored forms of one constant
    rcases htag with htag | htag
    · exact ⟨.string false s, hs, rfl, by rw [htag, hrest]; rfl⟩
    · exact ⟨.string true s, hs, rfl, by rw [htag, hrest]; rfl⟩
  -- no other tag is accepted
  · exact absurd h throw_ne_ok

/-- What `Read.constant` accepts are the stored forms of constants. -/
theorem constant_reads : Reads constant Form.constant where
  takes k hk start := by
    -- the tag, and what it asks for
    obtain ⟨tag, bs, hbytes, hafter⟩ := takes_constantAfter hk (start + 1)
    have h := (byte_reads.takes tag trivial start).bind hafter
    exact h.of_eq hbytes.symm rfl (Array.empty_append)
  accepts {r a r'} h := by
    -- a tag that was read, and what was accepted behind it
    obtain ⟨tag, _, htag, h⟩ := bind_eq_ok.1 h
    obtain ⟨_, _, rfl, hrest⟩ := byte_reads.accepts htag
    obtain ⟨k, hk, rfl, hrest'⟩ := constantAfter_eq_ok h
    exact ⟨k, hk, rfl, hrest.trans hrest'⟩

/-! ### Upvalues and local variables -/

/-- What `Read.upvalue` accepts are the stored forms of upvalues. -/
theorem upvalue_reads : Reads upvalue Form.upvalue where
  takes u _ start :=
    Takes.of_eq ((truth_reads.takes u.inStack trivial start).bind
      ((byte_reads.takes u.index trivial _).map (Upvalue.mk _ · none))) rfl rfl rfl
  accepts {r a r'} h := by
    obtain ⟨_, _, hinStack, h⟩ := bind_eq_ok.1 h
    obtain ⟨inStack, _, rfl, hrest⟩ := truth_reads.accepts hinStack
    obtain ⟨_, hindex, rfl⟩ := map_eq_ok.1 h
    obtain ⟨index, _, rfl, hrest'⟩ := byte_reads.accepts hindex
    exact ⟨⟨inStack, index⟩, trivial, rfl, by rw [hrest, hrest']; rfl⟩

/-- What `Read.localVariable` accepts are the stored forms of local variables. -/
theorem localVariable_reads : Reads localVariable Form.localVariable where
  takes v hv start := by
    refine Takes.of_eq ((string_reads.takes v.name hv start).bind
      ((int_reads.takes v.startPc trivial _).bind
        ((int_reads.takes v.endPc trivial _).map (LocalVariable.mk _ _)))) ?_ rfl rfl
    exact (List.append_assoc ..).symm
  accepts {r a r'} h := by
    -- its name, then the two ends of its range
    obtain ⟨_, _, hname, h⟩ := bind_eq_ok.1 h
    obtain ⟨name, hfits, rfl, hrest⟩ := string_reads.accepts hname
    obtain ⟨_, _, hstart, h⟩ := bind_eq_ok.1 h
    obtain ⟨startPc, _, rfl, hrest'⟩ := int_reads.accepts hstart
    obtain ⟨_, hend, rfl⟩ := map_eq_ok.1 h
    obtain ⟨endPc, _, rfl, hrest''⟩ := int_reads.accepts hend
    refine ⟨⟨name, startPc, endPc⟩, hfits, rfl, ?_⟩
    rw [hrest, hrest', hrest'']
    simp only [Form.localVariable, List.append_assoc]

/-- Names go to upvalues by position. -/
theorem nameUpvalues_map_value (us : List StoredUpvalue) (names : List StoredString)
    (hle : names.length ≤ us.length) :
    nameUpvalues (us.map Form.upvalue.value) (names.map Form.string.value) =
      us.mapIdx fun i u =>
        { Form.upvalue.value u with name := names[i]?.bind Form.string.value } := by
  -- past the last name that is stored, the list of names has been filled up
  have hname : ∀ i < us.length,
      (names.map Form.string.value ++ List.replicate (us.length - names.length) none)[i]? =
        some (names[i]?.bind Form.string.value) := by
    intro i hi
    -- a name that is stored, and one that has been filled in
    by_cases hlt : i < names.length
    · rw [List.getElem?_append_left (by rwa [List.length_map]), List.getElem?_map,
        List.getElem?_eq_getElem hlt]
      rfl
    · rw [List.getElem?_append_right (by rw [List.length_map]; omega), List.length_map,
        List.getElem?_replicate_of_lt (by omega), List.getElem?_eq_none (Nat.le_of_not_lt hlt)]
      rfl
  unfold nameUpvalues
  rw [List.length_map, List.length_map]
  -- upvalue by upvalue, whether the index is one of them or not
  apply List.ext_getElem?
  intro i
  rw [List.getElem?_zipWith, List.getElem?_map, List.getElem?_mapIdx]
  by_cases hi : i < us.length
  · rw [hname i hi, List.getElem?_eq_getElem hi]
    rfl
  · rw [List.getElem?_eq_none (Nat.le_of_not_lt hi)]
    rfl

/-- Names that are not more than the upvalues are taken and given to them. -/
theorem takes_upvalueNames (options : ReadOptions) {us : List Upvalue} {names : List StoredString}
    (hnames : Form.string.counted.Fits names) (hle : names.length ≤ us.length) (start : Nat) :
    Takes (upvalueNames options us) start (Form.string.counted.bytes names)
      (nameUpvalues us (names.map Form.string.value))
      (Form.string.counted.findings start names) := by
  have hroom := Form.mul_length_le_length_list fun s (_ : s ∈ names) => one_le_length_string s
  have hlist := (takes_listOf string_reads hnames.2 (start + 4)).map (nameUpvalues us)
  refine Takes.count hnames.1 hroom ?_
  -- there are not more names than upvalues
  simp only [Nat.not_lt.2 hle, if_false]
  exact hlist

/-- Names that are accepted are strings that fit, and not more than there are upvalues. -/
theorem upvalueNames_eq_ok {options : ReadOptions} {us named : List Upvalue} {r r' : Reader}
    (h : upvalueNames options us r = .ok named r') :
    ∃ names, Form.string.counted.Fits names ∧ names.length ≤ us.length ∧
      nameUpvalues us (names.map Form.string.value) = named ∧
      r.rest = Form.string.counted.bytes names ++ r'.rest := by
  obtain ⟨n, _, hn, h⟩ := bind_eq_ok.1 h
  obtain ⟨hlt, hrest⟩ := count_eq_ok hn
  by_cases hle : n ≤ us.length
  -- the names that the count announces are read
  · simp only [Nat.not_lt.2 hle, if_false] at h
    obtain ⟨_, hlist, rfl⟩ := map_eq_ok.1 h
    obtain ⟨names, rfl, hnames, rfl, hrest'⟩ := listOf_eq_ok string_reads hlist
    refine ⟨names, ⟨hlt, hnames⟩, hle, rfl, ?_⟩
    rw [hrest, hrest', ← List.append_assoc]
    rfl
  -- more names than upvalues are turned down
  · simp only [Nat.lt_of_not_le hle, if_true] at h
    obtain ⟨_, _, hthrow, _⟩ := bind_eq_ok.1 h
    exact absurd hthrow throw_ne_ok

/-! ### Function records -/

/-- No function record is shorter than the smallest one. -/
theorem minRecordSize_le_length (t : StoredFunction) : minRecordSize ≤ t.bytes.length := by
  cases t with
  | node r cs =>
    -- the source takes a byte at the least, and all the rest a fixed number
    have hsource := one_le_length_string r.source
    rw [StoredFunction.bytes_node 0 0]
    simp only [StoredRecord.headBytes, StoredRecord.debugBytes, List.length_append,
      Form.length_counted, Form.int, Form.fixed, Bytes.length_leBytes, List.length_cons,
      List.length_nil, minRecordSize]
    omega

/-- What is noted of constants does not depend on where they stand. -/
theorem findings_constants (start start' : Nat) (ks : List StoredConstant) :
    Form.constant.counted.findings start ks = Form.constant.counted.findings start' ks := by
  have h : ∀ start start', Form.constant.findingsAll start ks =
      Form.constant.findingsAll start' ks := by
    induction ks with
    | nil => intro start start'; rfl
    | cons k ks ih => intro start start'; exact congrArg (_ ++ ·) (ih _ _)
  exact h _ _

/-- Where nothing is noted of an entry, nothing is noted of several. -/
theorem findings_of_quiet {F : Form β α} (hF : ∀ start s, F.findings start s = #[]) (start : Nat)
    (ss : List β) : F.counted.findings start ss = #[] := by
  have h : ∀ start, F.findingsAll start ss = #[] := by
    induction ss with
    | nil => intro start; rfl
    | cons s ss ih => intro start; rw [Form.findingsAll, hF, ih, Array.append_empty]
  exact h _

/-- What is read of the code of a function are counted instructions. -/
theorem code_reads (check : Bool) : Reads (counted check 4 instruction) Form.instruction.counted :=
  instruction_reads.counted fun _ _ => Nat.le_of_eq (Bytes.length_leBytes ..).symm

/-- What is read of the constants of a function are counted constants. -/
theorem constants_reads (check : Bool) : Reads (counted check 1 constant) Form.constant.counted :=
  constant_reads.counted fun k _ => one_le_length_constant k

/-- What is read of the upvalues of a function are counted upvalues. -/
theorem upvalues_reads (check : Bool) : Reads (counted check 2 upvalue) Form.upvalue.counted :=
  upvalue_reads.counted fun _ _ => Nat.le_refl 2

/-- What is read of the lines of a function are counted numbers. -/
theorem lineInfo_reads (check : Bool) : Reads (counted check 4 int) Form.int.counted :=
  int_reads.counted fun _ _ => Nat.le_of_eq (Bytes.length_leBytes ..).symm

/-- What is read of the local variables of a function are counted local variables. -/
theorem locals_reads (check : Bool) :
    Reads (counted check 9 localVariable) Form.localVariable.counted :=
  localVariable_reads.counted fun v _ => nine_le_length_localVariable v

/-- The function that a record stands for is put together from what is read of its parts. -/
theorem asStored_eq_read (depth room : Nat) {r : StoredRecord} (cs : List StoredFunction)
    (hle : r.upvalueNames.length ≤ r.upvalues.length) :
    StoredFunction.asStored (.node r cs) =
      .node
        { source := Form.string.value r.source
          lineDefined := Form.int.value r.lineDefined
          lastLineDefined := Form.int.value r.lastLineDefined
          numParams := Form.byte.value r.numParams
          isVararg := Form.truth.value r.isVararg
          maxStackSize := Form.byte.value r.maxStackSize
          code := Form.instruction.counted.value r.code
          constants := Form.constant.counted.value r.constants
          upvalues := nameUpvalues (Form.upvalue.counted.value r.upvalues)
            (r.upvalueNames.map Form.string.value)
          lineInfo := Form.int.counted.value r.lineInfo
          locals := Form.localVariable.counted.value r.locals }
        ((Form.function depth room).counted.value cs) := by
  -- words and lines stand for themselves, so that only the upvalues are more than their entries
  have hcode : Form.instruction.counted.value r.code = r.code := List.map_id' _
  have hlineInfo : Form.int.counted.value r.lineInfo = r.lineInfo := List.map_id' _
  have hnamed : nameUpvalues (Form.upvalue.counted.value r.upvalues)
      (r.upvalueNames.map Form.string.value) = r.namedUpvalues :=
    nameUpvalues_map_value r.upvalues r.upvalueNames hle
  rw [StoredFunction.asStored_node, hcode, hlineInfo, hnamed]
  rfl

section Node

variable {options : ReadOptions} {depth room : Nat} (hroom : depth + room = options.maxDepth)
  (hchildren : Reads (counted options.checkCounts minRecordSize (prototype options room))
    (Form.function (depth + 1) room).counted)

include hchildren

include hroom in
/-- A record whose children are read by their rule is read by its own. -/
theorem takes_prototype {r : StoredRecord} {cs : List StoredFunction} (hr : r.Fits)
    (hcs : (Form.function (depth + 1) room).counted.Fits cs) (start : Nat) :
    Takes (prototype options (room + 1)) start (StoredFunction.bytes (.node r cs))
      (StoredFunction.asStored (.node r cs))
      (StoredFunction.findings depth start (.node r cs)) := by
  have hnames : r.upvalueNames.length ≤ (Form.upvalue.counted.value r.upvalues).length := by
    rw [Form.length_value_counted]
    exact hr.length_upvalueNames_le
  rw [prototype]
  -- the fields in the order in which they are read
  refine Takes.of_eq ((takes_offset start).bind <|
    (string_reads.takes r.source hr.source _).bind <|
    (int_reads.takes r.lineDefined trivial _).bind <|
    (int_reads.takes r.lastLineDefined trivial _).bind <|
    (byte_reads.takes r.numParams trivial _).bind <|
    (truth_reads.takes r.isVararg trivial _).bind <|
    (byte_reads.takes r.maxStackSize trivial _).bind <|
    ((code_reads _).takes r.code hr.code _).bind <|
    ((constants_reads _).takes r.constants hr.constants _).bind <|
    ((upvalues_reads _).takes r.upvalues hr.upvalues _).bind <|
    (hchildren.takes cs hcs _).bind <|
    ((lineInfo_reads _).takes r.lineInfo hr.lineInfo _).bind <|
    ((locals_reads _).takes r.locals hr.locals _).bind <|
    (takes_upvalueNames options hr.upvalueNames hnames _).bind <|
    (takes_note _ _).bind <| takes_pure _ _) ?_ ?_ ?_
  -- the bytes of the fields, put together, are those of the record
  · rw [StoredFunction.bytes_node (depth + 1) room]
    simp only [StoredRecord.headBytes, StoredRecord.debugBytes, List.append_assoc,
      List.nil_append, List.append_nil]
    rfl
  -- so are their values
  · exact (asStored_eq_read (depth + 1) room cs hr.length_upvalueNames_le).symm
  · -- nothing is noted of the parts but the constants, the children and the record itself
    have hstring : ∀ start s, Form.string.findings start s = #[] := fun _ _ => rfl
    have hint : ∀ start i, Form.int.findings start i = #[] := fun _ _ => rfl
    have hbyte : ∀ start b, Form.byte.findings start b = #[] := fun _ _ => rfl
    have htruth : ∀ start b, Form.truth.findings start b = #[] := fun _ _ => rfl
    have hbyteLength : ∀ b, (Form.byte.bytes b).length = 1 := fun _ => rfl
    have htruthLength : ∀ b, (Form.truth.bytes b).length = 1 := fun _ => rfl
    have hdepth : options.maxDepth - room = depth := by omega
    rw [StoredFunction.findings_node depth room]
    simp only [findings_of_quiet (F := Form.instruction) fun _ _ => rfl,
      findings_of_quiet (F := Form.upvalue) fun _ _ => rfl,
      findings_of_quiet (F := Form.localVariable) fun _ _ => rfl,
      findings_of_quiet hstring, findings_of_quiet hint, hstring, hint, hbyte, htruth,
      Array.empty_append, Array.append_empty, ← Array.append_assoc, hdepth,
      Form.length_value_counted, hbyteLength, htruthLength, StoredRecord.headBytes,
      List.length_append, List.length_cons, List.length_nil, ← Nat.add_assoc, Nat.add_zero]
    rw [findings_constants _ start]
    rfl

/-- Whatever is read as a record is one, if whatever is read as its children are. -/
theorem prototype_eq_ok {q q' : Reader} {p : Prototype Bytes}
    (h : prototype options (room + 1) q = .ok p q') :
    ∃ r cs, r.Fits ∧ (Form.function (depth + 1) room).counted.Fits cs ∧
      StoredFunction.asStored (.node r cs) = p ∧
      q.rest = StoredFunction.bytes (.node r cs) ++ q'.rest := by
  rw [prototype] at h
  -- every read of the record has succeeded
  obtain ⟨start, _, hstart, h⟩ := bind_eq_ok.1 h
  obtain ⟨_, _, hsource, h⟩ := bind_eq_ok.1 h
  obtain ⟨_, _, hlineDefined, h⟩ := bind_eq_ok.1 h
  obtain ⟨_, _, hlastLineDefined, h⟩ := bind_eq_ok.1 h
  obtain ⟨_, _, hnumParams, h⟩ := bind_eq_ok.1 h
  obtain ⟨_, _, hisVararg, h⟩ := bind_eq_ok.1 h
  obtain ⟨_, _, hmaxStackSize, h⟩ := bind_eq_ok.1 h
  obtain ⟨_, _, hcode, h⟩ := bind_eq_ok.1 h
  obtain ⟨_, _, hconstants, h⟩ := bind_eq_ok.1 h
  obtain ⟨_, _, hupvalues, h⟩ := bind_eq_ok.1 h
  obtain ⟨_, _, hprotos, h⟩ := bind_eq_ok.1 h
  obtain ⟨_, _, hlineInfo, h⟩ := bind_eq_ok.1 h
  obtain ⟨_, _, hlocals, h⟩ := bind_eq_ok.1 h
  obtain ⟨_, _, hnames, h⟩ := bind_eq_ok.1 h
  obtain ⟨_, hnote, rfl⟩ := map_eq_ok.1 h
  -- neither the offset nor the note at the end moves the reader
  simp only [offset, EStateM.Result.ok.injEq] at hstart
  obtain ⟨-, rfl⟩ := hstart
  simp only [note, EStateM.Result.ok.injEq, true_and] at hnote
  subst hnote
  -- so that it has taken a form of its rule
  obtain ⟨source, fitsSource, rfl, hrest₁⟩ := string_reads.accepts hsource
  obtain ⟨lineDefined, _, rfl, hrest₂⟩ := int_reads.accepts hlineDefined
  obtain ⟨lastLineDefined, _, rfl, hrest₃⟩ := int_reads.accepts hlastLineDefined
  obtain ⟨numParams, _, rfl, hrest₄⟩ := byte_reads.accepts hnumParams
  obtain ⟨isVararg, _, rfl, hrest₅⟩ := truth_reads.accepts hisVararg
  obtain ⟨maxStackSize, _, rfl, hrest₆⟩ := byte_reads.accepts hmaxStackSize
  obtain ⟨code, fitsCode, rfl, hrest₇⟩ := (code_reads _).accepts hcode
  obtain ⟨constants, fitsConstants, rfl, hrest₈⟩ := (constants_reads _).accepts hconstants
  obtain ⟨upvalues, fitsUpvalues, rfl, hrest₉⟩ := (upvalues_reads _).accepts hupvalues
  obtain ⟨cs, fitsChildren, rfl, hrest₁₀⟩ := hchildren.accepts hprotos
  obtain ⟨lineInfo, fitsLineInfo, rfl, hrest₁₁⟩ := (lineInfo_reads _).accepts hlineInfo
  obtain ⟨locals, fitsLocals, rfl, hrest₁₂⟩ := (locals_reads _).accepts hlocals
  obtain ⟨upvalueNames, fitsNames, hle, rfl, hrest₁₃⟩ := upvalueNames_eq_ok hnames
  rw [Form.length_value_counted] at hle
  -- and these forms, one after the other, are a record
  refine ⟨⟨source, lineDefined, lastLineDefined, numParams, isVararg, maxStackSize, code, constants,
    upvalues, lineInfo, locals, upvalueNames⟩, cs, ⟨fitsSource, fitsCode, fitsConstants,
    fitsUpvalues, fitsLineInfo, fitsLocals, fitsNames, hle⟩, fitsChildren,
    asStored_eq_read (depth + 1) room cs hle, ?_⟩
  rw [hrest₁, hrest₂, hrest₃, hrest₄, hrest₅, hrest₆, hrest₇, hrest₈, hrest₉, hrest₁₀, hrest₁₁,
    hrest₁₂, hrest₁₃, StoredFunction.bytes_node (depth + 1) room]
  simp only [StoredRecord.headBytes, StoredRecord.debugBytes, List.append_assoc]
  rfl

end Node

/-- What is read at a depth are the records that keep to the limit on nesting. -/
theorem prototype_reads {options : ReadOptions} {depth room : Nat}
    (hroom : depth + room = options.maxDepth + 1) :
    Reads (prototype options room) (Form.function depth room) := by
  induction room generalizing depth with
  | zero =>
    -- no record may be opened, and no tree has a height below zero
    exact ⟨fun t ht => absurd ht.2 (Nat.not_lt_zero _), fun h => absurd h throw_ne_ok⟩
  | succ room ih =>
    have hchildren : Reads (counted options.checkCounts minRecordSize (prototype options room))
        (Form.function (depth + 1) room).counted :=
      (ih (by omega)).counted fun t _ => minRecordSize_le_length t
    constructor
    -- a form of the rule is a record with children, for which there is room
    · rintro ⟨r, cs⟩ ht start
      obtain ⟨hr, hcs⟩ := StoredFunction.fits_function_node.1 ht
      exact takes_prototype (by omega) hchildren hr hcs start
    -- and what is read is a record whose children have been read by their rule
    · intro q p q' h
      obtain ⟨r, cs, hr, hcs, hvalue, hrest⟩ := prototype_eq_ok hchildren h
      exact ⟨.node r cs, StoredFunction.fits_function_node.2 ⟨hr, hcs⟩, hvalue, hrest⟩

end Read

end LuaChunk
