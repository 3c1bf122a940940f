import LuaChunk.Proofs.Loading
import LuaChunk.Proofs.Steps

/-!
# Why a chunk is rejected behind its header

A failure behind the header tells the truth about the buffer: how many bytes were wanted and left,
which byte is no tag, how many names there are for how many upvalues, which limit was passed. This
is proved read by read, for readers anywhere in the buffer. The number of upvalues is compared last,
when the main function has been read to its end, so that in a chunk that fails for it only the byte
that declares the number is wrong.

## Key results

* `Truthful.bind_of_ok`       what two reads report truly they report one after the other
* `prototype_truthful`        why a record is not read is true of the buffer
* `closure_eq_error`          a chunk fails for a true cause, or for its number of upvalues
* `outcome_load_of_hasMain`   a complete main function leaves only its upvalues to be compared
* `cause_of_load`             what a failure behind the header tells
-/

namespace LuaChunk

/-- The bytes with which a constant can begin. -/
def Constant.tags : List UInt8 :=
  [nilTag, booleanTag, floatTag, integerTag, shortStringTag, longStringTag]

/-- Whether a cause is true of a read somewhere in `bs`, with a limit on nesting. -/
def Cause.TrueOf (limit : Nat) (bs : Bytes) : Cause → Prop
  | .bufferUnderrun requested remaining => remaining < requested ∧ remaining ≤ bs.length
  | .unrecognizedConstantTag tag => tag ∉ Constant.tags ∧ tag ∈ bs
  | .upvalueNameOverflow upvalues names => upvalues < names
  | .nestingTooDeep passed => passed = limit
  | _ => False

namespace Read

variable {α γ : Type} {limit : Nat} {bs : Bytes}

/-- A reader somewhere in `bs` is still there when `x` has succeeded, and when `x` fails the cause
is true. -/
structure Truthful (limit : Nat) (bs : Bytes) (x : Read α) : Prop where
  ok : ∀ {r a r'}, r.rest <:+ bs → x r = .ok a r' → r'.rest <:+ bs
  error : ∀ {r cause r'}, r.rest <:+ bs → x r = .error cause r' → cause.TrueOf limit bs

namespace Truthful

/-- A read of a fixed number of bytes fails when fewer are left. -/
theorem piece {n : Nat} {x : Read α} (h : Piece n x) : Truthful limit bs x where
  ok {r a r'} hr hok := by
    obtain ⟨start, _, findings⟩ := r
    obtain ⟨front, rest, notes, rfl, rfl, -⟩ := h.retraces.ok hok
    exact (List.suffix_append front rest).trans hr
  error hr herror := by
    obtain ⟨hlt, rfl, -⟩ := h.eq_of_error herror
    exact ⟨hlt, hr.length_le⟩

theorem pure (a : α) : Truthful limit bs (pure a : Read α) :=
  piece (pure_piece a)

theorem throw {cause : Cause} (h : cause.TrueOf limit bs) :
    Truthful limit bs (throw cause : Read α) where
  ok _ hok := absurd hok throw_ne_ok
  error _ herror := by
    obtain ⟨rfl, -⟩ := EStateM.Result.error.inj herror
    exact h

/-- What is read second may depend on what was read first, and where. -/
theorem bind_of_ok {x : Read α} {f : α → Read γ} (hx : Truthful limit bs x)
    (hf : ∀ {r a r'}, r.rest <:+ bs → x r = .ok a r' → Truthful limit bs (f a)) :
    Truthful limit bs (x >>= f) where
  ok hr hok := by
    obtain ⟨a, between, hxok, hok⟩ := bind_eq_ok.1 hok
    exact (hf hr hxok).ok (hx.ok hr hxok) hok
  error hr herror := by
    -- the first read fails, or the second does where the first has stopped
    rcases bind_eq_error.1 herror with herror | ⟨a, between, hxok, herror⟩
    · exact hx.error hr herror
    · exact (hf hr hxok).error (hx.ok hr hxok) herror

/-- Two reads in a row report truly what each of them does. -/
theorem bind {x : Read α} {f : α → Read γ} (hx : Truthful limit bs x)
    (hf : ∀ a, Truthful limit bs (f a)) : Truthful limit bs (x >>= f) :=
  hx.bind_of_ok fun _ _ => hf _

theorem map {x : Read α} (hx : Truthful limit bs x) (f : α → γ) :
    Truthful limit bs (do return f (← x)) :=
  hx.bind fun _ => .pure _

/-- A choice between two reads is truthful if each of them is where it is chosen. -/
theorem ite {p : Prop} [Decidable p] {x y : Read α} (hx : p → Truthful limit bs x)
    (hy : ¬p → Truthful limit bs y) : Truthful limit bs (if p then x else y) := by
  by_cases hp : p
  · rw [if_pos hp]
    exact hx hp
  · rw [if_neg hp]
    exact hy hp

/-- The check for `n` bytes fails when fewer are left. -/
theorem ensure (n : Nat) : Truthful limit bs (ensure n) where
  ok hr hok := by
    obtain ⟨-, rfl⟩ := ensure_eq_ok.1 hok
    exact hr
  error hr herror := by
    obtain ⟨hlt, rfl, -⟩ := ensure_eq_error.1 herror
    exact ⟨hlt, hr.length_le⟩

/-- Several entries fail for the cause for which one of them fails. -/
theorem listOf {x : Read α} (hx : Truthful limit bs x) (n : Nat) :
    Truthful limit bs (listOf n x) := by
  induction n with
  | zero => exact .pure []
  | succ n ih =>
    rw [listOf_succ]
    exact hx.bind fun _ => ih.map _

end Truthful

/-! ### Values, strings and sequences -/

theorem byte_truthful : Truthful limit bs byte :=
  .piece byte_piece

theorem truth_truthful : Truthful limit bs truth :=
  byte_truthful.map _

/-- A number is wanted where fewer bytes than its width are left. -/
theorem nat_truthful (width : Nat) : Truthful limit bs (nat width) :=
  (Truthful.piece (raw_piece width)).map _

/-- A signed number is wanted where fewer than four bytes are left. -/
theorem int_truthful : Truthful limit bs int :=
  (nat_truthful 4).map _

/-- A string fails where its size or its content is longer than what is left. -/
theorem string_truthful : Truthful limit bs string := by
  have hcontent : ∀ size : Nat, Truthful limit bs
      (if size = 0 then pure none else do return some (← raw (size - 1))) :=
    fun size => .ite (fun _ => .pure none) fun _ => (Truthful.piece (raw_piece _)).map some
  exact byte_truthful.bind fun short =>
    .ite (fun _ => (nat_truthful 8).bind hcontent) fun _ => (Truthful.pure _).bind hcontent

/-- A count fails where its four bytes or the room it checks for are missing. -/
theorem count_truthful (check : Bool) (entrySize : Nat) :
    Truthful limit bs (count check entrySize) := by
  refine (nat_truthful 4).bind fun n => ?_
  cases check with
  | false => exact .pure n
  | true => exact (Truthful.ensure _).bind fun _ => .pure n

/-- A counted sequence fails for its count or for one of its entries. -/
theorem Truthful.counted {x : Read α} (hx : Truthful limit bs x) (check : Bool)
    (entrySize : Nat) : Truthful limit bs (counted check entrySize x) :=
  (count_truthful check entrySize).bind hx.listOf

/-! ### Function records -/

/-- A byte is reported as a tag when it is none of the tags that there are. -/
theorem constant_truthful : Truthful limit bs constant := by
  refine byte_truthful.bind_of_ok fun {r tag r'} hr htag => ?_
  have hmem : tag ∈ bs := by
    obtain ⟨_, -, rfl, hrest⟩ := byte_reads.accepts htag
    exact hr.subset (hrest ▸ List.mem_cons_self)
  refine .ite (fun _ => .pure _) fun hnil => .ite (fun _ => truth_truthful.map _) fun hboolean =>
    .ite (fun _ => ((nat_truthful 8).map _).map _) fun hfloat =>
    .ite (fun _ => (int_truthful.map _).map _) fun hinteger => .ite (fun _ => ?_) fun hstring =>
    .throw ⟨?_, hmem⟩
  -- a string constant fails as its string does
  · exact string_truthful.bind fun _ => .bind (.piece (note_piece _)) fun _ => .pure _
  -- a byte that passed none of the tests is none of the tags
  · simp [Constant.tags, hnil, hboolean, hfloat, hinteger, not_or.1 hstring]

theorem upvalue_truthful : Truthful limit bs upvalue :=
  truth_truthful.bind fun _ => byte_truthful.map _

/-- A local variable fails as its name or one of its numbers does. -/
theorem localVariable_truthful : Truthful limit bs localVariable :=
  string_truthful.bind fun _ => int_truthful.bind fun _ => int_truthful.map _

/-- Names are turned down when there are more of them than upvalues. -/
theorem upvalueNames_truthful (options : ReadOptions) (us : List Upvalue) :
    Truthful limit bs (upvalueNames options us) := by
  refine (count_truthful _ _).bind fun n => ?_
  have hnames : Truthful limit bs (do return nameUpvalues us (← listOf n string)) :=
    (string_truthful.listOf n).map _
  -- the numbers are compared before a name is read
  have hthrow : us.length < n →
      Truthful limit bs (throw (.upvalueNameOverflow us.length n) : Read Unit) :=
    fun hlt => .throw hlt
  exact .ite (fun hlt => (hthrow hlt).bind fun _ => hnames) fun _ => hnames

/-- Why a record is not read is true of the buffer, however deep the place where it fails. -/
theorem prototype_truthful (options : ReadOptions) (room : Nat) :
    Truthful options.maxDepth bs (prototype options room) := by
  induction room with
  -- no record may be opened, and the limit is the one that was set
  | zero => exact .throw rfl
  | succ room ih =>
    -- the fields in the order in which they are read
    exact .bind (.piece offset_piece) fun _ => string_truthful.bind fun _ =>
      int_truthful.bind fun _ => int_truthful.bind fun _ => byte_truthful.bind fun _ =>
      truth_truthful.bind fun _ => byte_truthful.bind fun _ =>
      (((nat_truthful 4).map _).counted _ 4).bind fun _ =>
      (constant_truthful.counted _ 1).bind fun _ => (upvalue_truthful.counted _ 2).bind fun _ =>
      (ih.counted _ minRecordSize).bind fun _ => (int_truthful.counted _ 4).bind fun _ =>
      (localVariable_truthful.counted _ 9).bind fun _ =>
      (upvalueNames_truthful options _).bind fun _ => .bind (.piece (note_piece _)) fun _ =>
      .pure _

end Read

/-! ### The number of upvalues -/

/-- Whether a buffer begins with a header, a byte that declares a number of upvalues, and a complete
main function that has `actual` upvalues. -/
def HasMain (limit : Nat) (bs : Bytes) (declared : UInt8) (actual : Nat) : Prop :=
  ∃ main : StoredFunction, (main.Fits ∧ main.height ≤ limit) ∧
    main.record.upvalues.length = actual ∧ (StoredChunk.mk declared main).bytes <+: bs

namespace HasMain

variable {limit actual : Nat} {bs : Bytes} {declared : UInt8}

/-- The byte behind the header declares the number of upvalues. -/
theorem getElem?_eq (h : HasMain limit bs declared actual) : bs[29]? = some declared := by
  obtain ⟨main, -, -, rest, rfl⟩ := h
  rfl

/-- Where the number of upvalues is declared nothing else is told. -/
theorem set (h : HasMain limit bs declared actual) (v : UInt8) :
    HasMain limit (bs.set 29 v) v actual := by
  obtain ⟨main, hmain, hactual, rest, rfl⟩ := h
  exact ⟨main, hmain, hactual, rest, rfl⟩

end HasMain

namespace Read

/-- What fails in front of the number of upvalues or behind it fails for a cause that is true of the
bytes behind it. -/
theorem parts_truthful {options : ReadOptions} {body : Bytes} {cause : Cause} {r : Reader}
    (herror : parts options (.ofBytes (Header.bytes ++ body)) = .error cause r) :
    cause.TrueOf options.maxDepth (body.drop 1) := by
  have hheader := header_reads.takes () trivial 0 body #[]
  -- the header does not fail, and the reader stands behind it
  rcases bind_eq_error.1 herror with hfail | ⟨_, between, hok, hbehind⟩
  · exact nomatch hfail.symm.trans hheader
  obtain ⟨-, rfl⟩ := EStateM.Result.ok.inj (hok.symm.trans hheader)
  cases body with
  | nil =>
    -- nothing follows the header
    obtain ⟨rfl, -⟩ := EStateM.Result.error.inj hbehind
    exact ⟨Nat.one_pos, Nat.le_refl 0⟩
  | cons declared rest =>
    rcases bind_eq_error.1 hbehind with hfail | ⟨_, _, hbyte, hmain⟩
    · exact nomatch hfail
    -- what is left for the main function is all that follows the number of upvalues
    obtain ⟨rfl, rfl⟩ := EStateM.Result.ok.inj hbyte
    exact ((prototype_truthful options _).map _).error (List.suffix_refl _) hmain

/-- A chunk whose header is accepted fails for a cause that is true of what follows the number of
upvalues, or for that number. -/
theorem closure_eq_error {options : ReadOptions} {bs : Bytes} (hheader : Header.bytes <+: bs)
    {cause : Cause} {r : Reader} (herror : closure options (.ofBytes bs) = .error cause r) :
    cause.TrueOf options.maxDepth (bs.drop 30) ∨
    ∃ declared actual, HasMain options.maxDepth bs declared actual ∧ declared.toNat ≠ actual ∧
      cause = .upvalueCountMismatch declared.toNat actual := by
  rw [closure_eq] at herror
  rcases bind_eq_error.1 herror with hparts | ⟨parts, between, hparts, hassemble⟩
  -- the failure is in front of the comparison
  · obtain ⟨body, rfl⟩ := hheader
    exact .inl (parts_truthful hparts)
  -- it is the comparison of the number of upvalues that fails
  · obtain ⟨chunk, hmain, hheight, rfl, hrest⟩ := parts_eq_ok hparts
    obtain ⟨hne, rfl⟩ := assemble_eq_error hassemble
    rw [chunk.main.length_upvalues_asStored] at hne
    refine .inr ⟨chunk.upvalueCount, _, ⟨chunk.main, ⟨hmain, hheight⟩, rfl, between.rest,
      hrest.symm⟩, hne, ?_⟩
    rw [chunk.main.length_upvalues_asStored]

end Read

/-- When the main function is complete there is only the number of its upvalues to be compared. -/
theorem outcome_load_of_hasMain {options : LoadOptions} {bs : Bytes} {declared : UInt8}
    {actual : Nat} (h : HasMain options.maxDepth bs declared actual) (table : StringTable)
    (name : String) :
    (declared.toNat = actual → ∃ c, (load options table name bs).outcome = .ok c) ∧
    (declared.toNat ≠ actual → (load options table name bs).outcome =
      .error (.ofCause name (.upvalueCountMismatch declared.toNat actual))) := by
  obtain ⟨main, ⟨hfits, hheight⟩, rfl, rest, rfl⟩ := h
  refine ⟨fun heq => ⟨_, outcome_load_append options table name ⟨⟨hfits, heq⟩, hheight⟩ rest⟩,
    fun hne => ?_⟩
  obtain ⟨notes, htakes⟩ := Read.takes_parts options.toReadOptions ⟨declared, main⟩ hfits hheight 0
  -- what is compared are the upvalues of the function that was read
  rw [← main.length_upvalues_asStored] at hne ⊢
  have herror := (Read.bind_of_ok (htakes rest #[]) Read.assemble).trans
    (Read.assemble_of_ne _ hne)
  rw [← Read.closure_eq] at herror
  exact outcome_load_of_error herror

/-- What a failure behind the header of a chunk tells. Bytes that are wanted are more than are left,
and these are no more than follow the header; a byte that is reported as a tag is none, and stands
behind the number of upvalues; names that are too many are more than the upvalues; the limit that
was passed is the one that was set. If the number of upvalues is wrong, it is the one that stands
behind the header, and the main function is complete: declaring another number makes the chunk load
if it is right, and fail in the same way if not. No number is right for a main function with more
than 255 upvalues. -/
theorem cause_of_load (options : LoadOptions) (table : StringTable) (name : String) (bs : Bytes)
    (hheader : Header.bytes <+: bs) :
    (∀ error, (load options table name bs).outcome = .error error →
      (∃ requested remaining, error.cause = .bufferUnderrun requested remaining ∧
        remaining < requested ∧ remaining ≤ bs.length - 29) ∨
      (∃ tag, error.cause = .unrecognizedConstantTag tag ∧
        tag ∉ [0x00, 0x01, 0x03, 0x13, 0x04, 0x14] ∧ ∃ i, 30 ≤ i ∧ bs[i]? = some tag) ∨
      (∃ upvalues names, error.cause = .upvalueNameOverflow upvalues names ∧
        upvalues < names) ∨
      error.cause = .nestingTooDeep options.maxDepth ∨
      ∃ declared actual, error.cause = .upvalueCountMismatch declared.toNat actual ∧
        bs[29]? = some declared ∧ declared.toNat ≠ actual ∧
        HasMain options.maxDepth bs declared actual ∧
        ∀ v : UInt8,
          let outcome := (load options table name (bs.set 29 v)).outcome
          (v.toNat = actual → ∃ c, outcome = .ok c) ∧
          (v.toNat ≠ actual →
            outcome = .error (.ofCause name (.upvalueCountMismatch v.toNat actual)))) ∧
    ∀ declared actual, HasMain options.maxDepth bs declared actual → 255 < actual →
      (load options table name bs).outcome =
        .error (.ofCause name (.upvalueCountMismatch declared.toNat actual)) := by
  refine ⟨fun error hload => ?_, fun declared actual hmain hlt => ?_⟩
  -- a chunk that is read does not fail to load
  · cases hread : Read.closure options.toReadOptions (.ofBytes bs) with
    | ok stored r =>
      rw [outcome_load_of_ok hread] at hload
      contradiction
    | error cause r =>
      rw [outcome_load_of_error hread, Except.error.injEq] at hload
      obtain rfl := hload
      rcases Read.closure_eq_error hheader hread with htrue | ⟨declared, actual, hmain, hne, rfl⟩
      -- a cause that is true of the bytes behind the number of upvalues, by what it tells
      · cases cause with
        | bufferUnderrun requested remaining =>
          obtain ⟨hlt, hle⟩ := htrue
          rw [List.length_drop] at hle
          exact .inl ⟨requested, remaining, rfl, hlt, by omega⟩
        | unrecognizedConstantTag tag =>
          obtain ⟨htag, hmem⟩ := htrue
          obtain ⟨i, hi⟩ := List.mem_iff_getElem?.1 hmem
          rw [List.getElem?_drop] at hi
          exact .inr (.inl ⟨tag, rfl, htag, 30 + i, Nat.le_add_right 30 i, hi⟩)
        | upvalueNameOverflow upvalues names =>
          exact .inr (.inr (.inl ⟨upvalues, names, rfl, htrue⟩))
        | nestingTooDeep passed =>
          exact .inr (.inr (.inr (.inl (congrArg Cause.nestingTooDeep htrue))))
        | _ => exact htrue.elim
      -- the number of upvalues; declaring the right one lets the chunk load
      · exact .inr (.inr (.inr (.inr ⟨declared, actual, rfl, hmain.getElem?_eq, hne, hmain,
          fun v => outcome_load_of_hasMain (hmain.set v) table name⟩)))
  -- a byte declares 255 upvalues at most
  · have hbyte : declared.toNat < 256 := declared.toNat_lt
    exact (outcome_load_of_hasMain hmain table name).2 (by omega)

/-- A sample that declares seven upvalues for a main function with two. -/
theorem cause_of_load_sample :
    let bs := StoredChunk.sample.bytes.set 29 7
    let table := StringTable.empty 0
    Header.bytes <+: bs ∧
      (load {} table "sample" bs).outcome =
        .error (.ofCause "sample" (.upvalueCountMismatch 7 2)) ∧
      (∃ c, (load {} table "sample" (bs.set 29 2)).outcome = .ok c) ∧
      (load {} table "sample" (bs.set 29 3)).outcome =
        .error (.ofCause "sample" (.upvalueCountMismatch 3 2)) := by
  intro bs table
  have hmain : HasMain 200 bs 7 2 := ⟨StoredChunk.sample.main, by decide, rfl, [], rfl⟩
  have hheader : Header.bytes <+: bs := ⟨bs.drop 29, rfl⟩
  have hne : (7 : UInt8).toNat ≠ 2 := by decide
  have hload : (load {} table "sample" bs).outcome =
      .error (.ofCause "sample" (.upvalueCountMismatch 7 2)) :=
    (outcome_load_of_hasMain hmain table "sample").2 hne
  -- of the causes that are told, it is the number of upvalues
  rcases (cause_of_load {} table "sample" bs hheader).1 _ hload with ⟨_, _, hcause, -⟩ |
    ⟨_, hcause, -⟩ | ⟨_, _, hcause, -⟩ | hcause | ⟨declared, actual, hcause, -, -, -, hreplaced⟩
  · exact nomatch hcause
  · exact nomatch hcause
  · exact nomatch hcause
  · exact nomatch hcause
  · obtain ⟨-, rfl⟩ := Cause.upvalueCountMismatch.inj hcause
    exact ⟨hheader, hload, (hreplaced 2).1 rfl, (hreplaced 3).2 (by decide)⟩

end LuaChunk
