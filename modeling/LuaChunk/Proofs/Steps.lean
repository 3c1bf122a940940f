import LuaChunk.Proofs.ReadingChunks

/-!
# Reads step by step

Behind the literals of the header a chunk is read in steps of a few kinds: a byte, some bytes, a
note, a failure for what was read. `Steps x y` derives a read `x` from them, beside a read `y` that
takes the same steps in the same order but leaves out the early checks of counts. What holds of each
step and passes from two reads to one after the other holds of every read so derived; the reads of
this library are derived once, here.

## Key results

* `Steps.retraces`      what `x` has read when it ends makes `y` end there, with the same notes
* `prototype_steps`     function records are read in steps
* `body_steps`          and so is all of a chunk behind the literals of the header
-/

namespace LuaChunk

/-- Whether a cause lies in the bytes that were read, so that no byte behind them can remove it. -/
def Cause.Settled : Cause → Prop
  | .headerMismatch _ expected actual => expected.length ≤ actual.length
  | .bufferUnderrun _ _ => False
  | _ => True

/-- The options without the early checks of counts. -/
def ReadOptions.unchecked (options : ReadOptions) : ReadOptions :=
  { options with checkCounts := false }

namespace Read

variable {α γ : Type}

/-- Where a read has left the reader, whether it succeeded or not. -/
def stop : EStateM.Result Cause Reader α → Reader
  | .ok _ r => r
  | .error _ r => r

/-- Behind a read that succeeds, the rest goes on from where it stopped. -/
theorem bind_of_ok {x : Read α} {r r' : Reader} {a : α} (h : x r = .ok a r') (f : α → Read γ) :
    (x >>= f) r = f a r' := by
  simp only [bind, EStateM.bind, h]

/-- At the end of a buffer, `x` fails where it stands. -/
def FailsAtEnd (x : Read α) : Prop :=
  ∀ start findings, ∃ cause,
    x ⟨start, [], findings⟩ = .error cause ⟨start, [], findings⟩

/-- A read fails at the end of a buffer if what it reads first does. -/
theorem FailsAtEnd.bind {x : Read α} (hx : FailsAtEnd x) (f : α → Read γ) :
    FailsAtEnd (x >>= f) := by
  intro start findings
  obtain ⟨cause, hcause⟩ := hx start findings
  exact ⟨cause, bind_eq_error.2 (.inl hcause)⟩

theorem throw_failsAtEnd (cause : Cause) : FailsAtEnd (throw cause : Read α) :=
  fun _ _ => ⟨cause, rfl⟩

/-- A list that is not empty begins with an element. -/
theorem listOf_failsAtEnd {x : Read α} (hx : FailsAtEnd x) {n : Nat} (hn : 0 < n) :
    FailsAtEnd (listOf n x) := by
  obtain ⟨n, rfl⟩ := Nat.exists_eq_succ_of_ne_zero (Nat.ne_of_gt hn)
  rw [listOf_succ]
  exact hx.bind _

/-! ### Pieces -/

/-- `x` reads one piece of `n` bytes: it takes that many, and fails without moving where fewer are
left. -/
structure Piece (n : Nat) (x : Read α) : Prop where
  takes : ∀ start {bs : Bytes}, bs.length = n → ∃ a notes, Takes x start bs a notes
  fails : ∀ {r : Reader}, r.rest.length < n → x r = .error (.bufferUnderrun n r.rest.length) r

/-- A piece of at least one byte is not there at the end of a buffer. -/
theorem Piece.failsAtEnd {n : Nat} {x : Read α} (h : Piece n x) (hn : 0 < n) : FailsAtEnd x :=
  fun _ _ => ⟨_, h.fails hn⟩

/-- Where the piece is there, it is taken whatever follows. -/
theorem Piece.takes_of_le {n : Nat} {x : Read α} (h : Piece n x) (start : Nat) {bs : Bytes}
    (hle : n ≤ bs.length) :
    ∃ front rest a notes, bs = front ++ rest ∧ Takes x start front a notes := by
  obtain ⟨a, notes, htakes⟩ := h.takes start (List.length_take_of_le hle)
  exact ⟨bs.take n, bs.drop n, a, notes, (List.take_append_drop n bs).symm, htakes⟩

/-- A piece fails for nothing but want of bytes. -/
theorem Piece.eq_of_error {n : Nat} {x : Read α} (h : Piece n x) {r r' : Reader} {cause : Cause}
    (herror : x r = .error cause r') :
    r.rest.length < n ∧ cause = .bufferUnderrun n r.rest.length ∧ r' = r := by
  rcases Nat.lt_or_ge r.rest.length n with hlt | hle
  -- too few bytes are left
  · rw [h.fails hlt, EStateM.Result.error.injEq] at herror
    exact ⟨hlt, herror.1.symm, herror.2.symm⟩
  -- enough are left, so that the piece would have been read
  · obtain ⟨start, bs, findings⟩ := r
    obtain ⟨front, rest, a, notes, rfl, htakes⟩ := h.takes_of_le start hle
    exact nomatch (htakes rest findings).symm.trans herror

/-- A read that takes nothing is a piece of no bytes. -/
theorem Piece.of_takes_nil {x : Read α} (h : ∀ start, ∃ a notes, Takes x start [] a notes) :
    Piece 0 x where
  takes start bs hbs := by
    obtain rfl := List.length_eq_zero_iff.1 hbs
    exact h start
  fails hlt := absurd hlt (Nat.not_lt_zero _)

/-- What is made of a piece is read as the piece is. -/
theorem Piece.map {n : Nat} {x : Read α} (h : Piece n x) (f : α → γ) :
    Piece n (do return f (← x)) where
  takes start bs hbs := by
    obtain ⟨a, notes, htakes⟩ := h.takes start hbs
    exact ⟨f a, notes, htakes.map f⟩
  fails hlt := bind_eq_error.2 (.inl (h.fails hlt))

theorem pure_piece (a : α) : Piece 0 (pure a : Read α) :=
  .of_takes_nil fun start => ⟨a, _, takes_pure start a⟩

theorem offset_piece : Piece 0 offset :=
  .of_takes_nil fun start => ⟨start, _, takes_offset start⟩

theorem note_piece (finding : Finding) : Piece 0 (note finding) :=
  .of_takes_nil fun start => ⟨(), _, takes_note start finding⟩

theorem raw_piece (n : Nat) : Piece n (raw n) where
  takes start bs hbs := by
    subst hbs
    exact ⟨bs, _, takes_raw start bs⟩
  fails := raw_of_length_lt

theorem byte_piece : Piece 1 byte where
  takes start bs hbs := by
    obtain ⟨b, rfl⟩ := List.length_eq_one_iff.1 hbs
    exact ⟨b, _, byte_reads.takes b trivial start⟩
  fails {r} hlt := by
    obtain ⟨start, bs, findings⟩ := r
    obtain rfl := List.length_eq_zero_iff.1 (Nat.lt_one_iff.1 hlt)
    rfl

theorem integer_piece : Piece 4 integer :=
  (((raw_piece 4).map _).map _).map _

theorem number_piece : Piece 8 number :=
  ((raw_piece 8).map _).map _

/-- The five widths of the header are read in one, so that none is taken where one is missing. -/
theorem widths_piece : Piece 5 widths where
  takes start bs hbs := by
    match bs, hbs with
    | [int, sizeT, instruction, integer, number], _ =>
      exact ⟨_, _, takes_widths ⟨int, sizeT, instruction, integer, number⟩ start⟩
  fails {r} hlt := by
    simp only [widths]
    split
    -- five bytes and more are matched, which are not fewer than five
    · next hrest =>
      rw [hrest] at hlt
      simp only [List.length_cons] at hlt
      omega
    · rfl

/-! ### Derivations -/

/-- `x` is put together from pieces and failures for what was read, and `y` from the same without
some of the checks that enough bytes are left. A check may be left out where `y` fails anyway if
none are left. -/
inductive Steps : {α : Type} → Read α → Read α → Prop
  | piece {α : Type} {n : Nat} {x : Read α} (h : Piece n x) : Steps x x
  | throw {α : Type} {cause : Cause} (hsettled : cause.Settled)
      (hliteral : ∀ field expected actual, cause ≠ .headerMismatch field expected actual) :
      Steps (throw cause : Read α) (throw cause)
  | bind {α γ : Type} {x y : Read α} {f g : α → Read γ} (hx : Steps x y)
      (hf : ∀ a, Steps (f a) (g a)) : Steps (x >>= f) (y >>= g)
  | check {α : Type} {n : Nat} {x y : Read α} (hx : Steps x y) (hend : 0 < n → FailsAtEnd y) :
      Steps (do ensure n; x) y

namespace Steps

theorem pure (a : α) : Steps (pure a) (pure a) :=
  .piece (pure_piece a)

theorem byte : Steps byte byte :=
  .piece byte_piece

/-- A choice that does not depend on what is to be read, between two derived reads. -/
theorem ite {p : Prop} [Decidable p] {x y x' y' : Read α} (h : Steps x y) (h' : Steps x' y') :
    Steps (if p then x else x') (if p then y else y') := by
  split
  · exact h
  · exact h'

theorem map {x y : Read α} (h : Steps x y) (f : α → γ) :
    Steps (do return f (← x)) (do return f (← y)) :=
  h.bind fun _ => .pure _

/-- A read without checks to leave out. -/
theorem right {x y : Read α} (h : Steps x y) : Steps y y := by
  induction h with
  | piece h => exact .piece h
  | throw hsettled hliteral => exact .throw hsettled hliteral
  | bind _ _ ihx ihf => exact .bind ihx ihf
  | check _ _ ih => exact ih

end Steps

/-! ### Values, strings and sequences -/

theorem byte_failsAtEnd : FailsAtEnd byte :=
  byte_piece.failsAtEnd Nat.one_pos

theorem nat_failsAtEnd (width : Nat) : FailsAtEnd (nat (width + 1)) :=
  ((raw_piece (width + 1)).failsAtEnd width.succ_pos).bind _

theorem string_failsAtEnd : FailsAtEnd string :=
  byte_failsAtEnd.bind _

theorem truth_steps : Steps truth truth :=
  Steps.byte.map _

theorem nat_steps (width : Nat) : Steps (nat width) (nat width) :=
  (Steps.piece (raw_piece width)).map _

theorem int_steps : Steps int int :=
  (nat_steps 4).map _

theorem integer_steps : Steps integer integer :=
  int_steps.map _

theorem number_steps : Steps number number :=
  (nat_steps 8).map _

theorem instruction_steps : Steps instruction instruction :=
  (nat_steps 4).map _

/-- A string is a byte, a longer size if the byte says so, and the content. -/
theorem string_steps : Steps string string := by
  -- whichever prefix gave the size, the content is read in the same way
  have hcontent : ∀ size : Nat,
      Steps (if size = 0 then pure none else do return some (← raw (size - 1)))
        (if size = 0 then pure none else do return some (← raw (size - 1))) :=
    fun size => .ite (.pure none) ((Steps.piece (raw_piece _)).map some)
  exact .bind .byte fun short => .ite (.bind (nat_steps 8) hcontent) (.bind (.pure _) hcontent)

/-- A list is read element by element. -/
theorem listOf_steps {x y : Read α} (h : Steps x y) (n : Nat) :
    Steps (listOf n x) (listOf n y) := by
  induction n with
  | zero => exact .pure []
  | succ n ih =>
    rw [listOf_succ, listOf_succ]
    exact h.bind fun _ => ih.map _

/-- A count is a number, and the check behind it comes before all that is read next. -/
theorem count_bind (check : Bool) (entrySize : Nat) (f : Nat → Read α) :
    (count check entrySize >>= f) = nat 4 >>= fun n =>
      if check then ensure (min (n * entrySize) maxRequest) >>= fun _ => f n else f n := by
  cases check <;> simp [count]

/-- A count can be checked early where what is read after it needs a byte, unless it is zero. -/
theorem count_steps (check : Bool) {entrySize : Nat} {f g : Nat → Read α}
    (hf : ∀ n, Steps (f n) (g n)) (hend : ∀ n, 0 < n → FailsAtEnd (g n)) :
    Steps (count check entrySize >>= f) (count false entrySize >>= g) := by
  rw [count_bind, count_bind]
  refine (nat_steps 4).bind fun n => ?_
  -- there is no check to leave out
  cases check with
  | false => exact hf n
  -- the check stands behind the number
  | true =>
    refine .check (hf n) fun hpos => hend n (Nat.pos_of_ne_zero ?_)
    -- no entries need no bytes
    rintro rfl
    rw [Nat.zero_mul, Nat.zero_min] at hpos
    exact Nat.lt_irrefl 0 hpos

/-- A sequence of entries that each need a byte. -/
theorem counted_steps (check : Bool) (entrySize : Nat) {x y : Read α} (h : Steps x y)
    (hend : FailsAtEnd y) : Steps (counted check entrySize x) (counted false entrySize y) :=
  count_steps check (listOf_steps h) fun _ => listOf_failsAtEnd hend

/-! ### Function records -/

/-- A constant is a tag and what the tag asks for. -/
theorem constant_steps : Steps constant constant := by
  refine .bind .byte fun tag => ?_
  -- one case for each tag, in the order in which they are tried
  refine .ite (.pure _) <| .ite (truth_steps.map _) <| .ite (number_steps.map _) <|
    .ite (integer_steps.map _) <| .ite ?_ (.throw trivial nofun)
  exact string_steps.bind fun _ => .bind (.piece (note_piece _)) fun _ => .pure _

theorem constant_failsAtEnd : FailsAtEnd constant :=
  byte_failsAtEnd.bind _

theorem upvalue_steps : Steps upvalue upvalue :=
  truth_steps.bind fun _ => Steps.byte.map _

theorem upvalue_failsAtEnd : FailsAtEnd upvalue :=
  (byte_failsAtEnd.bind _).bind _

theorem localVariable_steps : Steps localVariable localVariable :=
  string_steps.bind fun _ => int_steps.bind fun _ => int_steps.map _

theorem localVariable_failsAtEnd : FailsAtEnd localVariable :=
  string_failsAtEnd.bind _

/-- The names of upvalues are counted, refused if they are too many, and read. -/
theorem upvalueNames_steps (options : ReadOptions) (us : List Upvalue) :
    Steps (upvalueNames options us) (upvalueNames options.unchecked us) := by
  have hnames : ∀ n, Steps (do return nameUpvalues us (← listOf n string))
      (do return nameUpvalues us (← listOf n string)) :=
    fun n => (listOf_steps string_steps n).map _
  refine count_steps _ (fun n => ?_) fun n hn => ?_
  · have hthrow : Steps (throw (.upvalueNameOverflow us.length n) : Read Unit) _ :=
      .throw trivial nofun
    exact .ite (hthrow.bind fun _ => hnames n) (hnames n)
  · -- names that are too many fail for that, and others for want of bytes
    dsimp only
    split
    · exact (throw_failsAtEnd _).bind _
    · exact (listOf_failsAtEnd string_failsAtEnd hn).bind _

/-- A function record fails at the end of a buffer, for want of its source or of room to nest. -/
theorem prototype_failsAtEnd (options : ReadOptions) (room : Nat) :
    FailsAtEnd (prototype options room) := by
  cases room with
  -- no room to nest is noticed first
  | zero => exact throw_failsAtEnd _
  | succ room =>
    intro start findings
    obtain ⟨cause, hcause⟩ := string_failsAtEnd start findings
    -- the source is read first, from where the record begins
    exact ⟨cause, bind_eq_error.2 (.inr ⟨start, _, rfl, bind_eq_error.2 (.inl hcause)⟩)⟩

/-- A function record is read in steps, whatever room there is to nest. -/
theorem prototype_steps (options : ReadOptions) (room : Nat) :
    Steps (prototype options room) (prototype options.unchecked room) := by
  induction room with
  | zero => exact .throw trivial nofun
  | succ room ih =>
    -- the fields in the order in which they are read
    exact .bind (.piece offset_piece) fun _ => string_steps.bind fun _ => int_steps.bind fun _ =>
      int_steps.bind fun _ => .bind .byte fun _ => truth_steps.bind fun _ =>
      .bind .byte fun _ =>
      (counted_steps _ _ instruction_steps (nat_failsAtEnd 3 |>.bind _)).bind fun _ =>
      (counted_steps _ _ constant_steps constant_failsAtEnd).bind fun _ =>
      (counted_steps _ _ upvalue_steps upvalue_failsAtEnd).bind fun _ =>
      (counted_steps _ _ ih (prototype_failsAtEnd _ room)).bind fun _ =>
      (counted_steps _ _ int_steps (nat_failsAtEnd 3 |>.bind _)).bind fun _ =>
      (counted_steps _ _ localVariable_steps localVariable_failsAtEnd).bind fun _ =>
      (upvalueNames_steps options _).bind fun _ => .bind (.piece (note_piece _)) fun _ => .pure _

/-! ### Chunks -/

/-- Reads the parts of a header that are compared with fixed bytes. -/
def literals : Read Unit := do
  literal .signature
  literal .version
  literal .format
  literal .tail

/-- Reads the parts of a header that show how values are laid out. -/
def layout : Read Header := do
  let declared ← widths
  checkWidths declared
  if (← integer) ≠ Header.sampleInteger then throw .endiannessMismatch
  if !(← number).numEq Header.sampleNumber then throw .floatFormatMismatch
  return declared

/-- Reads a chunk behind the literals of its header. -/
def body (options : ReadOptions) : Read (UInt8 × Prototype Bytes) := do
  let _ ← layout
  let declared ← byte
  let main ← mainFunction options
  return (declared, main)

/-- Reads a chunk, without comparing the number of upvalues with the one declared. -/
def parts (options : ReadOptions) : Read (UInt8 × Prototype Bytes) := do
  let _ ← header
  let declared ← byte
  let main ← mainFunction options
  return (declared, main)

/-- Makes a closure of what was read, if the upvalues are as many as declared. -/
def assemble : UInt8 × Prototype Bytes → Read (Closure Bytes)
  | (declared, main) => do
    let actual := main.record.upvalues.length
    if declared.toNat ≠ actual then
      throw (.upvalueCountMismatch declared.toNat actual)
    return ⟨declared, main.inheritSources none⟩

/-- A chunk is read in parts, of which the closure is assembled. -/
theorem closure_eq (options : ReadOptions) : closure options = parts options >>= assemble := by
  simp only [closure, parts, assemble, bind_assoc, pure_bind]

/-- As many upvalues as declared make a closure. -/
theorem assemble_of_eq {declared : UInt8} {main : Prototype Bytes} (r : Reader)
    (h : declared.toNat = main.record.upvalues.length) :
    assemble (declared, main) r = .ok ⟨declared, main.inheritSources none⟩ r := by
  unfold assemble
  dsimp only
  rw [if_neg (not_not_intro h)]
  rfl

/-- Any other number makes an error, which names both. -/
theorem assemble_of_ne {declared : UInt8} {main : Prototype Bytes} (r : Reader)
    (h : declared.toNat ≠ main.record.upvalues.length) :
    assemble (declared, main) r =
      .error (.upvalueCountMismatch declared.toNat main.record.upvalues.length) r := by
  unfold assemble
  dsimp only
  rw [if_pos h]
  rfl

/-- There is no other error at this point. -/
theorem assemble_eq_error {declared : UInt8} {main : Prototype Bytes} {r r' : Reader}
    {cause : Cause} (h : assemble (declared, main) r = .error cause r') :
    declared.toNat ≠ main.record.upvalues.length ∧
      cause = .upvalueCountMismatch declared.toNat main.record.upvalues.length := by
  by_cases heq : declared.toNat = main.record.upvalues.length
  · rw [assemble_of_eq r heq] at h
    exact nomatch h
  · rw [assemble_of_ne r heq] at h
    exact ⟨heq, (EStateM.Result.error.inj h).1.symm⟩

/-- A closure is made only of as many upvalues as declared, and nothing more is read for it. -/
theorem assemble_eq_ok {declared : UInt8} {main : Prototype Bytes} {r r' : Reader}
    {c : Closure Bytes} (h : assemble (declared, main) r = .ok c r') :
    declared.toNat = main.record.upvalues.length ∧
      c = ⟨declared, main.inheritSources none⟩ ∧ r' = r := by
  by_cases heq : declared.toNat = main.record.upvalues.length
  · rw [assemble_of_eq r heq] at h
    obtain ⟨rfl, rfl⟩ := EStateM.Result.ok.inj h
    exact ⟨heq, rfl, rfl⟩
  · rw [assemble_of_ne r heq] at h
    exact nomatch h

/-- Whether the upvalues are as many as declared is compared where all has been read. -/
theorem stop_closure (options : ReadOptions) (r : Reader) :
    stop (closure options r) = stop (parts options r) := by
  rw [closure_eq]
  cases hparts : parts options r with
  | ok declaredMain between =>
    rw [bind_of_ok hparts]
    obtain ⟨declared, main⟩ := declaredMain
    by_cases heq : declared.toNat = main.record.upvalues.length
    · rw [assemble_of_eq between heq]
      rfl
    · rw [assemble_of_ne between heq]
      rfl
  -- an error in a part is the error of the chunk
  | error cause r' =>
    rw [bind_eq_error.2 (.inl hparts)]
    rfl

/-- A header is its literals, then the layout of values. -/
theorem header_eq : header = literals >>= fun _ => layout := by
  simp only [header, literals, layout, bind_assoc]

/-- The literals are read before anything else. -/
theorem parts_eq (options : ReadOptions) : parts options = literals >>= fun _ => body options := by
  simp only [parts, header_eq, body, bind_assoc]

/-- What is read before the upvalues are compared is a chunk but for their number. -/
theorem takes_parts (options : ReadOptions) (chunk : StoredChunk) (hmain : chunk.main.Fits)
    (hheight : chunk.main.height ≤ options.maxDepth) (start : Nat) :
    ∃ notes, Takes (parts options) start chunk.bytes (chunk.upvalueCount, chunk.main.asStored)
      notes :=
  ⟨_, Takes.of_eq ((header_reads.takes () trivial start).bind <|
    (byte_reads.takes chunk.upvalueCount trivial _).bind <|
    ((mainFunction_reads options).takes chunk.main ⟨hmain, Nat.lt_succ_of_le hheight⟩ _).map
      (Prod.mk chunk.upvalueCount)) rfl rfl rfl⟩

/-- Parts that were read are those of a chunk that is laid out in the bytes taken. -/
theorem parts_eq_ok {options : ReadOptions} {r r' : Reader} {a : UInt8 × Prototype Bytes}
    (h : parts options r = .ok a r') :
    ∃ chunk : StoredChunk, chunk.main.Fits ∧ chunk.main.height ≤ options.maxDepth ∧
      a = (chunk.upvalueCount, chunk.main.asStored) ∧ r.rest = chunk.bytes ++ r'.rest := by
  -- the header, the byte with the number of upvalues and the main function, one after the other
  obtain ⟨_, _, hheader, h⟩ := bind_eq_ok.1 h
  obtain ⟨_, _, hdeclared, h⟩ := bind_eq_ok.1 h
  obtain ⟨_, hmain, rfl⟩ := map_eq_ok.1 h
  -- each of them is laid out at the start of what was left
  obtain ⟨_, _, -, hrest⟩ := header_reads.accepts hheader
  obtain ⟨declared, _, rfl, hrest'⟩ := byte_reads.accepts hdeclared
  obtain ⟨main, ⟨hfits, hheight⟩, rfl, hrest''⟩ := (mainFunction_reads options).accepts hmain
  refine ⟨⟨declared, main⟩, hfits, Nat.le_of_lt_succ hheight, rfl, ?_⟩
  rw [hrest, hrest', hrest'']
  simp only [StoredChunk.bytes, List.append_assoc, List.cons_append]
  rfl

theorem checkWidths_steps (declared : Header) :
    Steps (checkWidths declared) (checkWidths declared) := by
  unfold checkWidths
  split
  · exact .throw trivial nofun
  · exact .pure ()

/-- The layout of values is read in steps. -/
theorem layout_steps : Steps layout layout := by
  -- the two samples are compared after they were read
  have hthrow : ∀ {cause : Cause}, cause = .endiannessMismatch ∨ cause = .floatFormatMismatch →
      Steps (throw cause : Read Unit) (throw cause) := by
    rintro _ (rfl | rfl)
    · exact .throw trivial nofun
    · exact .throw trivial nofun
  have hnumber : ∀ declared : Header, Steps
      (do if !(← number).numEq Header.sampleNumber then throw .floatFormatMismatch
          return declared : Read Header)
      (do if !(← number).numEq Header.sampleNumber then throw .floatFormatMismatch
          return declared) :=
    fun declared => number_steps.bind fun _ =>
      .ite ((hthrow (.inr rfl)).bind fun _ => .pure _) (.pure _)
  exact (Steps.piece widths_piece).bind fun declared => (checkWidths_steps declared).bind fun _ =>
    integer_steps.bind fun _ =>
      .ite ((hthrow (.inl rfl)).bind fun _ => hnumber declared) (hnumber declared)

/-- Behind the literals, a chunk is read in steps. -/
theorem body_steps (options : ReadOptions) : Steps (body options) (body options.unchecked) :=
  layout_steps.bind fun _ => .bind .byte fun _ => (prototype_steps options _).map _

theorem assemble_steps (parts : UInt8 × Prototype Bytes) :
    Steps (assemble parts) (assemble parts) := by
  have hthrow : ∀ declared actual,
      Steps (throw (.upvalueCountMismatch declared actual) : Read Unit) (throw _) :=
    fun _ _ => .throw trivial nofun
  exact .ite ((hthrow _ _).bind fun _ => .pure _) (.pure _)

/-! ### Reading again what was read -/

/-- An early check fails for want of bytes, and nothing is taken. -/
theorem ensure_eq_error {n : Nat} {r r' : Reader} {cause : Cause} :
    ensure n r = .error cause r' ↔
      r.rest.length < n ∧ cause = .bufferUnderrun n r.rest.length ∧ r = r' := by
  simp only [ensure]
  split
  -- the bytes are there
  · next h =>
    have hle := Bytes.hasAtLeast_iff.1 h
    simp [Nat.not_lt.2 hle]
  -- some are missing, and the cause says how many were left
  · next h =>
    have hlt : r.rest.length < n := Nat.lt_of_not_le fun hle => h (Bytes.hasAtLeast_iff.2 hle)
    simp [underrun, Reader.remaining, hlt, eq_comm]

/-- What `x` has read when it ends is enough for `y` to end in the same place, with the same notes:
with the same value if `x` succeeds, and for whatever cause if `x` fails. -/
structure Retraces (x y : Read α) : Prop where
  ok : ∀ {start bs findings a r}, x ⟨start, bs, findings⟩ = .ok a r →
    ∃ front rest notes, bs = front ++ rest ∧ r = ⟨start + front.length, rest, findings ++ notes⟩ ∧
      Takes y start front a notes
  error : ∀ {start bs findings cause r}, x ⟨start, bs, findings⟩ = .error cause r →
    ∃ front rest notes, bs = front ++ rest ∧ r = ⟨start + front.length, rest, findings ++ notes⟩ ∧
      ∃ cause', y ⟨start, front, findings⟩ =
        .error cause' ⟨start + front.length, [], findings ++ notes⟩

/-- Of a read that fails where it stands there is nothing to read again. -/
theorem FailsAtEnd.retraces {y : Read α} (hy : FailsAtEnd y) (start : Nat) (bs : Bytes)
    (findings : Array Finding) :
    ∃ front rest notes, bs = front ++ rest ∧
      (⟨start, bs, findings⟩ : Reader) = ⟨start + front.length, rest, findings ++ notes⟩ ∧
      ∃ cause', y ⟨start, front, findings⟩ =
        .error cause' ⟨start + front.length, [], findings ++ notes⟩ := by
  obtain ⟨cause', hcause'⟩ := hy start findings
  exact ⟨[], bs, #[], rfl, by simp, cause', by simpa using hcause'⟩

/-- A piece is taken whole or not begun. -/
theorem Piece.retraces {n : Nat} {x : Read α} (h : Piece n x) : Retraces x x where
  ok {start bs findings a r} hok := by
    -- a piece that was read had its bytes
    rcases Nat.lt_or_ge bs.length n with hlt | hle
    · rw [h.fails hlt] at hok
      exact nomatch hok
    · obtain ⟨front, rest, b, notes, rfl, htakes⟩ := h.takes_of_le start hle
      rw [htakes rest findings, EStateM.Result.ok.injEq] at hok
      obtain ⟨rfl, rfl⟩ := hok
      exact ⟨front, rest, notes, rfl, rfl, htakes⟩
  -- one that was not has taken none, and there is none to be had again
  error {start bs findings cause r} herror := by
    obtain ⟨hlt, -, rfl⟩ := h.eq_of_error herror
    exact (h.failsAtEnd (Nat.zero_lt_of_lt hlt)).retraces start bs findings

/-- Two reads, one after the other, are read again one after the other. -/
theorem Retraces.bind {x y : Read α} {f g : α → Read γ} (hx : Retraces x y)
    (hf : ∀ a, Retraces (f a) (g a)) : Retraces (x >>= f) (y >>= g) where
  ok {start bs findings a r} h := by
    obtain ⟨b, between, hb, h⟩ := bind_eq_ok.1 h
    obtain ⟨front, rest, notes, rfl, rfl, htakes⟩ := hx.ok hb
    obtain ⟨front', rest', notes', rfl, rfl, htakes'⟩ := (hf b).ok h
    refine ⟨front ++ front', rest', notes ++ notes', ?_, ?_, htakes.bind htakes'⟩
    · rw [List.append_assoc]
    · rw [List.length_append, Nat.add_assoc, Array.append_assoc]
  error {start bs findings cause r} h := by
    rcases bind_eq_error.1 h with h | ⟨b, between, hb, h⟩
    -- the first read fails, and so does its like
    · obtain ⟨front, rest, notes, hbs, hr, cause', hy⟩ := hx.error h
      exact ⟨front, rest, notes, hbs, hr, cause', bind_eq_error.2 (.inl hy)⟩
    · -- `y` takes what `x` has taken, and `g` fails on what `f` has read
      obtain ⟨front, rest, notes, rfl, rfl, htakes⟩ := hx.ok hb
      obtain ⟨front', rest', notes', rfl, rfl, cause', hg⟩ := (hf b).error h
      refine ⟨front ++ front', rest', notes ++ notes', ?_, ?_, cause', ?_⟩
      · rw [List.append_assoc]
      · rw [List.length_append, Nat.add_assoc, Array.append_assoc]
      · rw [List.length_append, ← Nat.add_assoc, ← Array.append_assoc]
        exact bind_eq_error.2 (.inr ⟨b, _, htakes front' findings, hg⟩)

/-- What is read in steps can be read again from what it has taken, without the early checks. -/
theorem Steps.retraces {x y : Read α} (h : Steps x y) : Retraces x y := by
  induction h with
  | piece h => exact h.retraces
  | throw hsettled hliteral =>
    constructor
    -- a failure for what was read takes nothing
    · exact fun hok => absurd hok throw_ne_ok
    · intro start bs findings cause r herror
      obtain ⟨-, rfl⟩ := EStateM.Result.error.inj herror
      exact (throw_failsAtEnd _).retraces start bs findings
  | bind _ _ ihx ihf => exact ihx.bind ihf
  | @check _ n x y hx hend ih =>
    constructor
    -- the check was passed, and `x` decides
    · intro start bs findings a r hok
      obtain ⟨_, _, hensure, hok⟩ := bind_eq_ok.1 hok
      obtain ⟨-, rfl⟩ := ensure_eq_ok.1 hensure
      exact ih.ok hok
    · intro start bs findings cause r herror
      rcases bind_eq_error.1 herror with herror | ⟨_, _, hensure, herror⟩
      -- the check fails where it stands, and `y` finds nothing to read
      · obtain ⟨hlt, rfl, rfl⟩ := ensure_eq_error.1 herror
        exact (hend (Nat.zero_lt_of_lt hlt)).retraces start bs findings
      -- `x` fails behind the check
      · obtain ⟨-, rfl⟩ := ensure_eq_ok.1 hensure
        exact ih.error herror

end Read

end LuaChunk
