import LuaChunk.Proofs.StoredForm

/-!
# Reading stored forms

A read follows a rule of the grammar if it takes exactly the bytes of a form off the front of any
buffer that begins with them, and succeeds on no other buffer. Both halves pass through reads of
several parts, so that each read of this library is treated once.

## Key results

* `Takes.bind`        two reads in a row take the bytes of the first, then those of the second
* `Reads.counted`     a checked count never rejects entries that keep to the declared minimum
* `string_reads`      what `Read.string` accepts are the stored forms of strings
-/

namespace LuaChunk

namespace Read

variable {α β γ : Type}

/-! ### Taking known bytes -/

/-- From offset `start` on, `x` takes exactly `bs` off the front of the buffer whatever follows,
gives `a`, and notes `notes`. -/
def Takes (x : Read α) (start : Nat) (bs : Bytes) (a : α) (notes : Array Finding) : Prop :=
  ∀ rest findings,
    x ⟨start, bs ++ rest, findings⟩ = .ok a ⟨start + bs.length, rest, findings ++ notes⟩

/-- Two reads in a row take what the first takes, then what the second takes. -/
theorem Takes.bind {x : Read α} {f : α → Read γ} {start : Nat} {bs cs : Bytes} {a : α} {b : γ}
    {notes notes' : Array Finding} (hx : Takes x start bs a notes)
    (hf : Takes (f a) (start + bs.length) cs b notes') :
    Takes (x >>= f) start (bs ++ cs) b (notes ++ notes') := by
  intro rest findings
  rw [List.append_assoc, List.length_append, ← Nat.add_assoc, ← Array.append_assoc]
  -- to the first read, what the second takes is part of the rest
  exact bind_eq_ok.2 ⟨a, _, hx (cs ++ rest) findings, hf rest (findings ++ notes)⟩

/-- Bytes, value and notes of a read may be replaced by equal ones. -/
theorem Takes.of_eq {x : Read α} {start : Nat} {bs cs : Bytes} {a b : α}
    {notes notes' : Array Finding} (h : Takes x start bs a notes) (hbs : bs = cs) (hab : a = b)
    (hnotes : notes = notes') : Takes x start cs b notes' := by
  subst hbs hab hnotes
  exact h

/-- A read that only gives a value takes nothing. -/
theorem takes_pure (start : Nat) (a : α) : Takes (pure a) start [] a #[] := by
  intro rest findings
  simp [pure, EStateM.pure]

/-- Asking for the offset takes nothing. -/
theorem takes_offset (start : Nat) : Takes offset start [] start #[] := by
  intro rest findings
  simp [offset]

/-- Noting a finding takes nothing. -/
theorem takes_note (start : Nat) (finding : Finding) :
    Takes (note finding) start [] () #[finding] := by
  intro rest findings
  simp [note]

/-- A read of as many bytes as `bs` has takes `bs`. -/
theorem takes_raw (start : Nat) (bs : Bytes) : Takes (raw bs.length) start bs bs #[] := by
  intro rest findings
  rw [raw_of_split? (Bytes.split?_append bs rest)]
  simp [Reader.advance]

/-- A read whose value is changed afterwards takes the same bytes. -/
theorem Takes.map {x : Read α} {start : Nat} {bs : Bytes} {a : α} {notes : Array Finding}
    (f : α → γ) (h : Takes x start bs a notes) : Takes (do return f (← x)) start bs (f a) notes :=
  (h.bind (takes_pure _ (f a))).of_eq (List.append_nil bs) rfl Array.append_empty

/-! ### Following a rule -/

/-- `x` follows the rule `F`: it takes the bytes of each form that fits, and whatever it takes is
such a form. -/
structure Reads (x : Read α) (F : Form β α) : Prop where
  takes : ∀ s, F.Fits s → ∀ start, Takes x start (F.bytes s) (F.value s) (F.findings start s)
  accepts : ∀ {r a r'}, x r = .ok a r' →
    ∃ s, F.Fits s ∧ F.value s = a ∧ r.rest = F.bytes s ++ r'.rest

@[simp] theorem pure_eq_ok {a b : α} {r r' : Reader} :
    (pure a : Read α) r = .ok b r' ↔ a = b ∧ r = r' := by
  simp [pure, EStateM.pure]

@[simp] theorem throw_ne_ok {cause : Cause} {a : α} {r r' : Reader} :
    (throw cause : Read α) r ≠ .ok a r' := by
  have herror : (throw cause : Read α) r = .error cause r := rfl
  rw [herror]
  exact nofun

/-- A read whose value is changed afterwards succeeds where the read itself does. -/
theorem map_eq_ok {x : Read α} {f : α → γ} {r r' : Reader} {b : γ} :
    (do return f (← x) : Read γ) r = .ok b r' ↔ ∃ a, x r = .ok a r' ∧ f a = b := by
  rw [bind_eq_ok]
  constructor
  · rintro ⟨a, _, ha, hpure⟩
    obtain ⟨hb, rfl⟩ := pure_eq_ok.1 hpure
    exact ⟨a, ha, hb⟩
  · rintro ⟨a, ha, rfl⟩
    exact ⟨a, r', ha, rfl⟩

/-- A read of `n` bytes that succeeds has moved `n` bytes from the rest of the buffer to its
value. -/
theorem raw_eq_ok {n : Nat} {r r' : Reader} {bs : Bytes} (h : raw n r = .ok bs r') :
    bs.length = n ∧ r.rest = bs ++ r'.rest := by
  simp only [raw] at h
  split at h
  -- enough bytes are left
  · next front back hsplit =>
    obtain ⟨hrest, hlen⟩ := Bytes.split?_eq_some_iff.1 hsplit
    simp only [EStateM.Result.ok.injEq] at h
    obtain ⟨rfl, rfl⟩ := h
    exact ⟨hlen, hrest⟩
  -- too few are left, and the read fails
  · simp [underrun] at h

/-- The check for `n` bytes succeeds exactly if they are there, and moves nothing. -/
theorem ensure_eq_ok {n : Nat} {r r' : Reader} :
    ensure n r = .ok () r' ↔ n ≤ r.rest.length ∧ r = r' := by
  simp only [ensure]
  split
  -- the bytes are there
  · next h => simp [Bytes.hasAtLeast_iff.1 h]
  -- they are not there, so neither side holds
  · next h =>
    have hlt : ¬ n ≤ r.rest.length := fun hle => h (Bytes.hasAtLeast_iff.2 hle)
    simp [underrun, hlt]

/-! ### Values of fixed width -/

/-- `Read.byte` takes any byte there is. -/
theorem byte_reads : Reads byte Form.byte where
  takes b _ start rest findings := by
    simp [byte, Form.byte, Reader.advance]
  accepts {r a r'} h := by
    simp only [byte] at h
    split at h
    -- there is a byte, and it is a form of the rule
    · next b rest hrest =>
      simp only [EStateM.Result.ok.injEq] at h
      obtain ⟨rfl, rfl⟩ := h
      exact ⟨b, trivial, rfl, hrest⟩
    -- the buffer is at its end, where nothing succeeds
    · simp [underrun] at h

/-- `Read.truth` takes any byte there is, and only zero is false. -/
theorem truth_reads : Reads truth Form.truth where
  takes b _ start := (byte_reads.takes b trivial start).map (· != 0)
  accepts {r a r'} h := by
    obtain ⟨b, hb, rfl⟩ := map_eq_ok.1 h
    obtain ⟨s, _, rfl, hrest⟩ := byte_reads.accepts hb
    exact ⟨s, trivial, rfl, hrest⟩

/-- A number that fits into `width` bytes is read back from the bytes it is written as. -/
theorem takes_nat {width n : Nat} (hn : n < 2 ^ (8 * width)) (start : Nat) :
    Takes (nat width) start (Bytes.leBytes width n) n #[] := by
  have h := (takes_raw start (Bytes.leBytes width n)).map Bytes.leValue
  -- reading `width` bytes reduces a number modulo what they can hold
  rw [Bytes.length_leBytes, Bytes.leValue_leBytes, Nat.one_shiftLeft, Nat.mod_eq_of_lt hn] at h
  exact h

/-- What `Read.nat` gives fits into `width` bytes, and stood in the buffer as it is written. -/
theorem nat_eq_ok {width n : Nat} {r r' : Reader} (h : nat width r = .ok n r') :
    n < 2 ^ (8 * width) ∧ r.rest = Bytes.leBytes width n ++ r'.rest := by
  obtain ⟨bs, hbs, rfl⟩ := map_eq_ok.1 h
  obtain ⟨rfl, hrest⟩ := raw_eq_ok hbs
  rw [Bytes.leBytes_leValue, ← Nat.one_shiftLeft]
  exact ⟨Bytes.leValue_lt bs, hrest⟩

/-- A number of `width` bytes, turned into a value whose number it is. -/
theorem nat_reads {width : Nat} {f : Nat → α} {toNat : α → Nat}
    (hlt : ∀ a, toNat a < 2 ^ (8 * width)) (hf : ∀ a, f (toNat a) = a)
    (hinv : ∀ n < 2 ^ (8 * width), toNat (f n) = n) :
    Reads (do return f (← nat width)) (Form.fixed width toNat) where
  takes a _ start := ((takes_nat (hlt a) start).map f).of_eq rfl (hf a) rfl
  accepts {r a r'} h := by
    -- whatever was read is the number of the value that is made of it
    obtain ⟨n, hn, rfl⟩ := map_eq_ok.1 h
    obtain ⟨hlt, hrest⟩ := nat_eq_ok hn
    refine ⟨f n, trivial, rfl, ?_⟩
    show r.rest = Bytes.leBytes width (toNat (f n)) ++ _
    rw [hinv n hlt]
    exact hrest

/-- What `Read.int` accepts are the stored forms of signed numbers. -/
theorem int_reads : Reads int Form.int := by
  -- a signed number is stored as the word with the same bits
  refine nat_reads (fun i => i.toUInt32.toNat_lt) (fun i => ?_) fun n hn => ?_
  · show (UInt32.ofNat i.toUInt32.toNat).toInt32 = i
    rw [UInt32.ofNat_toNat, Int32.toInt32_toUInt32]
  · rw [Int32.toUInt32_ofNat', UInt32.toNat_ofNat_of_lt' hn]

/-- What `Read.number` accepts are the stored forms of floating-point numbers. -/
theorem number_reads : Reads number Form.number := by
  refine nat_reads (fun x => x.bits.toNat_lt) (fun x => ?_) fun n hn => ?_
  · rw [UInt64.ofNat_toNat]
  · exact UInt64.toNat_ofNat_of_lt' hn

/-- What `Read.instruction` accepts are the stored forms of instructions. -/
theorem instruction_reads : Reads instruction Form.instruction := by
  refine nat_reads (fun ins => ins.word.toNat_lt) (fun ins => ?_) fun n hn => ?_
  · rw [UInt32.ofNat_toNat]
  · exact UInt32.toNat_ofNat_of_lt' hn

/-! ### Sequences -/

/-- Reading one entry after the other takes the bytes of the whole sequence. -/
theorem takes_listOf {x : Read α} {F : Form β α} (hx : Reads x F) {ss : List β}
    (hss : F.list.Fits ss) (start : Nat) :
    Takes (listOf ss.length x) start (F.list.bytes ss) (F.list.value ss)
      (F.list.findings start ss) := by
  -- each entry begins where the one before it ends
  induction ss generalizing start with
  | nil => exact takes_pure start []
  | cons s ss ih =>
    rw [List.length_cons, listOf_succ]
    have hs := hx.takes s (hss s List.mem_cons_self) start
    have hrest := (ih (fun t ht => hss t (List.mem_cons_of_mem _ ht))
      (start + (F.bytes s).length)).map (F.value s :: ·)
    exact hs.bind hrest

/-- Entries that are read one after the other are forms, and as many as were asked for. -/
theorem listOf_eq_ok {x : Read α} {F : Form β α} (hx : Reads x F) {n : Nat} {r r' : Reader}
    {as : List α} (h : listOf n x r = .ok as r') :
    ∃ ss : List β, ss.length = n ∧ F.list.Fits ss ∧ F.list.value ss = as ∧
      r.rest = F.list.bytes ss ++ r'.rest := by
  induction n generalizing r as with
  -- no entry was asked for, and nothing has been taken
  | zero =>
    obtain ⟨rfl, rfl⟩ := pure_eq_ok.1 h
    exact ⟨[], rfl, by simp [Form.list], rfl, by simp [Form.list]⟩
  -- the first entry is a form, and so are the others by induction
  | succ n ih =>
    rw [listOf_succ] at h
    obtain ⟨a, _, ha, h⟩ := bind_eq_ok.1 h
    obtain ⟨as, _, has, h⟩ := bind_eq_ok.1 h
    obtain ⟨rfl, rfl⟩ := pure_eq_ok.1 h
    obtain ⟨s, hs, rfl, hrest⟩ := hx.accepts ha
    obtain ⟨ss, rfl, hss, rfl, hrest'⟩ := ih has
    refine ⟨s :: ss, rfl, List.forall_mem_cons.2 ⟨hs, hss⟩, rfl, ?_⟩
    rw [hrest, hrest']
    simp [Form.list]

/-- Where the entries that follow are as long as is asked at the least, the eager check of a count
succeeds. -/
theorem Takes.count {f : Nat → Read γ} {check : Bool} {entrySize n start : Nat} {bs : Bytes}
    {a : γ} {notes : Array Finding} (hn : n < 2 ^ 32) (hroom : n * entrySize ≤ bs.length)
    (h : Takes (f n) (start + 4) bs a notes) :
    Takes (count check entrySize >>= f) start (Bytes.leBytes 4 n ++ bs) a notes := by
  intro rest findings
  -- four bytes are enough for the count
  have hlt : n < 2 ^ (8 * 4) := hn
  have hnat := takes_nat hlt start (bs ++ rest) findings
  rw [Bytes.length_leBytes, Array.append_empty] at hnat
  have hcount : Read.count check entrySize ⟨start, Bytes.leBytes 4 n ++ (bs ++ rest), findings⟩ =
      .ok n ⟨start + 4, bs ++ rest, findings⟩ := by
    refine bind_eq_ok.2 ⟨n, _, hnat, ?_⟩
    cases check with
    | false => rfl
    | true =>
      -- what is asked for is no more than the entries take
      refine bind_eq_ok.2 ⟨(), _, ensure_eq_ok.2 ⟨?_, rfl⟩, rfl⟩
      rw [List.length_append]
      exact Nat.le_trans (Nat.min_le_left _ _) (Nat.le_add_right_of_le hroom)
  rw [List.append_assoc, List.length_append, Bytes.length_leBytes, ← Nat.add_assoc]
  exact bind_eq_ok.2 ⟨n, _, hcount, h rest findings⟩

/-- A count that is read is below `2 ^ 32` and stood in four bytes, with or without the check. -/
theorem count_eq_ok {check : Bool} {entrySize n : Nat} {r r' : Reader}
    (h : count check entrySize r = .ok n r') :
    n < 2 ^ 32 ∧ r.rest = Bytes.leBytes 4 n ++ r'.rest := by
  obtain ⟨m, between, hm, h⟩ := bind_eq_ok.1 h
  -- a check that succeeds does not move the reader
  have hsame : m = n ∧ between = r' := by
    cases check with
    | false => exact pure_eq_ok.1 h
    | true =>
      obtain ⟨_, _, hensure, h⟩ := bind_eq_ok.1 h
      obtain ⟨-, rfl⟩ := ensure_eq_ok.1 hensure
      exact pure_eq_ok.1 h
  obtain ⟨rfl, rfl⟩ := hsame
  exact nat_eq_ok hm

/-- No entry is shorter than `entrySize`, so the eager check never rejects a sequence that is
there. -/
theorem Reads.counted {x : Read α} {F : Form β α} (hx : Reads x F) {check : Bool} {entrySize : Nat}
    (hsize : ∀ s, F.Fits s → entrySize ≤ (F.bytes s).length) :
    Reads (counted check entrySize x) F.counted where
  takes ss hss start := by
    -- entries of `entrySize` bytes or more fill the room that the check asks for
    have hroom := Form.mul_length_le_length_list fun s hs => hsize s (hss.2 s hs)
    exact Takes.count hss.1 hroom (takes_listOf hx hss.2 (start + 4))
  accepts {r as r'} h := by
    -- the count first, then the entries; their bytes are put together again below
    obtain ⟨n, _, hn, h⟩ := bind_eq_ok.1 h
    obtain ⟨hlt, hrest⟩ := count_eq_ok hn
    obtain ⟨ss, rfl, hss, rfl, hrest'⟩ := listOf_eq_ok hx h
    refine ⟨ss, ⟨hlt, hss⟩, rfl, ?_⟩
    rw [hrest, hrest', ← List.append_assoc]
    rfl

/-! ### Strings -/

/-- Reads what follows the size of a string. -/
private def content (size : Nat) : Read (Option Bytes) := do
  if size = 0 then return none
  return some (← raw (size - 1))

/-- Reads a string after its first byte. -/
private def stringAfter (short : UInt8) : Read (Option Bytes) :=
  if short = 0xFF then do content (← nat 8) else content short.toNat

/-- Behind its size, a string takes the bytes of its content. -/
private theorem takes_content (s : StoredString) (start : Nat) :
    Takes (content s.size) start (s.content.getD []) s.content #[] := by
  cases hs : s.content with
  -- an absent string has the size zero and no content
  | none =>
    have hsize : s.size = 0 := by simp [StoredString.size, hs]
    rw [hsize]
    exact takes_pure start none
  -- the size of any other is one more than the length of the content
  | some bs =>
    have hsize : s.size = bs.length + 1 := by simp [StoredString.size, hs]
    rw [hsize]
    exact (takes_raw start bs).map some

/-- Content that is read has the size that was announced. -/
private theorem content_eq_ok {size : Nat} {a : Option Bytes} {r r' : Reader} (escaped : Bool)
    (h : content size r = .ok a r') :
    StoredString.size ⟨a, escaped⟩ = size ∧ r.rest = a.getD [] ++ r'.rest := by
  unfold content at h
  by_cases hsize : size = 0
  -- the size zero announces that there is no string
  · rw [if_pos hsize] at h
    obtain ⟨rfl, rfl⟩ := pure_eq_ok.1 h
    exact ⟨hsize.symm, rfl⟩
  -- any other size is one more than the number of bytes taken
  · rw [if_neg hsize] at h
    obtain ⟨bs, hbs, rfl⟩ := map_eq_ok.1 h
    obtain ⟨hlen, hrest⟩ := raw_eq_ok hbs
    refine ⟨?_, hrest⟩
    show bs.length + 1 = size
    omega

/-- A string that fits has a first byte, behind which its other bytes are taken. -/
private theorem takes_stringAfter {s : StoredString} (hs : Form.string.Fits s) (start : Nat) :
    ∃ short bs, Form.string.bytes s = short :: bs ∧
      Takes (stringAfter short) start bs s.content #[] := by
  obtain ⟨a, escaped⟩ := s
  cases escaped with
  | true =>
    -- the byte `FF` announces a size of eight bytes
    have hlt : StoredString.size ⟨a, true⟩ < 2 ^ (8 * 8) := hs
    have h := (takes_nat hlt start).bind (takes_content ⟨a, true⟩ _)
    refine ⟨0xFF, _, rfl, ?_⟩
    rw [stringAfter, if_pos rfl]
    exact h
  | false =>
    -- a size in one byte that fits is not the byte `FF`, and is read as it is
    have hlt : StoredString.size ⟨a, false⟩ < 0xFF := hs
    refine ⟨_, _, rfl, ?_⟩
    rw [stringAfter, if_neg (StoredString.shortSize_ne_escape hlt),
      StoredString.toNat_shortSize hlt]
    exact takes_content ⟨a, false⟩ start

/-- Whatever is accepted behind a first byte is a string that fits, together with that byte. -/
private theorem stringAfter_eq_ok {short : UInt8} {a : Option Bytes} {r r' : Reader}
    (h : stringAfter short r = .ok a r') :
    ∃ s : StoredString, Form.string.Fits s ∧ s.content = a ∧
      short :: r.rest = Form.string.bytes s ++ r'.rest := by
  unfold stringAfter at h
  by_cases hescape : short = 0xFF
  -- the byte `FF` stood for a size of eight bytes
  · rw [if_pos hescape] at h
    obtain ⟨size, _, hsize, h⟩ := bind_eq_ok.1 h
    obtain ⟨hlt, hrest⟩ := nat_eq_ok hsize
    obtain ⟨rfl, hrest'⟩ := content_eq_ok true h
    refine ⟨⟨a, true⟩, hlt, rfl, ?_⟩
    rw [hrest, hrest', hescape, ← List.append_assoc]
    rfl
  · -- any byte but the escape is a size, and one that fits
    rw [if_neg hescape] at h
    obtain ⟨hsize, hrest⟩ := content_eq_ok false h
    have hne : short.toNat ≠ 0xFF := fun h => hescape (UInt8.toNat_inj.1 h)
    have hlt : short.toNat < 256 := short.toNat_lt
    refine ⟨⟨a, false⟩, ?_, rfl, ?_⟩
    · show StoredString.size ⟨a, false⟩ < 0xFF
      omega
    · show short :: r.rest = UInt8.ofNat (StoredString.size ⟨a, false⟩) :: (a.getD [] ++ r'.rest)
      rw [hsize, UInt8.ofNat_toNat, hrest]

/-- What `Read.string` accepts are the stored forms of strings that fit. -/
theorem string_reads : Reads string Form.string where
  takes s hs start := by
    -- the first byte tells how the rest is read
    obtain ⟨short, bs, hbytes, hafter⟩ := takes_stringAfter hs (start + 1)
    have h := (byte_reads.takes short trivial start).bind hafter
    exact h.of_eq hbytes.symm rfl rfl
  accepts {r a r'} h := by
    -- the same the other way: a first byte, and what is accepted behind it
    obtain ⟨short, _, hshort, h⟩ := bind_eq_ok.1 h
    obtain ⟨_, _, rfl, hrest⟩ := byte_reads.accepts hshort
    obtain ⟨s, hs, rfl, hrest'⟩ := stringAfter_eq_ok h
    exact ⟨s, hs, rfl, hrest.trans hrest'⟩

end Read

end LuaChunk
