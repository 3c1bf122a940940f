import LuaChunk.Reader.Step
import LuaChunk.Proofs.Steps

/-!
# Runs of a reader

Reads can be asked of a reader one after the other, those that fail among them. Each moves over a
slice of the buffer, which may be empty, and the reader stands behind it. A read that succeeds gives
what the slice says, whatever stands around it; a read that fails wants more bytes than are left.

A read of one piece fails where it stands. A read of several parts keeps those it has taken: a count
is kept when there is no room for its entries, and the size of a string when its content is cut
short.

## Key results

* `ReadStep.run_moves`           what one read moves over, and what comes of it
* `ReadStep.exists_run`          a run is made of such moves
* `ReadStep.runAll_discipline`   in a run the slices are the buffer up to where the reader stands
-/

namespace LuaChunk

/-! ### Moving forward -/

/-- Whether a reader at `r` that moves over `slice` stands at `r'`. -/
structure Reader.Over (r : Reader) (slice : Bytes) (r' : Reader) : Prop where
  rest : r.rest = slice ++ r'.rest
  offset : r'.offset = r.offset + slice.length

namespace Reader.Over

variable {r r' r'' : Reader} {slice slice' : Bytes}

/-- A reader that stays where it is moves over nothing. -/
theorem refl (r : Reader) : r.Over [] r :=
  ⟨rfl, rfl⟩

/-- A reader that moves twice moves over both slices. -/
theorem trans (h : r.Over slice r') (h' : r'.Over slice' r'') : r.Over (slice ++ slice') r'' where
  rest := by rw [h.rest, h'.rest, List.append_assoc]
  offset := by rw [h'.offset, h.offset, List.length_append, Nat.add_assoc]

end Reader.Over

namespace ReadStep

/-- The string whose stored form is `slice`: what stands behind its size, unless that is zero. -/
def contentOf : Bytes → Option Bytes
  | [] => none
  | short :: rest =>
    let (size, content) :=
      if short = 0xFF then (Bytes.leValue (rest.take 8), rest.drop 8) else (short.toNat, rest)
    if size = 0 then none else some content

/-- What a step reads from `slice`. -/
def valueOf (slice : Bytes) : ReadStep → ReadValue
  | byte => .byte (slice.headD 0)
  | int => .int (.ofNat (Bytes.leValue slice))
  | sizeT => .sizeT (Bytes.leValue slice)
  | integer => .integer (Int32.ofNat (Bytes.leValue slice)).toInt64
  | number => .number ⟨.ofNat (Bytes.leValue slice)⟩
  | instruction => .instruction ⟨.ofNat (Bytes.leValue slice)⟩
  | count _ => .count (Bytes.leValue slice)
  | string => .string (contentOf slice)
  | raw _ | upTo _ => .bytes slice
  | ensure _ => .nothing
  | header => .header Header.standard

/-- How many bytes a step takes that takes the same number of bytes in one piece. -/
def width? : ReadStep → Option Nat
  | byte => some 1
  | int | integer | instruction => some 4
  | sizeT | number => some 8
  | raw n => some n
  | count _ | string | upTo _ | ensure _ | header => none

/-- A step of one piece reads that many bytes and turns them into its value. -/
theorem read_eq_raw {step : ReadStep} {n : Nat} (h : step.width? = some n) :
    step.read = (do return step.valueOf (← Read.raw n)) := by
  cases step with
  -- a byte is read on its own, and not as a slice of one
  | byte =>
    obtain rfl := Option.some.inj h
    funext r
    obtain ⟨start, bs, findings⟩ := r
    cases bs <;> rfl
  -- the others are read as a number of their width, or as bytes
  | int | sizeT | integer | number | instruction | raw _ =>
    obtain rfl := Option.some.inj h
    simp only [read, valueOf, Read.int, Read.sizeT, Read.integer, Read.number, Read.instruction,
      Read.nat, map_eq_pure_bind, bind_assoc, pure_bind]
  | _ => contradiction

/-- Whether `slice` is what a step moves over that succeeds where `remaining` bytes are left. -/
def Spans (remaining : Nat) (slice : Bytes) : ReadStep → Prop
  | count _ => slice.length = 4
  | string => ∃ s, Form.string.Fits s ∧ slice = Form.string.bytes s
  | upTo n => slice.length = min n remaining
  | ensure _ => slice = []
  | header => slice = Header.bytes
  | step => step.width? = some slice.length

/-- Where a step fails: what it has moved over by then, and how many more bytes it asks for. -/
inductive FailsAfter : ReadStep → Bytes → Nat → Prop
  /-- A step of one piece fails where it stands. -/
  | piece {step : ReadStep} {n : Nat} (h : step.width? = some n) : FailsAfter step [] n
  /-- So does a look ahead. -/
  | ensure (n : Nat) : FailsAfter (.ensure n) [] n
  /-- There is no count. -/
  | count (entrySize : Nat) : FailsAfter (.count entrySize) [] 4
  /-- There is a count, and too little room for the entries. -/
  | entries (entrySize : Nat) {n : Bytes} (h : n.length = 4) :
    FailsAfter (.count entrySize) n (min (Bytes.leValue n * entrySize) Read.maxRequest)
  /-- There is no size. -/
  | size : FailsAfter .string [] 1
  /-- There is an escape, and no size behind it. -/
  | escaped : FailsAfter .string [0xFF] 8
  /-- There is a size of one byte, and too little content. -/
  | short {size : UInt8} (h : size ≠ 0xFF) : FailsAfter .string [size] (size.toNat - 1)
  /-- There is a size of eight bytes, and too little content. -/
  | long {size : Bytes} (h : size.length = 8) :
    FailsAfter .string (0xFF :: size) (Bytes.leValue size - 1)

/-- What comes of a step that begins at `r`: it moves over `slice` to `r'`, and either gives what it
reads from the slice, or fails because more bytes are wanted than are left. -/
inductive Moves (step : ReadStep) (r : Reader) (slice : Bytes) :
    Except Cause ReadValue → Reader → Prop
  | ok {r' : Reader} (hover : r.Over slice r') (hspans : step.Spans r.remaining slice) :
    Moves step r slice (.ok (step.valueOf slice)) r'
  | error {r' : Reader} {requested : Nat} (hover : r.Over slice r')
      (hfails : step.FailsAfter slice requested) (hlacks : r'.remaining < requested) :
    Moves step r slice (.error (.bufferUnderrun requested r'.remaining)) r'

end ReadStep

namespace Read

variable {r r' : Reader} {cause : Cause} {slice : Bytes}

/-- A read whose value is changed fails as the read does. -/
theorem map_eq_error {α γ : Type} {x : Read α} {f : α → γ} :
    (do return f (← x) : Read γ) r = .error cause r' ↔ x r = .error cause r' := by
  rw [bind_eq_error]
  constructor
  · rintro (h | ⟨_, _, -, h⟩)
    · exact h
    · exact nomatch h
  · exact .inl

/-- A reader moves over the bytes that a read has taken. -/
theorem over_of_steps {α : Type} {x y : Read α} {a : α} (h : Steps x y) (hok : x r = .ok a r')
    (hrest : r.rest = slice ++ r'.rest) : r.Over slice r' := by
  obtain ⟨start, bs, findings⟩ := r
  obtain ⟨front, rest, notes, hfront, rfl, -⟩ := h.retraces.ok hok
  -- what was moved over and what is left are the same bytes in both
  obtain rfl := List.append_cancel_right (hrest.symm.trans hfront)
  exact ⟨hrest, rfl⟩

/-- Raw bytes are the slice that was moved over. -/
theorem raw_over {n : Nat} (h : raw n r = .ok slice r') : slice.length = n ∧ r.Over slice r' := by
  obtain ⟨hlen, hrest⟩ := raw_eq_ok h
  exact ⟨hlen, over_of_steps (.piece (raw_piece n)) h hrest⟩

/-- A number is the value of the slice that was moved over. -/
theorem nat_over {width n : Nat} (h : nat width r = .ok n r') :
    ∃ slice, slice.length = width ∧ r.Over slice r' ∧ n = Bytes.leValue slice := by
  obtain ⟨slice, hslice, rfl⟩ := map_eq_ok.1 h
  obtain ⟨hlen, hover⟩ := raw_over hslice
  exact ⟨slice, hlen, hover, rfl⟩

/-- A number fails where fewer bytes than its width are left. -/
theorem nat_eq_error {width : Nat} (h : nat width r = .error cause r') :
    r.remaining < width ∧ cause = .bufferUnderrun width r.remaining ∧ r' = r :=
  (raw_piece width).eq_of_error (map_eq_error.1 h)

/-- A byte is the slice that was moved over. -/
theorem byte_over {b : UInt8} (h : byte r = .ok b r') : r.Over [b] r' := by
  obtain ⟨_, -, rfl, hrest⟩ := byte_reads.accepts h
  exact over_of_steps .byte h hrest

end Read

namespace ReadStep

variable {step : ReadStep} {r r' : Reader} {slice : Bytes}

/-- A step that reads as `x` does moves as `x` does. -/
theorem exists_moves {α : Type} {x : Read α} {f : α → ReadValue}
    (hread : step.read = (do return f (← x)))
    (hok : ∀ a r', x r = .ok a r' → ∃ slice, step.Moves r slice (.ok (f a)) r')
    (herror : ∀ cause r', x r = .error cause r' → ∃ slice, step.Moves r slice (.error cause) r') :
    ∃ slice, step.Moves r slice (step.run r).1 (step.run r).2 := by
  unfold run
  cases h : step.read r with
  | ok value r' =>
    -- the value of the step is made of the value of `x`
    rw [hread] at h
    obtain ⟨a, hx, rfl⟩ := Read.map_eq_ok.1 h
    exact hok a r' hx
  | error cause r' =>
    -- the step fails as `x` does
    rw [hread] at h
    exact herror cause r' (Read.map_eq_error.1 h)

/-- A step of one piece moves over its width or fails where it stands. -/
theorem moves_of_width? {n : Nat} (h : step.width? = some n) (r : Reader) :
    ∃ slice, step.Moves r slice (step.run r).1 (step.run r).2 := by
  refine exists_moves (read_eq_raw h) (fun slice r' hraw => ?_) fun cause r' hraw => ?_
  · obtain ⟨rfl, hover⟩ := Read.raw_over hraw
    refine ⟨slice, .ok hover ?_⟩
    -- all these steps span their width
    cases step <;> first | exact h | contradiction
  · obtain ⟨hlt, rfl, rfl⟩ := (Read.raw_piece n).eq_of_error hraw
    exact ⟨[], .error (.refl _) (.piece h) hlt⟩

/-- A look ahead moves over nothing, whether it succeeds or fails. -/
theorem ensure_moves (n : Nat) (r : Reader) :
    ∃ slice, (ensure n).Moves r slice ((ensure n).run r).1 ((ensure n).run r).2 := by
  refine exists_moves (map_eq_pure_bind ..) (fun _ r' hensure => ?_) fun cause r' hensure => ?_
  · obtain ⟨-, rfl⟩ := Read.ensure_eq_ok.1 hensure
    exact ⟨[], .ok (.refl _) rfl⟩
  · obtain ⟨hlt, rfl, rfl⟩ := Read.ensure_eq_error.1 hensure
    exact ⟨[], .error (.refl _) (.ensure n) hlt⟩

/-- A step that takes as many bytes as are left never fails. -/
theorem upTo_moves (n : Nat) (r : Reader) :
    ∃ slice, (upTo n).Moves r slice ((upTo n).run r).1 ((upTo n).run r).2 :=
  ⟨r.rest.take n, .ok ⟨(List.take_append_drop n r.rest).symm, rfl⟩ List.length_take⟩

/-- A count moves over four bytes if they are there. -/
theorem count_moves (entrySize : Nat) (r : Reader) :
    ∃ slice, (count entrySize).Moves r slice
      ((count entrySize).run r).1 ((count entrySize).run r).2 := by
  refine exists_moves (map_eq_pure_bind ..) (fun n r' hcount => ?_) fun cause r' hcount => ?_
  -- the count is there, and the entries have room
  · obtain ⟨n, between, hnat, hcheck⟩ := Read.bind_eq_ok.1 hcount
    obtain ⟨slice, hlen, hover, rfl⟩ := Read.nat_over hnat
    obtain ⟨_, hensure, rfl⟩ := Read.map_eq_ok.1 hcheck
    obtain ⟨-, rfl⟩ := Read.ensure_eq_ok.1 hensure
    exact ⟨slice, .ok hover hlen⟩
  -- the count is missing, or its entries have no room
  · obtain hnat | ⟨n, between, hnat, hcheck⟩ := Read.bind_eq_error.1 hcount
    · obtain ⟨hlt, rfl, rfl⟩ := Read.nat_eq_error hnat
      exact ⟨[], .error (.refl _) (.count entrySize) hlt⟩
    · -- the count stays read where the check of it fails
      obtain ⟨slice, hlen, hover, rfl⟩ := Read.nat_over hnat
      obtain ⟨hlt, rfl, rfl⟩ := Read.ensure_eq_error.1 (Read.map_eq_error.1 hcheck)
      exact ⟨slice, .error hover (.entries entrySize hlen) hlt⟩

/-- The content of a string can be told from its stored form. -/
theorem contentOf_bytes {s : StoredString} (h : Form.string.Fits s) :
    contentOf (Form.string.bytes s) = s.content := by
  obtain ⟨content, escaped⟩ := s
  cases escaped with
  -- the size stands in eight bytes behind the escape
  | true =>
    have hlt : StoredString.size ⟨content, true⟩ < 2 ^ (8 * 8) := h
    have hsize : Bytes.leValue (Bytes.leBytes 8 (StoredString.size ⟨content, true⟩)) =
        StoredString.size ⟨content, true⟩ := by
      rw [Bytes.leValue_leBytes, Nat.one_shiftLeft, Nat.mod_eq_of_lt hlt]
    simp only [Form.string, contentOf, if_true, List.cons_append]
    rw [List.take_left' (Bytes.length_leBytes ..), List.drop_left' (Bytes.length_leBytes ..), hsize]
    cases content <;> simp [StoredString.size]
  -- the size stands in the first byte
  | false =>
    have hlt : StoredString.size ⟨content, false⟩ < 0xFF := h
    simp only [Form.string, contentOf, Bool.false_eq_true, if_false, List.cons_append,
      if_neg (StoredString.shortSize_ne_escape hlt), StoredString.toNat_shortSize hlt,
      List.nil_append]
    cases content <;> simp [StoredString.size]

/-- Where a string cannot be read, its first byte is missing, or the rest of its size, or some of
its content. -/
theorem string_eq_error {cause : Cause} (h : Read.string r = .error cause r') :
    ∃ slice, string.Moves r slice (.error cause) r' := by
  -- whatever the size, content is missing if fewer bytes are left than it says
  have hcontent : ∀ {size : Nat} {between : Reader},
      (if size = 0 then pure none else do return some (← Read.raw (size - 1)))
          between = .error cause r' →
        between.remaining < size - 1 ∧
          cause = .bufferUnderrun (size - 1) between.remaining ∧ r' = between := by
    intro size between h
    split at h
    · exact nomatch h
    · exact (Read.raw_piece _).eq_of_error (Read.map_eq_error.1 h)
  obtain h | ⟨short, between, hshort, h⟩ := Read.bind_eq_error.1 h
  -- there is no first byte
  · obtain ⟨hlt, rfl, rfl⟩ := Read.byte_piece.eq_of_error h
    exact ⟨[], .error (.refl _) .size hlt⟩
  have hover := Read.byte_over hshort
  by_cases hescape : short = 0xFF
  · subst hescape
    obtain h | ⟨size, sized, hsize, h⟩ := Read.bind_eq_error.1 h
    -- the escape stays read where there is no size behind it, and so does a size without content
    · obtain ⟨hlt, rfl, rfl⟩ := Read.nat_eq_error h
      exact ⟨[0xFF], .error hover .escaped hlt⟩
    · obtain ⟨slice, hlen, hover', rfl⟩ := Read.nat_over hsize
      obtain ⟨hlt, rfl, rfl⟩ := hcontent h
      exact ⟨0xFF :: slice, .error (hover.trans hover') (.long hlen) hlt⟩
  -- a size in one byte stays read where its content is cut short
  · simp only [if_neg hescape, pure_bind] at h
    obtain ⟨hlt, rfl, rfl⟩ := hcontent h
    exact ⟨[short], .error hover (.short hescape) hlt⟩

/-- A string moves over its stored form, or as far as it can be read. -/
theorem string_moves (r : Reader) :
    ∃ slice, string.Moves r slice (string.run r).1 (string.run r).2 := by
  refine exists_moves (map_eq_pure_bind ..) (fun content r' hstring => ?_)
    fun _ _ => string_eq_error
  obtain ⟨s, hs, rfl, hrest⟩ := Read.string_reads.accepts hstring
  have hover := Read.over_of_steps Read.string_steps hstring hrest
  -- the slice is the stored form, of which the content can be told
  have hmoves : string.Moves r _ (.ok (.string (contentOf _))) r' := .ok hover ⟨s, hs, rfl⟩
  rw [contentOf_bytes hs] at hmoves
  exact ⟨_, hmoves⟩

/-- Every step but a whole header moves over a slice. -/
theorem run_moves (hstep : step ≠ .header) (r : Reader) :
    ∃ slice, step.Moves r slice (step.run r).1 (step.run r).2 := by
  cases step with
  | byte | int | sizeT | integer | number | instruction | raw n => exact moves_of_width? rfl r
  | count entrySize => exact count_moves entrySize r
  | string => exact string_moves r
  | upTo n => exact upTo_moves n r
  | ensure n => exact ensure_moves n r
  | header => exact absurd rfl hstep

/-! ### How far a step that fails has moved -/

/-- How many of the bytes `rest` that are left a step moves over if it fails. -/
def kept (rest : Bytes) : ReadStep → Nat
  | count _ => if rest.length < 4 then 0 else 4
  | string =>
    match rest with
    | [] => 0
    | short :: rest => if short = 0xFF ∧ 8 ≤ rest.length then 9 else 1
  | _ => 0

/-- What a step has moved over when it fails is told by the bytes that were left. -/
theorem FailsAfter.length_eq_kept {requested : Nat} (h : step.FailsAfter slice requested)
    (hover : r.Over slice r') (hlacks : r'.remaining < requested) :
    slice.length = step.kept r.rest := by
  have hrest := hover.rest
  cases h with
  | piece h => cases step <;> first | rfl | contradiction
  | ensure n => rfl
  -- fewer than four bytes are left
  | count entrySize =>
    rw [kept, hrest]
    exact (if_pos hlacks).symm
  -- the count is there, and all of it is kept
  | entries entrySize hlen =>
    rw [kept, hrest, if_neg, hlen]
    simp [hlen]
  -- nothing is left at all
  | size =>
    have hnil : r.rest = [] := hrest.trans (List.length_eq_zero_iff.1 (Nat.lt_one_iff.1 hlacks))
    rw [hnil]
    rfl
  -- fewer than eight bytes follow the escape
  | escaped =>
    rw [hrest]
    exact (if_neg fun h => Nat.not_lt.2 h.2 hlacks).symm
  -- the first byte is a size
  | short hne =>
    rw [hrest]
    exact (if_neg fun h => hne h.1).symm
  -- eight bytes follow the escape
  | long hlen =>
    rw [hrest]
    simp [kept, hlen]

/-! ### Runs -/

/-- From `r` on, the steps move over the slices one after the other, each from where the one before
it has left the reader. -/
inductive Run : Reader → List ReadStep → List Bytes → List (Except Cause ReadValue × Reader) → Prop
  | nil (r : Reader) : Run r [] [] []
  | cons {r r' : Reader} {step : ReadStep} {steps : List ReadStep} {slice : Bytes}
      {slices : List Bytes} {outcome : Except Cause ReadValue}
      {results : List (Except Cause ReadValue × Reader)} (hmoves : step.Moves r slice outcome r')
      (hrun : Run r' steps slices results) :
    Run r (step :: steps) (slice :: slices) ((outcome, r') :: results)

/-- Every run of steps other than a whole header is made of moves. -/
theorem exists_run {steps : List ReadStep} (hheader : .header ∉ steps) (r : Reader) :
    ∃ slices, Run r steps slices (runAll steps r) := by
  induction steps generalizing r with
  | nil => exact ⟨[], .nil r⟩
  | cons step steps ih =>
    rw [List.mem_cons, not_or] at hheader
    obtain ⟨hstep, hsteps⟩ := hheader
    -- the first step moves, and the others go on from where it stops
    obtain ⟨slice, hmoves⟩ := run_moves (Ne.symm hstep) r
    obtain ⟨slices, hrun⟩ := ih hsteps (step.run r).2
    exact ⟨slice :: slices, .cons hmoves hrun⟩

/-- A step moves over its slice, whether it succeeds or fails. -/
theorem Moves.toOver {outcome : Except Cause ReadValue} (h : step.Moves r slice outcome r') :
    r.Over slice r' := by
  cases h with
  | ok hover _ => exact hover
  | error hover _ _ => exact hover

namespace Run

variable {steps : List ReadStep} {slices : List Bytes}
  {results : List (Except Cause ReadValue × Reader)}

/-- A run has a slice and a result for every step. -/
theorem lengths (h : Run r steps slices results) :
    slices.length = steps.length ∧ results.length = steps.length := by
  induction h with
  | nil r => exact ⟨rfl, rfl⟩
  | cons _ _ ih => exact ⟨congrArg (· + 1) ih.1, congrArg (· + 1) ih.2⟩

/-- Between the first reader and any other lie the slices of the steps between them. -/
theorem over_slices (h : Run r steps slices results) {i : Nat}
    (hr' : (r :: results.map Prod.snd)[i]? = some r') : r.Over (slices.take i).flatten r' := by
  induction h generalizing i with
  | nil r =>
    cases i with
    | zero =>
      obtain rfl := Option.some.inj hr'
      exact .refl r
    | succ i => exact nomatch hr'
  | cons hmoves hrun ih =>
    cases i with
    | zero =>
      obtain rfl := Option.some.inj hr'
      exact .refl _
    | succ i =>
      -- the first slice lies in front of those of the other steps
      exact hmoves.toOver.trans (ih hr')

/-- Every step of a run moves from where the one before it has left the reader. -/
theorem moves (h : Run r steps slices results) {i : Nat} {before after : Reader}
    {outcome : Except Cause ReadValue} (hstep : steps[i]? = some step)
    (hslice : slices[i]? = some slice) (hbefore : (r :: results.map Prod.snd)[i]? = some before)
    (hresult : results[i]? = some (outcome, after)) : step.Moves before slice outcome after := by
  induction h generalizing i with
  | nil r => exact nomatch hstep
  | cons hmoves hrun ih =>
    cases i with
    -- the first step moves from where the run begins
    | zero =>
      obtain rfl := Option.some.inj hstep
      obtain rfl := Option.some.inj hslice
      obtain rfl := Option.some.inj hbefore
      obtain ⟨rfl, rfl⟩ := Prod.mk.inj (Option.some.inj hresult)
      exact hmoves
    -- the others, from where the run is without its first step
    | succ i => exact ih hstep hslice hbefore hresult

/-- A reader never moves back. -/
theorem pairwise_offset (h : Run r steps slices results) :
    (r :: results.map Prod.snd).Pairwise (·.offset ≤ ·.offset) := by
  induction h with
  | nil r => exact List.pairwise_singleton _ r
  | cons hmoves hrun ih =>
    refine List.pairwise_cons.2 ⟨fun r'' hr'' => ?_, ih⟩
    obtain ⟨i, hi⟩ := List.mem_iff_getElem?.1 hr''
    rw [(hmoves.toOver.trans (hrun.over_slices hi)).offset]
    exact Nat.le_add_right ..

end Run

/-- In a run of reads, those that fail among them, the reader stays within the buffer and never
moves back, and what the reads have moved over up to any of them is the buffer up to where the
reader stands. A read that succeeds gives what the slice it has moved over says; a read that fails
wants more bytes than are left, and has moved as far as `kept` tells. -/
theorem runAll_discipline (bs : Bytes) (steps : List ReadStep) (hheader : .header ∉ steps) :
    let results := runAll steps (.ofBytes bs)
    let readers := Reader.ofBytes bs :: results.map Prod.snd
    results.length = steps.length ∧
      (∀ r ∈ readers, r.offset + r.remaining = bs.length ∧ r.rest = bs.drop r.offset) ∧
      readers.Pairwise (·.offset ≤ ·.offset) ∧
      ∃ slices : List Bytes, slices.length = steps.length ∧
        (∀ i r, readers[i]? = some r → (slices.take i).flatten = bs.take r.offset) ∧
        ∀ (i : Nat) (step : ReadStep) (slice : Bytes) (r r' : Reader)
          (outcome : Except Cause ReadValue), steps[i]? = some step → slices[i]? = some slice →
          readers[i]? = some r → results[i]? = some (outcome, r') →
          step.Moves r slice outcome r' ∧
            ∀ cause, outcome = .error cause → r'.offset = r.offset + step.kept r.rest := by
  intro results readers
  obtain ⟨slices, hrun⟩ := exists_run hheader (.ofBytes bs)
  obtain ⟨hslices, hresults⟩ := hrun.lengths
  -- of any reader: what lies before it, and what behind
  have hsplit : ∀ i r, readers[i]? = some r →
      bs = (slices.take i).flatten ++ r.rest ∧ r.offset = (slices.take i).flatten.length := by
    intro i r hr
    have hover := hrun.over_slices hr
    exact ⟨hover.rest, hover.offset.trans (Nat.zero_add _)⟩
  refine ⟨hresults, fun r hr => ?_, hrun.pairwise_offset, slices, hslices, fun i r hr => ?_, ?_⟩
  -- a reader stands behind the slices in front of it, and what is left is the rest of the buffer
  · obtain ⟨i, hi⟩ := List.mem_iff_getElem?.1 hr
    obtain ⟨hbs, hoffset⟩ := hsplit i r hi
    constructor
    · rw [hoffset, hbs, List.length_append]
      rfl
    · rw [hoffset, hbs, List.drop_left]
  · obtain ⟨hbs, hoffset⟩ := hsplit i r hr
    rw [hoffset, hbs, List.take_left]
  · intro i step slice r r' outcome hstep hslice hr hresult
    have hmoves := hrun.moves hstep hslice hr hresult
    refine ⟨hmoves, ?_⟩
    rintro cause rfl
    -- a step that fails has moved as far as it keeps
    cases hmoves with
    | error hover hfails hlacks => rw [hover.offset, hfails.length_eq_kept hover hlacks]

example : (runAll [string, byte, int] (.ofBytes [0x05, 0x61, 0x62])).map (·.2.offset) = [1, 2, 2] :=
  rfl

/-- A string cut short in its content, then a byte and a number cut short. -/
theorem runAll_discipline_short :
    ReadStep.header ∉ [string, byte, int] ∧
      ∃ slices : List Bytes, slices.length = 3 ∧
        ∀ i r,
          (Reader.ofBytes [0x05, 0x61, 0x62] ::
            (runAll [string, byte, int] (.ofBytes [0x05, 0x61, 0x62])).map Prod.snd)[i]? = some r →
          (slices.take i).flatten = [0x05, 0x61, 0x62].take r.offset := by
  have hheader : ReadStep.header ∉ [string, byte, int] := by decide
  obtain ⟨-, -, -, slices, hlength, hflatten, -⟩ :=
    runAll_discipline [0x05, 0x61, 0x62] [string, byte, int] hheader
  exact ⟨hheader, slices, hlength, hflatten⟩

end ReadStep

end LuaChunk
