import LuaChunk.Proofs.Interning

/-!
# Reading a longer buffer

A read is given the same buffer once more, with more bytes behind it. What succeeded succeeds again
and leaves the new bytes alone, and what failed for the bytes that it saw fails again. A read that
failed for want of bytes may get further, but it notes first what it noted before.

## Key results

* `Extensible.bind`       the law passes from two reads to one after the other
* `error_of_take`         what succeeds on a buffer fails on it cut before where it stopped
* `Steps.extensible`      it holds of every read that is put together from steps
* `closure_extensible`    and of the read of a whole chunk
* `load_append`           how the load of a longer buffer differs from that of the shorter one
-/

namespace LuaChunk

/-- A reader of a buffer with more bytes behind it. -/
def Reader.extend (r : Reader) (more : Bytes) : Reader :=
  { r with rest := r.rest ++ more }

namespace Read

variable {α γ : Type}

/-- What the result of a read tells of its result on the buffer with `more` behind it. -/
inductive Extends (more : Bytes) :
    EStateM.Result Cause Reader α → EStateM.Result Cause Reader α → Prop
  | ok (a : α) (r : Reader) : Extends more (.ok a r) (.ok a (r.extend more))
  | settled {cause : Cause} (r : Reader) (hcause : cause.Settled) :
      Extends more (.error cause r) (.error cause (r.extend more))
  /-- More bytes are missing than came. -/
  | missing {m n : Nat} (r : Reader) (hlt : n + more.length < m) :
      Extends more (.error (.bufferUnderrun m n) r)
        (.error (.bufferUnderrun m (n + more.length)) (r.extend more))
  /-- The bytes that were missing have come, and nothing is known but what was noted before. -/
  | supplied {cause : Cause} {r : Reader} {result : EStateM.Result Cause Reader α}
      (hcause : ¬cause.Settled)
      (hroom : ∀ m n, cause = .bufferUnderrun m n → n < m ∧ m ≤ n + more.length)
      (hnotes : r.findings.toList <+: (stop result).findings.toList) :
      Extends more (.error cause r) result

/-- What is noted on a buffer is noted first with more bytes behind it. -/
theorem Extends.findings_isPrefix {more : Bytes} {result result' : EStateM.Result Cause Reader α}
    (h : Extends more result result') :
    (stop result).findings.toList <+: (stop result').findings.toList := by
  cases h with
  | ok a r => exact List.prefix_refl _
  | settled r hcause => exact List.prefix_refl _
  | missing r hlt => exact List.prefix_refl _
  | supplied hcause hroom hnotes => exact hnotes

section Inversion

variable {more : Bytes} {r : Reader} {result : EStateM.Result Cause Reader α}

/-- What succeeded succeeds again. -/
theorem Extends.eq_ok {a : α} (h : Extends more (.ok a r) result) :
    result = .ok a (r.extend more) := by
  cases h
  rfl

/-- What failed for the bytes that it saw fails again. -/
theorem Extends.eq_of_settled {cause : Cause} (h : Extends more (.error cause r) result)
    (hcause : cause.Settled) : result = .error cause (r.extend more) := by
  cases h with
  | settled => rfl
  | missing => exact hcause.elim
  | supplied hunsettled => exact absurd hcause hunsettled

/-- Too few bytes that come are counted as left, and are still too few. -/
theorem Extends.eq_of_underrun {m n : Nat}
    (h : Extends more (.error (.bufferUnderrun m n) r) result) (hlt : more.length < m - n) :
    result = .error (.bufferUnderrun m (n + more.length)) (r.extend more) := by
  cases h with
  | settled _ hcause => exact hcause.elim
  | missing => rfl
  | supplied _ hroom =>
    -- a shortage that was made up is no more than what came
    have hle := (hroom m n rfl).2
    omega

end Inversion

/-- Whether a read only adds to the notes, and goes on in the same way on a longer buffer. -/
structure Extensible (x : Read α) : Prop where
  grows : ∀ r, r.findings.toList <+: (stop (x r)).findings.toList
  extends_append : ∀ more r, Extends more (x r) (x (r.extend more))

/-- A read that follows adds to the notes of the first. -/
theorem findings_prefix_bind {x : Read α} {f : α → Read γ} (hf : ∀ a, Extensible (f a))
    (r : Reader) : (stop (x r)).findings.toList <+: (stop ((x >>= f) r)).findings.toList := by
  -- the second read adds to what the first has noted, or is not reached
  cases hx : x r with
  | ok a r' =>
    rw [bind_of_ok hx]
    exact (hf a).grows r'
  | error cause r' =>
    rw [bind_eq_error.2 (.inl hx)]
    exact List.prefix_refl _

/-- Two reads in a row go on in the same way on a longer buffer if each of them does. -/
theorem Extensible.bind {x : Read α} {f : α → Read γ} (hx : Extensible x)
    (hf : ∀ a, Extensible (f a)) : Extensible (x >>= f) where
  grows r := (hx.grows r).trans (findings_prefix_bind hf r)
  extends_append more r := by
    have h := hx.extends_append more r
    have hgrows := findings_prefix_bind (x := x) hf (r.extend more)
    generalize hres : x r = result at h
    generalize hres' : x (r.extend more) = result' at h hgrows
    cases h with
    -- the first read succeeds on both buffers, and the second decides
    | ok a r' =>
      rw [bind_of_ok hres, bind_of_ok hres']
      exact (hf a).extends_append more r'
    -- the first read fails on both
    | settled r' hcause =>
      rw [bind_eq_error.2 (.inl hres), bind_eq_error.2 (.inl hres')]
      exact .settled r' hcause
    | missing r' hlt =>
      rw [bind_eq_error.2 (.inl hres), bind_eq_error.2 (.inl hres')]
      exact .missing r' hlt
    -- the first read fails on the shorter buffer only
    | supplied hcause hroom hnotes =>
      rw [bind_eq_error.2 (.inl hres)]
      exact .supplied hcause hroom (hnotes.trans hgrows)

/-! ### Reads put together from steps -/

/-- An underrun is repeated with the new bytes counted, or they are enough to get further. -/
theorem extends_underrun {n : Nat} {r : Reader} {more : Bytes}
    {result : EStateM.Result Cause Reader α} (hlt : r.rest.length < n)
    (hagain : r.rest.length + more.length < n →
      result = .error (.bufferUnderrun n (r.rest.length + more.length)) (r.extend more))
    (hgrows : r.findings.toList <+: (stop result).findings.toList) :
    Extends more (.error (.bufferUnderrun n r.rest.length) r) result := by
  -- they are still too few, or what was wanted is there
  rcases Nat.lt_or_ge (r.rest.length + more.length) n with hlt' | hle
  · rw [hagain hlt']
    exact .missing r hlt'
  · refine .supplied id (fun m k hcause => ?_) hgrows
    obtain ⟨rfl, rfl⟩ := Cause.bufferUnderrun.inj hcause
    exact ⟨hlt, hle⟩

@[simp] theorem length_rest_extend (r : Reader) (more : Bytes) :
    (r.extend more).rest.length = r.rest.length + more.length :=
  List.length_append

/-- A read that succeeds on a buffer fails on it cut anywhere before where it stopped, and in a way
that more bytes can remove. -/
theorem Extensible.error_of_take {x : Read α} (hx : Extensible x) {start : Nat} {bs : Bytes}
    {findings : Array Finding} {a : α} {r : Reader} (hok : x ⟨start, bs, findings⟩ = .ok a r)
    {k : Nat} (hk : k < bs.length - r.remaining) :
    ∃ cause r', x ⟨start, bs.take k, findings⟩ = .error cause r' ∧ ¬cause.Settled ∧
      ∀ m n, cause = .bufferUnderrun m n → n < m := by
  have hextend : (⟨start, bs.take k, findings⟩ : Reader).extend (bs.drop k) =
      ⟨start, bs, findings⟩ := by
    simp only [Reader.extend, List.take_append_drop]
  have h := hx.extends_append (bs.drop k) ⟨start, bs.take k, findings⟩
  rw [hextend, hok] at h
  generalize x ⟨start, bs.take k, findings⟩ = result at h
  cases h with
  | ok a r' =>
    -- the bytes that were cut off would have been left over
    have hlen := length_rest_extend r' (bs.drop k)
    rw [List.length_drop] at hlen
    unfold Reader.remaining at hk
    omega
  | supplied hcause hroom _ => exact ⟨_, _, rfl, hcause, fun m n heq => (hroom m n heq).1⟩

/-- A read that can be read again on its own only adds to the notes. -/
theorem Retraces.grows {x y : Read α} (h : Retraces x y) (r : Reader) :
    r.findings.toList <+: (stop (x r)).findings.toList := by
  obtain ⟨start, bs, findings⟩ := r
  cases hx : x ⟨start, bs, findings⟩ with
  | ok a r' =>
    -- the notes of a success are those from before and what was added
    obtain ⟨_, _, notes, -, rfl, -⟩ := h.ok hx
    simp [stop]
  | error cause r' =>
    obtain ⟨_, _, notes, -, rfl, -⟩ := h.error hx
    simp [stop]

/-- A read of a fixed number of bytes waits for them. -/
theorem Piece.extensible {n : Nat} {x : Read α} (h : Piece n x) : Extensible x where
  grows := h.retraces.grows
  extends_append more r := by
    -- there are too few bytes for the piece
    rcases Nat.lt_or_ge r.rest.length n with hlt | hle
    · rw [h.fails hlt]
      refine extends_underrun hlt (fun hlt' => ?_) (h.retraces.grows (r.extend more))
      rw [← length_rest_extend] at hlt' ⊢
      exact h.fails hlt'
    · -- the piece is there, and what follows it does not matter
      obtain ⟨start, bs, findings⟩ := r
      obtain ⟨front, rest, a, notes, rfl, htakes⟩ := h.takes_of_le start hle
      have hok := htakes rest findings
      have hok' := htakes (rest ++ more) findings
      rw [← List.append_assoc] at hok'
      rw [Reader.extend, hok, hok']
      exact .ok a _

/-- A check for a number of bytes waits for them. -/
theorem ensure_extensible (n : Nat) : Extensible (ensure n) where
  grows r := by
    unfold ensure
    split <;> exact List.prefix_refl _
  extends_append more r := by
    -- the check fails on the shorter buffer, or succeeds on both
    rcases Nat.lt_or_ge r.rest.length n with hlt | hle
    · rw [ensure_eq_error.2 ⟨hlt, rfl, rfl⟩]
      refine extends_underrun hlt (fun hlt' => ?_) ?_
      · exact ensure_eq_error.2 ⟨by simpa using hlt', by simp, rfl⟩
      · unfold ensure
        split <;> exact List.prefix_refl _
    · have hle' : n ≤ (r.extend more).rest.length := by
        rw [length_rest_extend]
        exact Nat.le_add_right_of_le hle
      rw [ensure_eq_ok.2 ⟨hle, rfl⟩, ensure_eq_ok.2 ⟨hle', rfl⟩]
      exact .ok () r

/-- Reads that are put together from steps go on in the same way on a longer buffer. -/
theorem Steps.extensible {x y : Read α} (h : Steps x y) : Extensible x := by
  induction h with
  | piece h => exact h.extensible
  | throw hsettled hliteral =>
    -- what is thrown does not depend on the bytes behind
    exact ⟨fun r => List.prefix_refl _, fun more r => .settled r hsettled⟩
  | bind _ _ ihx ihf => exact ihx.bind ihf
  | check hx hend ih => exact (ensure_extensible _).bind fun _ => ih

/-! ### Chunks -/

/-- A literal takes as many bytes as it should have, or as are left, and is compared with them. -/
theorem literal_eq (field : LiteralField) (r : Reader) :
    literal field r =
      let actual := r.rest.take field.expected.length
      let after := r.advance actual.length (r.rest.drop field.expected.length)
      if actual = field.expected then .ok () after
      else .error (.headerMismatch field field.expected actual) after := by
  -- a slice of what is left can always be taken, so that only the comparison can fail
  have hupTo : upTo field.expected.length r = .ok (r.rest.take field.expected.length)
      (r.advance (r.rest.take field.expected.length).length
        (r.rest.drop field.expected.length)) :=
    rfl
  rw [literal, bind_of_ok hupTo]
  split
  · next hne => rw [if_neg hne]; rfl
  · next heq => rw [if_pos (Decidable.not_not.1 heq)]; rfl

/-- A literal that the buffer cuts short is not what it should be. -/
theorem literal_of_length_lt {field : LiteralField} {r : Reader}
    (hlt : r.rest.length < field.expected.length) :
    literal field r =
      .error (.headerMismatch field field.expected r.rest) (r.advance r.rest.length []) := by
  have htake : r.rest.take field.expected.length = r.rest :=
    List.take_of_length_le (Nat.le_of_lt hlt)
  have hdrop : r.rest.drop field.expected.length = [] :=
    List.drop_eq_nil_of_le (Nat.le_of_lt hlt)
  have hne : r.rest ≠ field.expected := fun heq => Nat.ne_of_lt hlt (congrArg List.length heq)
  rw [literal_eq]
  simp only [htake, hdrop, if_neg hne]

/-- Nothing is noted of a literal. -/
theorem findings_literal (field : LiteralField) (r : Reader) :
    (stop (literal field r)).findings = r.findings := by
  rw [literal_eq]
  dsimp only
  split <;> rfl

/-- To read a literal takes nothing away from the notes. -/
theorem findings_prefix_literal (field : LiteralField) (r r' : Reader)
    (h : r.findings = r'.findings) :
    r.findings.toList <+: (stop (literal field r')).findings.toList := by
  refine ⟨[], ?_⟩
  rw [findings_literal, h, List.append_nil]

/-- A literal is settled as soon as all its bytes are there. -/
theorem literal_extensible (field : LiteralField) : Extensible (literal field) where
  grows r := findings_prefix_literal field r r rfl
  extends_append more r := by
    rcases Nat.lt_or_ge r.rest.length field.expected.length with hlt | hle
    -- the literal is cut short, and no bytes that come are known yet
    · rw [literal_of_length_lt hlt]
      exact .supplied (Nat.not_le.2 hlt) nofun (findings_prefix_literal field _ _ rfl)
    -- all its bytes are there, and it is right or wrong whatever follows
    · have htake : (r.rest ++ more).take field.expected.length =
          r.rest.take field.expected.length := List.take_append_of_le_length hle
      have hdrop : (r.rest ++ more).drop field.expected.length =
          r.rest.drop field.expected.length ++ more := List.drop_append_of_le_length hle
      rw [literal_eq, literal_eq]
      simp only [Reader.extend, htake, hdrop]
      split
      · exact .ok () _
      · exact .settled _ (by simp [Cause.Settled, hle])

/-- So are the four literals of a header. -/
theorem literals_extensible : Extensible literals :=
  (literal_extensible _).bind fun _ => (literal_extensible _).bind fun _ =>
    (literal_extensible _).bind fun _ => literal_extensible _

/-- The read of a chunk goes on in the same way on a longer buffer. -/
theorem closure_extensible (options : ReadOptions) : Extensible (closure options) := by
  rw [closure_eq, parts_eq]
  exact (literals_extensible.bind fun _ => (body_steps options).extensible).bind
    fun parts => (assemble_steps parts).extensible

end Read

/-! ### Loading -/

/-- Strings are noted in the order of all notes. -/
theorem Reader.strings_isPrefix {r r' : Reader} (h : r.findings.toList <+: r'.findings.toList) :
    r.strings <+: r'.strings :=
  List.IsPrefix.filterMap _ h

/-- A longer buffer adds to a table what the shorter one adds, and then perhaps more. -/
theorem added_prefix_load (options : LoadOptions) (table : StringTable) (name : String)
    (bs more : Bytes) :
    ∃ added added',
      (load options table name bs).table.contents.toList = table.contents.toList ++ added ∧
      (load options table name (bs ++ more)).table.contents.toList =
        table.contents.toList ++ added' ∧
      added <+: added' := by
  have hfindings := ((Read.closure_extensible options.toReadOptions).extends_append more
    (.ofBytes bs)).findings_isPrefix
  obtain ⟨ss, hss⟩ := Reader.strings_isPrefix hfindings
  rw [StringTable.table_load, StringTable.table_load]
  obtain ⟨added, hadded⟩ := StringTable.contents_prefix_internAll table
    (Read.stop (Read.closure options.toReadOptions (.ofBytes bs))).strings
  -- the longer buffer's strings are interned in the table that the shorter one leaves
  obtain ⟨rest, hrest⟩ := StringTable.contents_prefix_internAll (table.internAll
    (Read.stop (Read.closure options.toReadOptions (.ofBytes bs))).strings) ss
  refine ⟨added, added ++ rest, hadded.symm, ?_, List.prefix_append _ _⟩
  rw [← List.append_assoc, hadded, hrest, ← StringTable.internAll_append, hss]
  rfl

/-- A reader at the front of a buffer is at the front of the longer one. -/
theorem Reader.extend_ofBytes (bs more : Bytes) :
    (Reader.ofBytes bs).extend more = .ofBytes (bs ++ more) :=
  rfl

/-- Bytes behind a buffer change nothing of a load that succeeds, nothing of a failure that lies in
the buffer, and in a failure for want of bytes no more than how many are left, as long as they are
not enough. The strings that a load adds to a table are added first with more bytes as well. -/
theorem load_append (options : LoadOptions) (table : StringTable) (name : String)
    (bs more : Bytes) :
    let report := load options table name bs
    let report' := load options table name (bs ++ more)
    (∀ c, report.outcome = .ok c → report'.outcome = .ok c) ∧
    (∀ error, report.outcome = .error error → error.cause.Settled →
      report'.outcome = .error error) ∧
    (∀ error requested remaining, report.outcome = .error error →
      error.cause = .bufferUnderrun requested remaining →
      more.length < requested - remaining →
        report'.outcome =
          .error { error with cause := .bufferUnderrun requested (remaining + more.length) }) ∧
    ∃ added added', report.table.contents.toList = table.contents.toList ++ added ∧
      report'.table.contents.toList = table.contents.toList ++ added' ∧ added <+: added' := by
  intro report report'
  have h := (Read.closure_extensible options.toReadOptions).extends_append more (.ofBytes bs)
  rw [Reader.extend_ofBytes] at h
  -- only one of the three outcomes is there, and the others hold of nothing
  cases hread : Read.closure options.toReadOptions (.ofBytes bs) with
  | ok stored r =>
    rw [hread] at h
    have hok : report.outcome = _ := outcome_load_of_ok hread
    have hok' : report'.outcome = report.outcome :=
      (outcome_load_of_ok h.eq_ok).trans hok.symm
    refine ⟨fun c hc => hok'.trans hc, fun error herror => ?_, fun error m n herror => ?_,
      added_prefix_load options table name bs more⟩
    -- a load that has succeeded has no error to keep
    · exact nomatch hok.symm.trans herror
    · exact nomatch hok.symm.trans herror
  | error cause r =>
    rw [hread] at h
    have herror : report.outcome = _ := outcome_load_of_error hread
    refine ⟨fun c hc => ?_, ?_, ?_, added_prefix_load options table name bs more⟩
    -- one that has failed has no closure to keep
    · exact nomatch herror.symm.trans hc
    -- the error is settled, and more bytes do not change it
    · rintro error herror' hsettled
      obtain rfl := Except.error.inj (herror.symm.trans herror')
      exact outcome_load_of_error (h.eq_of_settled hsettled)
    -- it asks for more bytes than have come, and counts those that have
    · rintro error m n herror' hcause hlt
      obtain rfl := Except.error.inj (herror.symm.trans herror')
      obtain rfl : cause = .bufferUnderrun m n := hcause
      exact outcome_load_of_error (h.eq_of_underrun hlt)

/-- A chunk that loads, a signature that is wrong, and widths of which the last are missing. -/
theorem load_append_sample :
    let table := StringTable.empty 0
    let chunk := StoredChunk.sample
    let c := chunk.closure.map (table.internAll chunk.strings).handle
    let wrong : LoadError := ⟨"wrong", .headerMismatch .signature Header.signature [0x1b, 0, 0, 0]⟩
    ((load {} table "sample" chunk.bytes).outcome = .ok c ∧
      (load {} table "sample" (chunk.bytes ++ [0xFF])).outcome = .ok c) ∧
    ((load {} table "wrong" [0x1b, 0, 0, 0]).outcome = .error wrong ∧ wrong.cause.Settled ∧
      (load {} table "wrong" ([0x1b, 0, 0, 0] ++ [0x4c])).outcome = .error wrong) ∧
    (load {} table "cut" (Header.bytes.take 14)).outcome = .error ⟨"cut", .bufferUnderrun 5 2⟩ ∧
      [(4 : UInt8), 4].length < 5 - 2 ∧
      (load {} table "cut" (Header.bytes.take 14 ++ [4, 4])).outcome =
        .error ⟨"cut", .bufferUnderrun 5 4⟩ := by
  intro table chunk c wrong
  have hload : (load {} table "sample" chunk.bytes).outcome = .ok c :=
    outcome_load_sample true table "sample"
  have hwrong : (load {} table "wrong" [0x1b, 0, 0, 0]).outcome = .error wrong := rfl
  have hsettled : wrong.cause.Settled := Nat.le_refl 4
  have hcut : (load {} table "cut" (Header.bytes.take 14)).outcome =
      .error ⟨"cut", .bufferUnderrun 5 2⟩ := rfl
  have hlt : [(4 : UInt8), 4].length < 5 - 2 := by decide
  exact ⟨⟨hload, (load_append {} table "sample" chunk.bytes [0xFF]).1 c hload⟩,
    ⟨hwrong, hsettled,
      (load_append {} table "wrong" [0x1b, 0, 0, 0] [0x4c]).2.1 wrong hwrong hsettled⟩,
    hcut, hlt,
    (load_append {} table "cut" (Header.bytes.take 14) [4, 4]).2.2.1 _ 5 2 hcut rfl hlt⟩

end LuaChunk
