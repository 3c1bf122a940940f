import LuaChunk.Proofs.Extension
import LuaChunk.Proofs.StringEnds
import LuaChunk.Proofs.RecordEnds

/-!
# What is noted of a chunk that is cut short

A reader without early checks notes of a stored form that is cut short exactly what it notes of the
whole form in front of the cut: the strings that end there, and the records that do. `NotesAt` says
so of one read and one form; it passes through reads of several parts, and most reads note nothing
at all.

## Key results

* `strings_marks`           the strings that are noted of a function are those that end in it
* `records_marks`           and so are the records
* `NotesAt.bind`            the law passes from two reads to one after the other
* `Quiet.notesAt`           it holds of every read that notes nothing
* `prototype_notesForm`     and of function records
* `findings_stop_take`      what is noted of a chunk that is cut short
-/

namespace LuaChunk

/-! ### Marks -/

/-- Findings, each with the offset at which it is noted. -/
abbrev Marks := List (Nat × Finding)

namespace Marks

/-- What is noted. -/
def findings (marks : Marks) : Array Finding :=
  (marks.map (·.2)).toArray

/-- What is noted at `limit` or before. -/
def within (limit : Nat) (marks : Marks) : Array Finding :=
  findings (marks.filter (·.1 ≤ limit))

/-- What is noted at marks in a row is noted one after the other. -/
@[simp] theorem findings_append (marks marks' : Marks) :
    findings (marks ++ marks') = findings marks ++ findings marks' := by
  simp only [findings, List.map_append, List.append_toArray]

/-- So is what is noted in front of a place. -/
@[simp] theorem within_append (limit : Nat) (marks marks' : Marks) :
    within limit (marks ++ marks') = within limit marks ++ within limit marks' := by
  simp only [within, List.filter_append, findings_append]

/-- In front of a place behind all marks all is noted. -/
theorem within_of_forall_le {limit : Nat} {marks : Marks} (h : ∀ m ∈ marks, m.1 ≤ limit) :
    within limit marks = findings marks := by
  rw [within, List.filter_eq_self.2 fun m hm => decide_eq_true (h m hm)]

/-- In front of a place before all marks nothing is noted. -/
theorem within_of_forall_lt {limit : Nat} {marks : Marks} (h : ∀ m ∈ marks, limit < m.1) :
    within limit marks = #[] := by
  have hnone : marks.filter (·.1 ≤ limit) = [] :=
    List.filter_eq_nil_iff.2 fun m hm => by simpa using h m hm
  rw [within, hnone]
  rfl

/-- The marks of one kind, as `f` shows what is noted. -/
def only {γ : Type} (f : Finding → Option γ) (marks : Marks) : List (Nat × γ) :=
  marks.filterMap fun (offset, finding) => (f finding).map (offset, ·)

/-- What is noted of one kind are the marks of that kind. -/
theorem filterMap_findings {γ : Type} (f : Finding → Option γ) (marks : Marks) :
    (findings marks).toList.filterMap f = (only f marks).map (·.2) := by
  simp only [findings, only, List.filterMap_map, List.map_filterMap]
  congr 1
  funext (offset, finding)
  cases hf : f finding <;> simp [hf]

/-- Of one kind, what is noted at `limit` or before are the marks there. -/
theorem filterMap_within {γ : Type} (f : Finding → Option γ) (limit : Nat) (marks : Marks) :
    (within limit marks).toList.filterMap f =
      ((only f marks).filter (·.1 ≤ limit)).map (·.2) := by
  have hfilter : only f (marks.filter (·.1 ≤ limit)) = (only f marks).filter (·.1 ≤ limit) := by
    simp only [only, List.filterMap_filter, List.filter_filterMap]
    congr 1
    funext (offset, finding)
    cases f finding <;> simp [Option.filter]
  rw [within, filterMap_findings, hfilter]

end Marks

namespace StoredConstant

/-- What is noted of a constant is noted when it has been read. -/
def marks (start : Nat) (k : StoredConstant) : Marks :=
  (Form.constant.findings start k).toList.map (start + (Form.constant.bytes k).length, ·)

end StoredConstant

namespace StoredFunction

mutual

/-- What is noted of a record that begins at `start`: its strings, then what is noted of the records
inside it, then at its end the record itself. -/
def marks (depth start : Nat) : StoredFunction → Marks
  | .node r cs =>
    Form.constant.eachAt StoredConstant.marks (start + r.frontBytes.length + 4) r.constants
      ++ marksAll (depth + 1) (start + r.headBytes.length + 4) cs
      ++ [(start + (bytes (.node r cs)).length, .record (summary start depth (.node r cs)))]

/-- What is noted of several records. -/
def marksAll (depth start : Nat) : List StoredFunction → Marks
  | [] => []
  | c :: cs => marks depth start c ++ marksAll depth (start + (bytes c).length) cs

end

/-- A record has the marks of its constants, then of its children, then its own at its end. -/
theorem marks_node (depth room start : Nat) (r : StoredRecord) (cs : List StoredFunction) :
    marks depth start (.node r cs) =
      Form.constant.eachAt StoredConstant.marks (start + r.frontBytes.length + 4) r.constants
        ++ (Form.function (depth + 1) room).eachAt (marks (depth + 1))
          (start + r.headBytes.length + 4) cs
        ++ [(start + (bytes (.node r cs)).length, .record (summary start depth (.node r cs)))] := by
  -- the marks of a list are those of any sequence of forms
  have hall : ∀ cs start, marksAll (depth + 1) start cs =
      (Form.function (depth + 1) room).eachAt (marks (depth + 1)) start cs := by
    intro cs
    induction cs with
    | nil => intro start; rfl
    | cons c cs ih => intro start; simp only [marksAll, Form.eachAt, ih]; rfl
  rw [marks, hall]

end StoredFunction

/-- The marks of one kind come in the order of all marks. -/
theorem Marks.only_append {γ : Type} (f : Finding → Option γ) (marks marks' : Marks) :
    only f (marks ++ marks') = only f marks ++ only f marks' :=
  List.filterMap_append ..

/-- The marks of one kind in several forms are those in each of them. -/
theorem Form.only_eachAt {α β γ : Type} (F : Form β α) {f : Finding → Option γ}
    {marks : Nat → β → Marks} {ends : Nat → β → List (Nat × γ)} {ss : List β}
    (h : ∀ s ∈ ss, ∀ start, Marks.only f (marks start s) = ends start s) (start : Nat) :
    Marks.only f (F.eachAt marks start ss) = F.eachAt ends start ss := by
  induction ss generalizing start with
  | nil => rfl
  | cons s ss ih =>
    rw [eachAt, eachAt, Marks.only_append, h s List.mem_cons_self,
      ih fun t ht => h t (List.mem_cons_of_mem _ ht)]

/-- Forms without marks have none together. -/
theorem Form.eachAt_nil {α β γ : Type} (F : Form β α) (start : Nat) (ss : List β) :
    F.eachAt (fun _ _ => ([] : List γ)) start ss = [] := by
  induction ss generalizing start with
  | nil => rfl
  | cons s ss ih => rw [eachAt, ih, List.nil_append]

/-- The ends of strings in several forms are those of each of them. -/
theorem Form.endsAll_eq_eachAt {α β : Type} (F : Form β α) (ends : Nat → β → StringEnds)
    (start : Nat) (ss : List β) : F.endsAll ends start ss = F.eachAt ends start ss := by
  induction ss generalizing start with
  | nil => rfl
  | cons s ss ih => rw [endsAll, eachAt, ih]

/-- The content of a string constant that is noted. -/
def Finding.string? : Finding → Option Bytes
  | .string content => some content
  | .record _ => none

/-- The function record that is noted. -/
def Finding.record? : Finding → Option RecordSummary
  | .string _ => none
  | .record summary => some summary

/-- The strings of a reader are what it has noted of that kind. -/
theorem Reader.strings_eq (r : Reader) :
    r.strings = r.findings.toList.filterMap Finding.string? :=
  rfl

/-- So are its records. -/
theorem Reader.records_eq (r : Reader) :
    r.records = r.findings.toList.filterMap Finding.record? :=
  rfl

namespace StoredFunction

/-- The strings that are noted of a function are those that end in it. -/
theorem strings_marks (t : StoredFunction) (depth start : Nat) :
    (marks depth start t).only Finding.string? = stringEnds start t := by
  induction t using FunctionTree.induction generalizing depth start with
  | node r cs ih =>
    -- only a string constant has a string to note
    have hconstant : ∀ k ∈ r.constants, ∀ start,
        Marks.only Finding.string? (StoredConstant.marks start k) = k.stringEnds start := by
      intro k _ start
      cases k <;> rfl
    rw [marks_node depth 0, stringEnds_node (depth + 1) 0, Marks.only_append, Marks.only_append,
      Form.only_eachAt _ hconstant, Form.only_eachAt _ fun c hc start => ih c hc (depth + 1) start,
      StoredRecord.stringEnds, Form.endsAll_eq_eachAt, Form.endsAll_eq_eachAt]
    exact List.append_nil _

/-- The records that are noted of a function are those that end in it. -/
theorem records_marks (t : StoredFunction) (depth start : Nat) :
    (marks depth start t).only Finding.record? = recordEnds depth start t := by
  induction t using FunctionTree.induction generalizing depth start with
  | node r cs ih =>
    -- a constant has no record to note
    have hconstant : ∀ k ∈ r.constants, ∀ start,
        Marks.only Finding.record? (StoredConstant.marks start k) = [] := by
      intro k _ start
      cases k <;> rfl
    rw [marks_node depth 0, recordEnds_node depth 0, Marks.only_append, Marks.only_append,
      Form.only_eachAt _ hconstant, Form.only_eachAt _ fun c hc start => ih c hc (depth + 1) start,
      Form.eachAt_nil]
    rfl

end StoredFunction

namespace Read

variable {α β γ : Type}

/-- From offset `start` on, `x` takes exactly `bs`, gives `a`, and notes what `marks` tells; when
`bs` is cut short, `x` fails after it has noted what it notes in front of the cut. -/
structure NotesAt (x : Read α) (start : Nat) (bs : Bytes) (a : α) (marks : Marks) : Prop where
  takes : Takes x start bs a marks.findings
  bounds : ∀ m ∈ marks, start ≤ m.1 ∧ m.1 ≤ start + bs.length
  cut : ∀ {n}, n < bs.length → ∀ findings, ∃ cause r,
    x ⟨start, bs.take n, findings⟩ = .error cause r ∧
      r.findings = findings ++ marks.within (start + n)

/-- All is noted in front of any place behind the form. -/
theorem NotesAt.within_of_le {x : Read α} {start : Nat} {bs : Bytes} {a : α} {marks : Marks}
    (h : NotesAt x start bs a marks) {limit : Nat} (hle : start + bs.length ≤ limit) :
    marks.within limit = marks.findings :=
  Marks.within_of_forall_le fun m hm => Nat.le_trans (h.bounds m hm).2 hle

/-- Two reads in a row note what the first notes, then what the second does. -/
theorem NotesAt.bind {x : Read α} {f : α → Read γ} {start : Nat} {bs cs : Bytes} {a : α} {b : γ}
    {marks marks' : Marks} (hx : NotesAt x start bs a marks)
    (hf : NotesAt (f a) (start + bs.length) cs b marks') :
    NotesAt (x >>= f) start (bs ++ cs) b (marks ++ marks') := by
  refine ⟨?_, fun m hm => ?_, fun {n} hn findings => ?_⟩
  · rw [Marks.findings_append]
    exact hx.takes.bind hf.takes
  · rw [List.length_append]
    -- the marks of the second read are behind the bytes of the first
    rcases List.mem_append.1 hm with hm | hm
    · have := hx.bounds m hm
      omega
    · have := hf.bounds m hm
      omega
  · rw [Marks.within_append]
    rcases Nat.lt_or_ge n bs.length with hlt | hle
    · -- the cut hits the first read, and nothing of the second is noted in front of it
      obtain ⟨cause, r, hcut, hfindings⟩ := hx.cut hlt findings
      have hnone : Marks.within (start + n) marks' = #[] :=
        Marks.within_of_forall_lt fun m hm => by
          have := hf.bounds m hm
          omega
      refine ⟨cause, r, ?_, by rw [hnone, Array.append_empty, hfindings]⟩
      rw [List.take_append_of_le_length (Nat.le_of_lt hlt)]
      exact bind_eq_error.2 (.inl hcut)
    -- the cut hits the second read, and all of the first is noted in front of it
    · have hlt : n - bs.length < cs.length := by
        rw [List.length_append] at hn
        omega
      obtain ⟨cause, r, hcut, hfindings⟩ := hf.cut hlt (findings ++ marks.findings)
      have hall : marks.within (start + n) = marks.findings := hx.within_of_le (by omega)
      have hlimit : start + bs.length + (n - bs.length) = start + n := by omega
      rw [hlimit, Array.append_assoc] at hfindings
      refine ⟨cause, r, ?_, by rw [hall, hfindings]⟩
      rw [List.take_append, List.take_of_length_le hle]
      exact bind_eq_error.2 (.inr ⟨a, _, hx.takes (cs.take (n - bs.length)) findings, hcut⟩)

/-- Bytes, value and marks of a read may be replaced by equal ones. -/
theorem NotesAt.of_eq {x : Read α} {start : Nat} {bs cs : Bytes} {a b : α} {marks marks' : Marks}
    (h : NotesAt x start bs a marks) (hbs : bs = cs) (hab : a = b) (hmarks : marks = marks') :
    NotesAt x start cs b marks' := by
  subst hbs hab hmarks
  exact h

/-- The offset where a read begins may be replaced by an equal one. -/
theorem NotesAt.of_start {x : Read α} {start start' : Nat} {bs : Bytes} {a : α} {marks : Marks}
    (h : NotesAt x start bs a marks) (hstart : start = start') : NotesAt x start' bs a marks := by
  subst hstart
  exact h

/-- A read that takes nothing cannot be cut short. -/
theorem Takes.notesAt_nil {x : Read α} {start : Nat} {a : α} {marks : Marks}
    (h : Takes x start [] a marks.findings) (hmarks : ∀ m ∈ marks, m.1 = start) :
    NotesAt x start [] a marks where
  takes := h
  bounds m hm := by simp [hmarks m hm]
  cut hn := absurd hn (Nat.not_lt_zero _)

/-- A read that only gives a value notes nothing. -/
theorem notesAt_pure (start : Nat) (a : α) : NotesAt (pure a) start [] a [] :=
  (takes_pure start a).notesAt_nil fun _ hm => absurd hm List.not_mem_nil

/-- A read whose value is changed afterwards notes the same. -/
theorem NotesAt.map {x : Read α} {start : Nat} {bs : Bytes} {a : α} {marks : Marks}
    (h : NotesAt x start bs a marks) (f : α → γ) :
    NotesAt (do return f (← x)) start bs (f a) marks :=
  (h.bind (notesAt_pure _ (f a))).of_eq (List.append_nil _) rfl (List.append_nil _)

/-! ### Reads that note nothing -/

/-- Whether a read notes nothing, whether it succeeds or not. -/
def Quiet (x : Read α) : Prop :=
  ∀ r, (stop (x r)).findings = r.findings

/-- Whether a read notes nothing if it fails. -/
def FailsQuietly (x : Read α) : Prop :=
  ∀ r cause r', x r = .error cause r' → r'.findings = r.findings

namespace Quiet

variable {x : Read α}

/-- A quiet read that succeeds leaves the notes as they are. -/
theorem findings_of_ok (h : Quiet x) {r r' : Reader} {a : α} (hok : x r = .ok a r') :
    r'.findings = r.findings := by
  have := h r
  rwa [hok] at this

/-- A quiet read that fails leaves them as they are as well. -/
theorem failsQuietly (h : Quiet x) : FailsQuietly x := by
  intro r cause r' herror
  have := h r
  rwa [herror] at this

/-- Two quiet reads in a row are quiet. -/
theorem bind (hx : Quiet x) {f : α → Read γ} (hf : ∀ a, Quiet (f a)) : Quiet (x >>= f) := by
  intro r
  -- what `x` has left the notes as, `f` leaves them as
  cases h : x r with
  | ok a r' =>
    rw [bind_of_ok h]
    exact (hf a r').trans (hx.findings_of_ok h)
  | error cause r' =>
    rw [bind_eq_error.2 (.inl h)]
    exact hx.failsQuietly _ _ _ h

theorem pure (a : α) : Quiet (pure a) :=
  fun _ => rfl

theorem throw (cause : Cause) : Quiet (throw cause : Read α) :=
  fun _ => rfl

theorem map (hx : Quiet x) (f : α → γ) : Quiet (do return f (← x)) :=
  hx.bind fun _ => .pure _

theorem ite {p : Prop} [Decidable p] {y : Read α} (hx : Quiet x) (hy : Quiet y) :
    Quiet (if p then x else y) := by
  split
  · exact hx
  · exact hy

theorem listOf (hx : Quiet x) (n : Nat) : Quiet (listOf n x) := by
  induction n with
  | zero => exact .pure []
  | succ n ih =>
    rw [listOf_succ]
    exact hx.bind fun _ => ih.map _

end Quiet

/-- A quiet read and one behind it that fails quietly fail quietly. -/
theorem FailsQuietly.bind {x : Read α} (hx : Quiet x) {f : α → Read γ}
    (hf : ∀ a, FailsQuietly (f a)) : FailsQuietly (x >>= f) := by
  intro r cause r' herror
  rcases bind_eq_error.1 herror with herror | ⟨a, between, hok, herror⟩
  · exact hx.failsQuietly _ _ _ herror
  · exact (hf a _ _ _ herror).trans (hx.findings_of_ok hok)

/-- A choice between reads that fail quietly fails quietly. -/
theorem FailsQuietly.ite {p : Prop} [Decidable p] {x y : Read α} (hx : FailsQuietly x)
    (hy : FailsQuietly y) : FailsQuietly (if p then x else y) := by
  split
  · exact hx
  · exact hy

/-- Nothing is noted of bytes. -/
theorem raw_quiet (n : Nat) : Quiet (raw n) := by
  intro r
  unfold raw
  split <;> rfl

/-- Nothing is noted of a byte. -/
theorem byte_quiet : Quiet byte := by
  intro r
  unfold byte
  split <;> rfl

/-- Nothing is noted of a number. -/
theorem nat_quiet (width : Nat) : Quiet (nat width) :=
  (raw_quiet width).map _

/-- Nothing is noted of a signed number. -/
theorem int_quiet : Quiet int :=
  (nat_quiet 4).map _

/-- Nothing is noted of a string by itself; a constant notes the one that it holds. -/
theorem string_quiet : Quiet string := by
  have hcontent : ∀ size : Nat, Quiet (if size = 0 then pure none else do
      return some (← raw (size - 1))) :=
    fun size => .ite (.pure none) ((raw_quiet _).map some)
  exact byte_quiet.bind fun short => .ite ((nat_quiet 8).bind hcontent)
    ((Quiet.pure _).bind hcontent)

/-- Nothing is noted of a count or of its check. -/
theorem count_quiet (check : Bool) (entrySize : Nat) : Quiet (count check entrySize) := by
  have hensure : ∀ n, Quiet (ensure n) := by
    intro n r
    unfold ensure
    split <;> rfl
  exact (nat_quiet 4).bind fun n => .ite ((hensure _).bind fun _ => .pure n) (.pure n)

/-- Nothing is noted of several entries if nothing is noted of one. -/
theorem counted_quiet (check : Bool) (entrySize : Nat) {x : Read α} (hx : Quiet x) :
    Quiet (counted check entrySize x) :=
  (count_quiet check entrySize).bind hx.listOf

/-- Nothing is noted of an upvalue. -/
theorem upvalue_quiet : Quiet upvalue :=
  (byte_quiet.map _).bind fun _ => byte_quiet.map _

/-- Nothing is noted of a local variable. -/
theorem localVariable_quiet : Quiet localVariable :=
  string_quiet.bind fun _ => int_quiet.bind fun _ => int_quiet.map _

/-- Nothing is noted of the names of upvalues. -/
theorem upvalueNames_quiet (options : ReadOptions) (us : List Upvalue) :
    Quiet (upvalueNames options us) :=
  have hnames : ∀ n, Quiet (do return nameUpvalues us (← listOf n string)) :=
    fun n => (string_quiet.listOf n).map _
  (count_quiet _ _).bind fun n => .ite ((Quiet.throw _).bind fun _ => hnames n) (hnames n)

/-- A constant is noted when it has been read. -/
theorem constant_failsQuietly : FailsQuietly constant := by
  have hnote : ∀ content : Bytes, FailsQuietly (do
      note (.string content)
      return Constant.string content) := fun _ _ _ _ h => nomatch h
  refine .bind byte_quiet fun tag => ?_
  -- one case for each tag, in the order in which they are tried
  refine .ite (Quiet.pure _).failsQuietly <|
    .ite ((byte_quiet.map _).map _).failsQuietly <|
    .ite (((nat_quiet 8).map _).map _).failsQuietly <|
    .ite ((int_quiet.map _).map _).failsQuietly <| .ite ?_ (Quiet.throw _).failsQuietly
  exact .bind string_quiet fun content => hnote _

/-- A quiet read that can be given more bytes notes nothing of what it takes, or of its front. -/
theorem Quiet.notesAt {x : Read α} (hq : Quiet x) (hx : Extensible x) {start : Nat} {bs : Bytes}
    {a : α} {notes : Array Finding} (h : Takes x start bs a notes) : NotesAt x start bs a [] where
  takes := by
    -- a read that succeeds has noted nothing
    have hnotes := hq.findings_of_ok (h [] #[])
    rw [Array.empty_append] at hnotes
    exact h.of_eq rfl rfl hnotes
  bounds _ hm := absurd hm List.not_mem_nil
  cut {n} hn findings := by
    -- and a cut makes one fail that has noted nothing
    have hok := h [] findings
    rw [List.append_nil] at hok
    obtain ⟨cause, r, herror, -⟩ := hx.error_of_take hok (by simpa [Reader.remaining] using hn)
    exact ⟨cause, r, herror, (hq.failsQuietly _ _ _ herror).trans Array.append_empty.symm⟩

/-! ### Sequences -/

/-- Whether a read follows a rule and notes of each form what is told of it. -/
def NotesForm (x : Read α) (F : Form β α) (marks : Nat → β → Marks) : Prop :=
  ∀ s, F.Fits s → ∀ start, NotesAt x start (F.bytes s) (F.value s) (marks start s)

/-- Entries one after the other note what each of them notes where it stands. -/
theorem NotesForm.listOf {x : Read α} {F : Form β α} {marks : Nat → β → Marks}
    (hx : NotesForm x F marks) {ss : List β} (hss : F.list.Fits ss) (start : Nat) :
    NotesAt (listOf ss.length x) start (F.list.bytes ss) (F.list.value ss)
      (F.eachAt marks start ss) := by
  induction ss generalizing start with
  | nil => exact notesAt_pure start []
  | cons s ss ih =>
    have hs := hx s (hss s List.mem_cons_self) start
    have hrest := ih (fun t ht => hss t (List.mem_cons_of_mem _ ht)) (start + (F.bytes s).length)
    rw [List.length_cons, listOf_succ]
    exact hs.bind (hrest.map (F.value s :: ·))

/-- A count adds four bytes in front of what the entries note. -/
theorem NotesForm.counted {x : Read α} {F : Form β α} {marks : Nat → β → Marks}
    (hx : NotesForm x F marks) (entrySize : Nat) :
    NotesForm (counted false entrySize x) F.counted fun start => F.eachAt marks (start + 4) := by
  intro ss hss start
  have hlt : ss.length < 2 ^ (8 * 4) := hss.1
  have hcount := (nat_quiet 4).notesAt (nat_steps 4).extensible (takes_nat hlt start)
  rw [Read.counted, count_bind]
  refine (hcount.bind ?_).of_eq rfl rfl rfl
  rw [Bytes.length_leBytes]
  exact hx.listOf hss.2 (start + 4)

/-! ### Function records -/

/-- A constant notes its string at its end, and in front of that nothing. -/
theorem constant_notesForm : NotesForm constant Form.constant StoredConstant.marks := by
  intro k hk start
  have htakes := constant_reads.takes k hk start
  -- a constant is noted where its stored form ends
  have hmarks : ∀ m ∈ StoredConstant.marks start k,
      m.1 = start + (Form.constant.bytes k).length := by
    simp [StoredConstant.marks]
  refine ⟨htakes.of_eq rfl rfl ?_, fun m hm => ?_, fun {n} hn findings => ?_⟩
  · simp [StoredConstant.marks, Marks.findings, Function.comp_def]
  · have := hmarks m hm
    omega
  -- a constant that is cut short is not noted
  · have hok := htakes [] findings
    rw [List.append_nil] at hok
    obtain ⟨cause, r, herror, -⟩ := constant_steps.extensible.error_of_take hok
      (by simpa [Reader.remaining] using hn)
    have hnone : Marks.within (start + n) (StoredConstant.marks start k) = #[] :=
      Marks.within_of_forall_lt fun m hm => by
        have := hmarks m hm
        omega
    refine ⟨cause, r, herror, ?_⟩
    rw [constant_failsQuietly _ _ _ herror, hnone, Array.append_empty]

/-- A quiet read that follows a rule notes nothing of the forms of the rule. -/
theorem Reads.notesAt {x : Read α} {F : Form β α} (h : Reads x F) (hq : Quiet x)
    (hx : Extensible x) {s : β} (hs : F.Fits s) (start : Nat) :
    NotesAt x start (F.bytes s) (F.value s) [] :=
  hq.notesAt hx (h.takes s hs start)

/-- A record notes its own strings, what its children note, and itself. -/
theorem record_notesAt {options : ReadOptions} {depth room : Nat}
    (hroom : depth + room = options.maxDepth)
    (hchildren : NotesForm (counted false minRecordSize (prototype options.unchecked room))
      (Form.function (depth + 1) room).counted fun start =>
        (Form.function (depth + 1) room).eachAt (StoredFunction.marks (depth + 1)) (start + 4))
    {r : StoredRecord} {cs : List StoredFunction} (hr : r.Fits)
    (hcs : (Form.function (depth + 1) room).counted.Fits cs) (start : Nat) :
    NotesAt (prototype options.unchecked (room + 1)) start (StoredFunction.bytes (.node r cs))
      (StoredFunction.asStored (.node r cs)) (StoredFunction.marks depth start (.node r cs)) := by
  have hstring := string_reads.notesAt string_quiet string_steps.extensible hr.source
  have hint : ∀ i start, NotesAt int start (Form.int.bytes i) i [] := fun i =>
    int_reads.notesAt int_quiet int_steps.extensible (s := i) trivial
  have hbyte : ∀ b start, NotesAt byte start [b] b [] := fun b =>
    byte_reads.notesAt byte_quiet Steps.byte.extensible (s := b) trivial
  have htruth : ∀ b start, NotesAt truth start [b] (Form.truth.value b) [] := fun b =>
    truth_reads.notesAt (byte_quiet.map _) truth_steps.extensible (s := b) trivial
  have hcode := (code_reads false).notesAt (counted_quiet _ _ ((nat_quiet 4).map _))
    (counted_steps false 4 instruction_steps (nat_failsAtEnd 3 |>.bind _)).extensible hr.code
  have hupvalues := (upvalues_reads false).notesAt (counted_quiet _ _ upvalue_quiet)
    (counted_steps false 2 upvalue_steps upvalue_failsAtEnd).extensible hr.upvalues
  have hlineInfo := (lineInfo_reads false).notesAt (counted_quiet _ _ int_quiet)
    (counted_steps false 4 int_steps (nat_failsAtEnd 3 |>.bind _)).extensible hr.lineInfo
  have hlocals := (locals_reads false).notesAt (counted_quiet _ _ localVariable_quiet)
    (counted_steps false 9 localVariable_steps localVariable_failsAtEnd).extensible hr.locals
  have hle : r.upvalueNames.length ≤ (Form.upvalue.counted.value r.upvalues).length := by
    rw [Form.length_value_counted]
    exact hr.length_upvalueNames_le
  have hnames := fun start => (upvalueNames_quiet options.unchecked _).notesAt
    (upvalueNames_steps options _).right.extensible
    (takes_upvalueNames options.unchecked hr.upvalueNames hle start)
  have hconstants :=
    constant_notesForm.counted 1 r.constants hr.constants (start + r.frontBytes.length)
  have hps := hchildren cs hcs (start + r.headBytes.length)
  -- the record is noted where it ends
  have hnote : ∀ finding end', NotesAt (note finding) end' [] () [(end', finding)] :=
    fun finding end' => Takes.notesAt_nil (takes_note end' finding) fun m hm => by
      simp [List.mem_singleton.1 hm]
  have hoffset : NotesAt offset start [] start [] :=
    Takes.notesAt_nil (takes_offset start) fun _ hm => absurd hm List.not_mem_nil
  have hdepth : options.unchecked.maxDepth - room = depth := by
    show options.maxDepth - room = depth
    omega
  rw [prototype, hdepth]
  -- the fields in the order in which they are read
  refine NotesAt.of_eq (hoffset.bind <|
    (hstring _).bind <| (hint r.lineDefined _).bind <| (hint r.lastLineDefined _).bind <|
    (hbyte r.numParams _).bind <| (htruth r.isVararg _).bind <| (hbyte r.maxStackSize _).bind <|
    (hcode _).bind <| (hconstants.of_start ?_).bind <| (hupvalues _).bind <|
    (hps.of_start ?_).bind <| (hlineInfo _).bind <| (hlocals _).bind <|
    (hnames _).bind <| ((hnote _ (start + (StoredFunction.bytes (.node r cs)).length)).of_start
      ?_).bind <| notesAt_pure _ _) ?_ ?_ ?_
  -- the offsets at which the noted parts begin are those of the marks
  · simp only [StoredRecord.frontBytes, List.length_append, List.length_cons, List.length_nil]
    omega
  · simp only [StoredRecord.headBytes, List.length_append, List.length_cons, List.length_nil]
    omega
  · rw [StoredFunction.bytes_node (depth + 1) room]
    simp only [StoredRecord.headBytes, StoredRecord.debugBytes, List.length_append,
      List.length_cons, List.length_nil]
    omega
  -- the bytes and the value are those of the record
  · rw [StoredFunction.bytes_node (depth + 1) room]
    simp only [StoredRecord.headBytes, StoredRecord.debugBytes, List.append_assoc,
      List.nil_append, List.append_nil]
    rfl
  · exact (asStored_eq_read (depth + 1) room cs hr.length_upvalueNames_le).symm
  -- the marks of all parts are those of the record
  · rw [StoredFunction.marks_node depth room]
    simp only [List.nil_append, List.append_nil, List.append_assoc, Form.length_value_counted]
    rfl

/-- A function record notes what is told of it, at every depth that the limit allows. -/
theorem prototype_notesForm (options : ReadOptions) {depth room : Nat}
    (hroom : depth + room = options.maxDepth + 1) :
    NotesForm (prototype options.unchecked room) (Form.function depth room)
      (StoredFunction.marks depth) := by
  induction room generalizing depth with
  | zero => exact fun t ht => absurd ht.2 (Nat.not_lt_zero _)
  | succ room ih =>
    rintro ⟨r, cs⟩ ht start
    obtain ⟨hr, hcs⟩ := StoredFunction.fits_function_node.1 ht
    have hroom' : depth + 1 + room = options.maxDepth + 1 := by omega
    exact record_notesAt (by omega) ((ih hroom').counted minRecordSize) hr hcs start

end Read

/-- What is noted of a chunk. -/
def StoredChunk.marks (chunk : StoredChunk) : Marks :=
  chunk.main.marks 0 (Header.bytes.length + 1)

namespace Read

variable {α : Type}

/-! ### Chunks -/

/-- Nothing is noted of a header. -/
theorem header_quiet : Quiet header := by
  -- the parts of a header, none of which notes anything
  have hinteger : Quiet integer := int_quiet.map _
  have hnumber : ∀ declared : Header, Quiet
      (do if !(← number).numEq Header.sampleNumber then throw .floatFormatMismatch
          return declared : Read Header) := fun declared =>
    ((nat_quiet 8).map _).bind fun _ => .ite ((Quiet.throw _).bind fun _ => .pure _) (.pure _)
  have hwidths : Quiet widths := by
    intro r
    unfold widths
    split <;> rfl
  have hcheck : ∀ declared, Quiet (checkWidths declared) := by
    intro declared
    unfold checkWidths
    split
    · exact .throw _
    · exact .pure ()
  have hlayout : Quiet layout := hwidths.bind fun declared => (hcheck declared).bind fun _ =>
    hinteger.bind fun _ => .ite ((Quiet.throw _).bind fun _ => hnumber declared) (hnumber declared)
  rw [header_eq]
  exact (Quiet.bind (findings_literal _) fun _ => Quiet.bind (findings_literal _) fun _ =>
    Quiet.bind (findings_literal _) fun _ => findings_literal _).bind fun _ => hlayout

/-- A header can be given more bytes. -/
theorem header_extensible : Extensible header := by
  rw [header_eq]
  exact literals_extensible.bind fun _ => layout_steps.extensible

/-- Of a chunk, what is noted are the marks of its main function. -/
theorem parts_notesAt (options : ReadOptions) {chunk : StoredChunk} (hmain : chunk.main.Fits)
    (hheight : chunk.main.height ≤ options.maxDepth) :
    NotesAt (parts options.unchecked) 0 chunk.bytes (chunk.upvalueCount, chunk.main.asStored)
      chunk.marks := by
  -- the marks of the main function, which begins behind the header and one byte
  have hnotes := prototype_notesForm options (Nat.zero_add _) chunk.main
    ⟨hmain, Nat.lt_succ_of_le hheight⟩ (Header.bytes.length + 1)
  have hheader := header_reads.notesAt header_quiet header_extensible (s := ()) trivial 0
  have hbyte := byte_reads.notesAt byte_quiet Steps.byte.extensible
    (s := chunk.upvalueCount) trivial
  refine NotesAt.of_eq (hheader.bind <| (hbyte _).bind <|
    (hnotes.of_start ?_).map (Prod.mk chunk.upvalueCount)) ?_ rfl rfl
  · rfl
  · rfl

/-- What a reader without early checks notes of a chunk that is cut short is what it notes of the
chunk in front of the cut. -/
theorem findings_stop_take (options : ReadOptions) {chunk : StoredChunk} (hmain : chunk.main.Fits)
    (hheight : chunk.main.height ≤ options.maxDepth) (n : Nat) :
    (stop (closure options.unchecked (.ofBytes (chunk.bytes.take n)))).findings =
      chunk.marks.within n := by
  have hparts := parts_notesAt options hmain hheight
  rw [stop_closure]
  rcases Nat.lt_or_ge n chunk.bytes.length with hlt | hle
  -- the chunk is cut short, and what is noted is what is in front of the cut
  · obtain ⟨cause, r, herror, hfindings⟩ := hparts.cut hlt #[]
    rw [Nat.zero_add, Array.empty_append] at hfindings
    rw [Reader.ofBytes, herror]
    exact hfindings
  -- the cut is behind the chunk, and all is noted
  · have hok := hparts.takes [] #[]
    have hall : chunk.marks.within n = chunk.marks.findings := hparts.within_of_le (by omega)
    rw [List.append_nil] at hok
    rw [List.take_of_length_le hle, Reader.ofBytes, hok, hall]
    exact Array.empty_append

end Read

namespace StoredChunk

/-- The strings that are noted of a chunk in front of a cut are those that end there. -/
theorem strings_within (chunk : StoredChunk) (n : Nat) :
    (chunk.marks.within n).toList.filterMap Finding.string? = chunk.stringsWithin n := by
  rw [Marks.filterMap_within, marks, StoredFunction.strings_marks]
  rfl

/-- The records that are noted of a chunk in front of a cut are those that end there. -/
theorem records_within (chunk : StoredChunk) (n : Nat) :
    (chunk.marks.within n).toList.filterMap Finding.record? = chunk.recordsWithin n := by
  rw [Marks.filterMap_within, marks, StoredFunction.records_marks]
  rfl

/-- In front of its end all is noted that is noted of a chunk. -/
theorem within_length {chunk : StoredChunk} (hmain : chunk.main.Fits) :
    chunk.marks.within chunk.bytes.length = chunk.marks.findings :=
  (Read.parts_notesAt { maxDepth := chunk.main.height } hmain (Nat.le_refl _)).within_of_le
    (Nat.le_of_eq (Nat.zero_add _))

/-- A whole chunk has all the string constants of the closure that it stands for. -/
theorem stringsWithin_length {chunk : StoredChunk} (hmain : chunk.main.Fits) :
    chunk.stringsWithin chunk.bytes.length = chunk.closure.prototype.strings := by
  rw [← strings_within, within_length hmain, Marks.filterMap_findings, marks,
    StoredFunction.strings_marks]
  exact chunk.main.contents_stringEnds none _

end StoredChunk

end LuaChunk
