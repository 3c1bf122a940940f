import LuaChunk.Proofs.LoadedStrings
import LuaChunk.Proofs.Causes

/-!
# What a load tells of what it has read

The events of a load that succeeds list the functions of the closure, children before their parent,
each with the place where its record begins. The events of a load that fails list the function
records that are complete where reading ends. Which these are is said without the reader, as for
strings: a buffer begins as some chunk does, up to some place, and of all records that a chunk can
have there the longest list counts.

The counters follow from the events, over any sequence of loads.

## Key results

* `completeRecords_bytesRead`   the records that are noted are those that are complete
* `recordEnds_eq_readEvents`    the records of a chunk are those of the closure that is loaded
* `tellsLoaded_of_load`         what the events of a load tell that succeeds
* `tellsRejected_of_load`       what the events of a load tell that fails
* `events_of_loadAll`           what events and counters tell of a sequence of loads
-/

namespace LuaChunk

/-! ### Sequences of loads -/

/-- A buffer to be loaded. -/
structure LoadRequest where
  options : LoadOptions := {}
  name : String
  bytes : Bytes
  deriving DecidableEq, Repr

/-- Loads buffers in order, all with one table. -/
def loadAll (table : StringTable) : List LoadRequest → List LoadReport
  | [] => []
  | request :: requests =>
    let report := load request.options table request.name request.bytes
    report :: loadAll report.table requests

/-- The function records that are reported as read. -/
def Event.recordsRead (events : List Event) : List RecordSummary :=
  events.filterMap fun
    | .readFunction summary => some summary
    | _ => none

/-- The counters after some events. -/
def Counters.afterEvents (counters : Counters) (events : List Event) : Counters :=
  events.foldl afterEvent counters

/-! ### What the events are to tell -/

/-- That the functions of `p` were read, children before their parent; `offset` is where the record
of the function begins that a path leads to. -/
def Prototype.readEvents {σ : Type} (offset : List Nat → Nat) (p : Prototype σ) : List Event :=
  p.postorder.map fun (path, s) => .readFunction
    { offset := offset path
      depth := path.length
      lineDefined := s.record.lineDefined
      instructions := s.record.code.length
      constants := s.record.constants.length }

/-- Whether events tell that a closure was loaded: one event for each of its functions, with the
place of the function's record in the buffer, and one more if bytes follow the chunk. -/
def TellsLoaded (request : LoadRequest) (c : Closure StringHandle) (events : List Event) : Prop :=
  ∃ (chunk : StoredChunk) (rest : Bytes),
    (Form.chunk request.options.maxDepth).Fits chunk ∧ request.bytes = chunk.bytes ++ rest ∧
    c.contents = request.options.keep chunk.closure ∧
    let offset := chunk.main.offsetAt 30
    events = [.loading request.name request.bytes.length] ++ c.prototype.readEvents offset
      ++ (if rest = [] then [] else [.ignoring rest.length])
      ++ [.loaded request.name c.prototype.count] ∧
    offset [] = 30 ∧
    (∀ path s, chunk.main.at? path = some s →
      StoredFunction.bytes s <+: request.bytes.drop (offset path)) ∧
    (∀ path i back p, c.prototype.at? (path ++ i :: back) = some p →
      offset path < offset (path ++ i :: back)) ∧
    ∀ path i j p q, c.prototype.at? (path ++ [i]) = some p →
      c.prototype.at? (path ++ [j]) = some q → i < j → offset (path ++ [i]) < offset (path ++ [j])

/-- Whether a buffer begins as a chunk does whose function records up to there are `ss`, in the
order in which they end; no function of the chunk is nested deeper than `limit`. -/
def BeginsWithRecords (limit : Nat) (bs : Bytes) (ss : List RecordSummary) : Prop :=
  ∃ chunk : StoredChunk, chunk.main.Fits ∧ chunk.main.height ≤ limit ∧
    ∃ n, chunk.bytes.take n <+: bs ∧ chunk.recordsWithin n = ss

/-- Whether `ss` are all the complete function records of a buffer: it begins as a chunk with these
does, and no chunk with which it begins has others there. -/
def CompleteRecords (limit : Nat) (bs : Bytes) (ss : List RecordSummary) : Prop :=
  BeginsWithRecords limit bs ss ∧ ∀ ss', BeginsWithRecords limit bs ss' → ss' <+: ss

/-- Whether events tell that a buffer was rejected: one event for each record that was complete, and
a warning at the end. The main function is complete only if the number of its upvalues is wrong. -/
def TellsRejected (request : LoadRequest) (error : LoadError) (events : List Event) : Prop :=
  ∃ completed, CompleteRecords request.options.maxDepth (request.options.bytesRead request.bytes)
      completed ∧
    events = [.loading request.name request.bytes.length] ++ completed.map .readFunction
      ++ [.rejected error] ∧
    events.filter (·.level = .warn) = [.rejected error] ∧
    ((∃ s ∈ completed, s.depth = 0) ↔
      ∃ declared actual, error.cause = .upvalueCountMismatch declared actual)

/-! ### The functions of a closure and their records -/

/-- What is told of a function besides its place. -/
def FunctionRecord.outline {σ : Type} (r : FunctionRecord σ) : Int32 × Nat × Nat :=
  (r.lineDefined, r.code.length, r.constants.length)

/-- What is told of a stored function besides its place. -/
def StoredRecord.outline (r : StoredRecord) : Int32 × Nat × Nat :=
  (r.lineDefined, r.code.length, r.constants.length)

namespace FunctionTree

variable {ρ ρ' ο γ : Type}

/-- What is listed of every function by its path and its outline depends on the outlines only. -/
theorem postorder_map_congr {f : ρ → ο} {f' : ρ' → ο} {t : FunctionTree ρ} {t' : FunctionTree ρ'}
    (h : mapRecords f t = mapRecords f' t') (g : List Nat → ο → γ) :
    (t.postorder.map fun (path, s) => g path (f s.record)) =
      t'.postorder.map fun (path, s) => g path (f' s.record) := by
  have hlist := congrArg (fun u => (postorder u).map fun (path, s) => g path s.record) h
  simp only [postorder_mapRecords, List.map_map, Function.comp_def, record_mapRecords] at hlist
  exact hlist

end FunctionTree

namespace StoredFunction

open FunctionTree

/-- A record and the function that it stands for have the same outlines. -/
theorem outline_prototype (t : StoredFunction) (parent : Option Bytes) :
    mapRecords FunctionRecord.outline (t.prototype parent) =
      mapRecords StoredRecord.outline t := by
  refine mapRecords_prototype (fun r source => ?_) t parent
  simp [FunctionRecord.outline, StoredRecord.outline, StoredRecord.value,
    Form.length_value_counted]

/-- The records that end in a stored function are those of the function it stands for. -/
theorem recordEnds_eq_readEvents {σ : Type} {t : StoredFunction} {p : Prototype σ}
    (h : mapRecords FunctionRecord.outline p = mapRecords StoredRecord.outline t) (start : Nat) :
    (recordEnds 0 start t).map (fun e => Event.readFunction e.2) =
      p.readEvents (offsetAt start t) := by
  -- both list the functions in the order in which they end
  have hlist := postorder_map_congr h fun path (o : Int32 × Nat × Nat) => Event.readFunction
    ⟨offsetAt start t path, path.length, o.1, o.2.1, o.2.2⟩
  rw [Prototype.readEvents, recordEnds, List.map_map]
  refine Eq.trans ?_ hlist.symm
  refine List.map_congr_left ?_
  rintro ⟨path, s⟩ -
  simp only [Function.comp_apply, summary, Nat.zero_add]
  rfl

/-- Only the whole has the depth of the whole, and it ends last. -/
theorem eq_of_mem_recordEnds {t : StoredFunction} {depth start : Nat} {e : Nat × RecordSummary}
    (he : e ∈ recordEnds depth start t) (hdepth : e.2.depth = depth) :
    e.1 = start + (bytes t).length := by
  obtain ⟨⟨path, s⟩, hs, rfl⟩ := List.mem_map.1 he
  have hpath : path = [] := by
    have hlen : depth + path.length = depth := hdepth
    exact List.length_eq_zero_iff.1 (by omega)
  subst hpath
  obtain rfl := Option.some.inj (mem_postorder.1 hs)
  rfl

end StoredFunction

/-- The contents of a closure have the outlines of the closure. -/
theorem Closure.outline_contents (c : Closure StringHandle) :
    FunctionTree.mapRecords FunctionRecord.outline c.contents.prototype =
      FunctionTree.mapRecords FunctionRecord.outline c.prototype := by
  have hrecord : ∀ r : FunctionRecord StringHandle,
      (r.map StringHandle.content).outline = r.outline := by
    intro r
    simp [FunctionRecord.outline, FunctionRecord.map]
  show FunctionTree.mapRecords _ (FunctionTree.mapRecords _ c.prototype) = _
  rw [FunctionTree.mapRecords_mapRecords]
  simp only [hrecord]

/-- What is kept of a chunk has the outlines of the chunk. -/
theorem LoadOptions.outline_keep (options : LoadOptions) (chunk : StoredChunk) :
    FunctionTree.mapRecords FunctionRecord.outline (options.keep chunk.closure).prototype =
      FunctionTree.mapRecords StoredRecord.outline chunk.main :=
  (options.mapRecords_keep (fun _ => rfl) chunk.closure).trans (chunk.main.outline_prototype none)

/-! ### Complete records -/

namespace StoredChunk

/-- In front of the end of a chunk the main function is not complete. -/
theorem depth_ne_zero_of_lt {chunk : StoredChunk} {n : Nat} (hlt : n < chunk.bytes.length)
    {s : RecordSummary} (hs : s ∈ chunk.recordsWithin n) : s.depth ≠ 0 := by
  intro hdepth
  obtain ⟨e, he, rfl⟩ := List.mem_map.1 hs
  obtain ⟨hmem, hle⟩ := List.mem_filter.1 he
  have hend := StoredFunction.eq_of_mem_recordEnds hmem hdepth
  rw [chunk.length_bytes, ← hend] at hlt
  exact Nat.not_le_of_lt hlt (of_decide_eq_true hle)

/-- Up to the end of a chunk, all its records are complete. -/
theorem recordsWithin_length {chunk : StoredChunk} (hmain : chunk.main.Fits) :
    chunk.recordsWithin chunk.bytes.length =
      (chunk.main.recordEnds 0 (Header.bytes.length + 1)).map (·.2) := by
  rw [← records_within, within_length hmain, Marks.filterMap_findings, marks,
    StoredFunction.records_marks]

/-- A whole chunk has its main function. -/
theorem exists_depth_eq_zero {chunk : StoredChunk} (hmain : chunk.main.Fits) :
    ∃ s ∈ chunk.recordsWithin chunk.bytes.length, s.depth = 0 := by
  rw [recordsWithin_length hmain]
  have hroot : ([], chunk.main) ∈ chunk.main.postorder := FunctionTree.mem_postorder.2 rfl
  exact ⟨_, List.mem_map_of_mem (List.mem_map_of_mem hroot), rfl⟩

end StoredChunk

namespace Read

variable {α γ : Type}

/-- The records that are noted are those that are complete where reading ends. -/
theorem completeRecords_bytesRead (options : ReadOptions) (bs : Bytes) :
    CompleteRecords options.maxDepth (options.bytesRead bs)
      (stop (closure options (.ofBytes bs))).records := by
  refine ⟨?_, ?_⟩
  -- the records that are noted are those of a chunk up to some place
  · obtain ⟨chunk, hmain, hheight, n, hprefix, hfindings⟩ := noted_of_stop options bs
    refine ⟨chunk, hmain, hheight, n, hprefix, ?_⟩
    rw [Reader.records_eq, hfindings, chunk.records_within]
  -- and no chunk with which the buffer begins has others there
  · rintro ss ⟨chunk, hmain, hheight, n, hprefix, rfl⟩
    rw [← chunk.records_within]
    exact (within_isPrefix_stop options bs hmain hheight hprefix).filterMap _

/-- Whether `x` fails only for causes with a property. -/
def FailsFor (P : Cause → Prop) (x : Read α) : Prop :=
  ∀ r cause r', x r = .error cause r' → P cause

namespace FailsFor

variable {P : Cause → Prop} {x y : Read α}

theorem pure (a : α) : FailsFor P (pure a : Read α) :=
  nofun

theorem throw {cause : Cause} (h : P cause) : FailsFor P (throw cause : Read α) := by
  intro r cause' r' herror
  obtain ⟨rfl, -⟩ := EStateM.Result.error.inj herror
  exact h

/-- Two reads in a row fail for the causes for which one of them does. -/
theorem bind (hx : FailsFor P x) {f : α → Read γ} (hf : ∀ a, FailsFor P (f a)) :
    FailsFor P (x >>= f) := by
  intro r cause r' herror
  rcases bind_eq_error.1 herror with herror | ⟨a, between, -, herror⟩
  · exact hx _ _ _ herror
  · exact hf a _ _ _ herror

theorem ite {p : Prop} [Decidable p] (hx : FailsFor P x) (hy : FailsFor P y) :
    FailsFor P (if p then x else y) := by
  split
  · exact hx
  · exact hy

/-- A read of a fixed number of bytes fails for want of bytes. -/
theorem piece {n : Nat} (hx : Piece n x) (h : ∀ requested remaining,
    P (.bufferUnderrun requested remaining)) : FailsFor P x := by
  intro r cause r' herror
  obtain ⟨-, rfl, -⟩ := hx.eq_of_error herror
  exact h _ _

end FailsFor

/-- A header is not rejected for a number of upvalues. -/
theorem header_failsFor :
    FailsFor (fun cause => ∀ declared actual, cause ≠ .upvalueCountMismatch declared actual)
      header := by
  let P : Cause → Prop := fun cause =>
    ∀ declared actual, cause ≠ .upvalueCountMismatch declared actual
  have hpiece : ∀ {β : Type} {n : Nat} {x : Read β}, Piece n x → FailsFor P x :=
    fun h => .piece h fun _ _ _ _ heq => nomatch heq
  -- a literal that is wrong is a mismatch of the header
  have hliteral : ∀ field, FailsFor P (literal field) := fun field =>
    .bind (fun _ _ _ h => nomatch h) fun _ => .ite (.throw fun _ _ heq => nomatch heq) (.pure _)
  -- so is a width
  have hwidths : ∀ declared, FailsFor P (checkWidths declared) := by
    intro declared
    unfold checkWidths
    split
    · exact .throw fun _ _ heq => nomatch heq
    · exact .pure ()
  -- the samples are pieces, each followed by a comparison
  have hinteger : FailsFor P integer :=
    (((hpiece (raw_piece 4)).bind fun _ => .pure _).bind fun _ => .pure _).bind fun _ => .pure _
  have hnumber : FailsFor P number :=
    ((hpiece (raw_piece 8)).bind fun _ => .pure _).bind fun _ => .pure _
  have hsamples : ∀ declared : Header, FailsFor P
      (do if !(← number).numEq Header.sampleNumber then throw .floatFormatMismatch
          return declared : Read Header) := fun _ =>
    hnumber.bind fun _ => .ite (.bind (.throw fun _ _ heq => nomatch heq) fun _ => .pure _)
      (.pure _)
  -- the parts in the order in which they are checked
  exact (hliteral _).bind fun _ => (hliteral _).bind fun _ => (hliteral _).bind fun _ =>
    (hliteral _).bind fun _ => (hpiece widths_piece).bind fun declared =>
    (hwidths declared).bind fun _ => hinteger.bind fun _ =>
    .ite (.bind (.throw fun _ _ heq => nomatch heq) fun _ => hsamples declared) (hsamples declared)

/-- Until the main function has been read, the number of its upvalues is not what is wrong. -/
theorem parts_failsFor (options : ReadOptions) :
    FailsFor (fun cause => ∀ declared actual, cause ≠ .upvalueCountMismatch declared actual)
      (parts options) := by
  refine header_failsFor.bind fun _ => .bind (.piece byte_piece fun _ _ _ _ heq => nomatch heq)
    fun _ => .bind (fun r cause r' herror => ?_) fun _ => .pure _
  -- a record fails for a cause that is true of what is left of the buffer
  have htrue := (prototype_truthful options _).error (List.suffix_refl r.rest) herror
  rintro declared actual rfl
  exact htrue

/-- The main function is complete if and only if only the number of its upvalues is wrong. -/
theorem exists_depth_eq_zero_iff {options : ReadOptions} {bs : Bytes} {cause : Cause} {r : Reader}
    (herror : closure options (.ofBytes bs) = .error cause r) :
    (∃ s ∈ r.records, s.depth = 0) ↔
      ∃ declared actual, cause = .upvalueCountMismatch declared actual := by
  have hstop := stop_closure options (.ofBytes bs)
  rw [herror] at hstop
  obtain rfl : r = _ := hstop
  rw [closure_eq] at herror
  rcases bind_eq_error.1 herror with hparts | ⟨parts, between, hparts, hassemble⟩
  -- what fails is in front of the comparison, and the main function is not complete
  · rw [hparts, stop, Reader.records_eq]
    obtain ⟨chunk, hmain, hheight, n, hlt, -, hfindings⟩ := noted_of_error hparts
    rw [hfindings, chunk.records_within]
    constructor
    · rintro ⟨s, hs, hdepth⟩
      exact absurd hdepth (StoredChunk.depth_ne_zero_of_lt hlt hs)
    · rintro ⟨declared, actual, hcause⟩
      exact absurd hcause (parts_failsFor options _ _ _ hparts declared actual)
  -- the comparison fails, which comes when the main function is complete
  · rw [hparts, stop, Reader.records_eq]
    obtain ⟨chunk, hmain, hheight, rfl, -, -, hfindings⟩ := noted_of_ok hparts
    rw [hfindings, ← StoredChunk.within_length hmain, chunk.records_within]
    exact iff_of_true (StoredChunk.exists_depth_eq_zero hmain)
      ⟨_, _, (assemble_eq_error hassemble).2⟩

end Read

/-! ### Events of a load -/

section Events

variable {request : LoadRequest} {table : StringTable}

/-- What the events of a load tell that fails. -/
theorem tellsRejected_of_load {error : LoadError}
    (h : (load request.options table request.name request.bytes).outcome = .error error) :
    TellsRejected request error
      (load request.options table request.name request.bytes).events := by
  cases hread : Read.closure request.options.toReadOptions (.ofBytes request.bytes) with
  | ok stored r =>
    rw [outcome_load_of_ok hread] at h
    contradiction
  | error cause r =>
    rw [outcome_load_of_error hread, Except.error.injEq] at h
    have hcomplete :=
      Read.completeRecords_bytesRead request.options.toReadOptions request.bytes
    rw [hread, Read.stop] at hcomplete
    have hevents : (load request.options table request.name request.bytes).events =
        [.loading request.name request.bytes.length] ++ r.records.map .readFunction
          ++ [.rejected error] := by
      simp only [load, hread, h]
    refine ⟨r.records, hcomplete, hevents, ?_, ?_⟩
    -- the records that were read are told of below the level of a warning
    · rw [hevents]
      simp [List.filter_append, List.filter_map, Event.level, Function.comp_def]
    -- the whole chunk was read if a record of depth zero was
    · rw [Read.exists_depth_eq_zero_iff hread, ← h]
      rfl

/-- What the events of a load tell that succeeds. -/
theorem tellsLoaded_of_load {c : Closure StringHandle}
    (h : (load request.options table request.name request.bytes).outcome = .ok c) :
    TellsLoaded request c (load request.options table request.name request.bytes).events := by
  cases hread : Read.closure request.options.toReadOptions (.ofBytes request.bytes) with
  | error cause r =>
    rw [outcome_load_of_error hread] at h
    contradiction
  | ok stored r =>
    obtain ⟨chunk, hfits, rfl, hbytes, hfindings⟩ := Read.noted_of_closure_ok hread
    rw [outcome_load_of_ok hread, Except.ok.injEq] at h
    have hcontents : c.contents = request.options.keep chunk.closure := by
      rw [← h, Closure.contents_map_handle]
    -- the closure has the outlines of the chunk, and so the same functions at the same places
    have houtline : FunctionTree.mapRecords FunctionRecord.outline c.prototype =
        FunctionTree.mapRecords StoredRecord.outline chunk.main := by
      rw [← c.outline_contents, hcontents, LoadOptions.outline_keep]
    have hrecords : r.records.map .readFunction =
        c.prototype.readEvents (chunk.main.offsetAt 30) := by
      rw [Reader.records_eq, hfindings, ← StoredChunk.within_length hfits.1.main,
        chunk.records_within, StoredChunk.recordsWithin_length hfits.1.main, List.map_map]
      exact StoredFunction.recordEnds_eq_readEvents houtline 30
    have hcount : (request.options.keep chunk.closure).prototype.count = c.prototype.count := by
      rw [← h]
      exact (FunctionTree.count_mapRecords ..).symm
    have hpath : ∀ {path p}, c.prototype.at? path = some p →
        ∃ s, chunk.main.at? path = some s := by
      intro path p hp
      obtain ⟨s, hs, -⟩ := FunctionTree.exists_at?_of_mapRecords_eq houtline hp
      exact ⟨s, hs⟩
    refine ⟨chunk, r.rest, hfits, hbytes, hcontents, ?_, rfl, fun path s hs => ?_,
      fun path i back p hp => ?_, fun path i j p q hp _ hlt => ?_⟩
    -- the bytes that are left are told of if there are any
    · have htrailing : (if r.remaining = 0 then [] else [Event.ignoring r.remaining]) =
          if r.rest = [] then [] else [.ignoring r.rest.length] := by
        simp only [Reader.remaining, List.length_eq_zero_iff]
      rw [← hcount, ← hrecords, ← htrailing]
      simp only [load, hread]
      rfl
    -- the record of a function stands in the buffer where the event says
    · refine StoredFunction.isPrefix_offsetAt hs ?_
      have hmain : request.bytes.drop 30 = chunk.main.bytes ++ r.rest :=
        congrArg (List.drop 30) hbytes
      rw [hmain]
      exact List.prefix_append _ _
    -- a function comes in front of those inside it
    · obtain ⟨s, hs⟩ := hpath hp
      rw [FunctionTree.at?_append, Option.bind_eq_some_iff] at hs
      obtain ⟨parent, hparent, -⟩ := hs
      exact StoredFunction.offsetAt_lt hparent 30 i back
    -- and in front of those that come later on the same level
    · obtain ⟨s, hs⟩ := hpath hp
      have hle := StoredFunction.offsetAt_sibling hs hlt 30
      have hpos := Read.minRecordSize_le_length s
      simp only [Read.minRecordSize] at hpos
      omega

end Events

/-! ### Counters -/

namespace Counters

variable (counters : Counters)

/-- Counters count events in two portions as they do in one. -/
theorem afterEvents_append (events events' : List Event) :
    counters.afterEvents (events ++ events') =
      (counters.afterEvents events).afterEvents events' :=
  List.foldl_append

/-- Events that count nothing leave the counters as they are. -/
theorem afterEvents_of_forall {events : List Event}
    (h : ∀ e ∈ events, ∀ c : Counters, c.afterEvent e = c) :
    counters.afterEvents events = counters := by
  induction events with
  | nil => rfl
  | cons e events ih =>
    have hrest := ih fun e' he' => h e' (List.mem_cons_of_mem _ he')
    rw [afterEvents, List.foldl_cons, h e List.mem_cons_self]
    exact hrest

end Counters

/-- The records that two portions of events tell of come one after the other. -/
theorem Event.recordsRead_append (events events' : List Event) :
    recordsRead (events ++ events') = recordsRead events ++ recordsRead events' :=
  List.filterMap_append ..

/-- There is one event for every function that was read. -/
theorem Prototype.length_recordsRead_readEvents {σ : Type} (offset : List Nat → Nat)
    (p : Prototype σ) : (Event.recordsRead (p.readEvents offset)).length = p.count := by
  rw [Event.recordsRead, readEvents, List.filterMap_map, ← FunctionTree.length_postorder]
  -- each of the events is that of a function
  exact List.filterMap_length_eq_length.2 fun _ _ => rfl

/-- A load that succeeds counts as one chunk and as many functions as it tells of. -/
theorem TellsLoaded.afterEvents {request : LoadRequest} {c : Closure StringHandle}
    {events : List Event} (h : TellsLoaded request c events) (counters : Counters) :
    counters.afterEvents events =
      { counters with
        chunksLoaded := counters.chunksLoaded + 1
        prototypesLoaded := counters.prototypesLoaded + (Event.recordsRead events).length } := by
  obtain ⟨chunk, rest, -, -, -, rfl, -⟩ := h
  -- nothing is counted before the last event
  have hbegun : ∀ e ∈ [Event.loading request.name request.bytes.length] ++
      c.prototype.readEvents (chunk.main.offsetAt 30) ++
      (if rest = [] then [] else [.ignoring rest.length]), ∀ d : Counters, d.afterEvent e = d := by
    intro e he
    rw [List.mem_append, List.mem_append, List.mem_singleton] at he
    rcases he with (rfl | he) | he
    · exact fun _ => rfl
    · obtain ⟨_, -, rfl⟩ := List.mem_map.1 he
      exact fun _ => rfl
    · split at he
      · exact absurd he List.not_mem_nil
      · obtain rfl := List.mem_singleton.1 he
        exact fun _ => rfl
  -- the functions that are told of are those of the closure
  have hcount : (Event.recordsRead ([Event.loading request.name request.bytes.length] ++
      c.prototype.readEvents (chunk.main.offsetAt 30) ++
      (if rest = [] then [] else [.ignoring rest.length]) ++
      [.loaded request.name c.prototype.count])).length = c.prototype.count := by
    have htrailing :
        Event.recordsRead (if rest = [] then [] else [.ignoring rest.length]) = [] := by
      split <;> rfl
    simp only [Event.recordsRead_append, htrailing, List.append_nil, List.length_append]
    rw [Prototype.length_recordsRead_readEvents]
    exact Nat.zero_add _
  rw [hcount, Counters.afterEvents_append, counters.afterEvents_of_forall hbegun]
  rfl

/-- A load that fails counts as one chunk that was rejected. -/
theorem TellsRejected.afterEvents {request : LoadRequest} {error : LoadError}
    {events : List Event} (h : TellsRejected request error events) (counters : Counters) :
    counters.afterEvents events =
      { counters with chunksRejected := counters.chunksRejected + 1 } := by
  obtain ⟨completed, -, rfl, -⟩ := h
  -- nothing is counted before the last event
  have hbegun : ∀ e ∈ [Event.loading request.name request.bytes.length] ++
      completed.map .readFunction, ∀ d : Counters, d.afterEvent e = d := by
    intro e he
    rw [List.mem_append, List.mem_singleton] at he
    rcases he with rfl | he
    · exact fun _ => rfl
    · obtain ⟨_, -, rfl⟩ := List.mem_map.1 he
      exact fun _ => rfl
  rw [Counters.afterEvents_append, counters.afterEvents_of_forall hbegun]
  rfl

/-- A load counts for what its events tell. -/
theorem afterEvents_load (request : LoadRequest) (table : StringTable) (counters : Counters) :
    let report := load request.options table request.name request.bytes
    counters.afterEvents report.events =
      if report.outcome.isOk then
        { counters with
          chunksLoaded := counters.chunksLoaded + 1
          prototypesLoaded :=
            counters.prototypesLoaded + (Event.recordsRead report.events).length }
      else { counters with chunksRejected := counters.chunksRejected + 1 } := by
  intro report
  cases houtcome : report.outcome with
  | ok c => exact (tellsLoaded_of_load houtcome).afterEvents counters
  | error error => exact (tellsRejected_of_load houtcome).afterEvents counters

/-! ### Events of a sequence of loads -/

/-- There is a report for every request. -/
theorem length_loadAll (table : StringTable) (requests : List LoadRequest) :
    (loadAll table requests).length = requests.length := by
  induction requests generalizing table with
  | nil => rfl
  | cons request requests ih => exact congrArg (· + 1) (ih _)

/-- Every report is that of a load, with the table that was left before. -/
theorem exists_table_of_mem_zip {table : StringTable} {requests : List LoadRequest}
    {request : LoadRequest} {report : LoadReport}
    (h : (request, report) ∈ requests.zip (loadAll table requests)) :
    ∃ table', report = load request.options table' request.name request.bytes := by
  induction requests generalizing table with
  | nil => exact absurd h List.not_mem_nil
  | cons first requests ih =>
    rcases List.mem_cons.1 h with heq | hmem
    · obtain ⟨rfl, rfl⟩ := Prod.mk.inj heq
      exact ⟨table, rfl⟩
    · exact ih hmem

/-- Counters rise by the loads that succeed, by those that fail, and by the functions told of. -/
theorem afterEvents_loadAll (table : StringTable) (requests : List LoadRequest)
    (counters : Counters) :
    let reports := loadAll table requests
    let loaded := reports.filter (·.outcome.isOk)
    let rejected := reports.filter (!·.outcome.isOk)
    counters.afterEvents (reports.flatMap (·.events)) =
      { counters with
        chunksLoaded := counters.chunksLoaded + loaded.length
        prototypesLoaded := counters.prototypesLoaded +
          (Event.recordsRead (loaded.flatMap (·.events))).length
        chunksRejected := counters.chunksRejected + rejected.length } := by
  induction requests generalizing table counters with
  | nil => rfl
  | cons request requests ih =>
    -- the first load counts for itself, and the others count on from there
    have hfirst := afterEvents_load request table counters
    simp only [loadAll]
    generalize load request.options table request.name request.bytes = report at hfirst ⊢
    rw [List.flatMap_cons, Counters.afterEvents_append]
    refine (ih report.table _).trans ?_
    rw [hfirst]
    -- the first load succeeds
    by_cases hok : report.outcome.isOk
    · simp only [hok, if_true, List.filter_cons, Bool.not_true, Bool.false_eq_true, if_false,
        List.length_cons, List.flatMap_cons, Event.recordsRead_append, List.length_append]
      congr 1 <;> omega
    -- the first load fails
    · simp only [hok, Bool.false_eq_true, if_false, List.filter_cons, Bool.not_false, if_true,
        List.length_cons]
      congr 1
      omega

/-- What events and counters tell of a sequence of loads. A load that succeeds tells of every
function of the closure when its record has been read, and of the bytes behind the chunk if there
are any; a load that fails tells of the records that are complete where reading ends, and ends with
a warning. The counters rise by the loads that succeed, by the loads that fail, and by the records
of which the loads that succeed have told. -/
theorem events_of_loadAll (table : StringTable) (requests : List LoadRequest) :
    let reports := loadAll table requests
    reports.length = requests.length ∧
    (∀ request report, (request, report) ∈ requests.zip reports →
      (∀ c, report.outcome = .ok c → TellsLoaded request c report.events) ∧
      ∀ error, report.outcome = .error error → TellsRejected request error report.events) ∧
    ∀ counters : Counters,
      let loaded := reports.filter (·.outcome.isOk)
      let rejected := reports.filter (!·.outcome.isOk)
      counters.afterEvents (reports.flatMap (·.events)) =
        { counters with
          chunksLoaded := counters.chunksLoaded + loaded.length
          prototypesLoaded := counters.prototypesLoaded +
            (Event.recordsRead (loaded.flatMap (·.events))).length
          chunksRejected := counters.chunksRejected + rejected.length } := by
  refine ⟨length_loadAll table requests, fun request report hmem => ?_,
    afterEvents_loadAll table requests⟩
  obtain ⟨table', rfl⟩ := exists_table_of_mem_zip hmem
  exact ⟨fun c => tellsLoaded_of_load, fun error => tellsRejected_of_load⟩

/-- The sample tells of its inner function first; one byte follows it here. -/
example : (load {} (.empty 0) "sample" (StoredChunk.sample.bytes ++ [0])).events =
    [.loading "sample" 173, .readFunction ⟨98, 1, 1, 0, 0⟩, .readFunction ⟨30, 0, 0, 1, 6⟩,
      .ignoring 1, .loaded "sample" 2] := by
  decide +kernel

end LuaChunk
