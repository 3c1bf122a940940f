import LuaChunk.Proofs.RoundTrip
import LuaChunk.Proofs.Truncation
import Mathlib.Data.List.Basic

/-!
# Streams of chunks

Closures that are written one after another to one writer make a stream of chunks, and nothing
stands between them. Every chunk tells where it ends: loading at the beginning of one takes that
chunk and leaves all that follows, so that a stream can be taken apart again. Whether a chunk is
stripped is settled by what was last set before it was written.

## Key results

* `Sink.write_behind`       a sink that grows treats fields alike whatever it holds
* `Writer.write_of_dump`    a write puts the dump behind what was written before
* `Writer.exists_writeAll`  a run of writes makes the concatenation of the dumps
* `stream_loaded`           a stream of chunks can be taken apart
-/

namespace LuaChunk

/-! ### Writing one closure after another -/

/-- A closure to be written, and what stripping is set to before that, one setting after another. -/
structure Writer.Request where
  settings : List Bool
  closure : Closure StringHandle

/-- Whether requests let the one at a place be written stripped, by the last setting up to there;
`strip` holds where nothing is set. -/
def Writer.Request.stripAt (strip : Bool) (requests : List Request) (i : Nat) : Bool :=
  ((requests.take (i + 1)).flatMap settings).getLastD strip

/-- Carries out requests in order, up to the first closure that cannot be written. -/
def Writer.writeAll (w : Writer) : List Request → Option WriteError × Writer
  | [] => (none, w)
  | request :: requests =>
    let set : Writer := { w with strip := request.settings.getLastD w.strip }
    match set.write request.closure.contents with
    | (none, w) => w.writeAll requests
    | (some e, w) => (some e, w)

namespace Writer.Request

variable {strip : Bool} {request : Request} {requests : List Request}

/-- What is set in front of the first closure, last of all, holds for it. -/
theorem stripAt_zero :
    stripAt strip (request :: requests) 0 = request.settings.getLastD strip := by
  simp [stripAt]

/-- What is set at the first request holds for the others until it is set again. -/
theorem stripAt_succ (i : Nat) :
    stripAt strip (request :: requests) (i + 1) =
      stripAt (request.settings.getLastD strip) requests i := by
  simp only [stripAt, List.take_succ_cons, List.flatMap_cons, List.getLastD_eq_getLast?,
    List.getLast?_append]
  cases ((requests.take (i + 1)).flatMap settings).getLast? <;> rfl

end Writer.Request

/-! ### One write -/

/-- A sink that grows treats fields alike whatever it holds. -/
theorem Sink.write_behind (written : Array UInt8) (fields : List Field) (added : Array UInt8) :
    Sink.write ⟨none, written ++ added⟩ fields =
      ((Sink.write ⟨none, added⟩ fields).1,
        ⟨none, written ++ (Sink.write ⟨none, added⟩ fields).2.written⟩) := by
  induction fields generalizing added with
  | nil => rfl
  | cons f fields ih =>
    cases f with
    | error e => rfl
    | ok bs =>
      -- there is room for each field, whatever stands before it
      have hput : ∀ held : Array UInt8, Sink.put ⟨none, held⟩ bs = (true, ⟨none, held ++ bs⟩) :=
        fun held => Sink.put_of_room rfl
      have hassoc : written ++ added ++ bs = written ++ (added ++ bs) :=
        Array.ext' (by simp)
      rw [Sink.write, Sink.write, hput, hput, hassoc]
      exact ih (added ++ bs)

/-- A write puts the dump of a closure behind what was written before. -/
theorem Writer.write_of_dump {c : Closure Bytes} {strip : Bool} {dumped : Bytes}
    (h : dump c strip = .ok dumped) (written : Array UInt8) :
    Writer.write ⟨⟨none, written⟩, strip⟩ c = (none, ⟨⟨none, written ++ dumped⟩, strip⟩) := by
  -- the sink of a dump starts empty, which is no more than a case of the one that holds something
  obtain ⟨sink, hwrite, rfl⟩ := exists_write_of_dump h
  have hbehind := Sink.write_behind written (c.fields strip) #[]
  rw [Array.append_empty, ← Sink.growing, hwrite] at hbehind
  have happend : written ++ sink.written = written ++ sink.written.toList :=
    Array.ext' (by simp)
  simp only [Writer.write, hbehind, happend]

/-! ### A run of writes -/

/-- A run of writes makes the dumps of the closures, one behind the other, each with the setting
that is in force there. -/
theorem Writer.exists_writeAll {requests : List Request}
    (h : ∀ request ∈ requests, ∀ strip, ∃ dumped,
      dump request.closure.contents strip = .ok dumped)
    (strip : Bool) (written : Array UInt8) :
    ∃ (dumps : List Bytes) (w : Writer),
      Writer.writeAll ⟨⟨none, written⟩, strip⟩ requests = (none, w) ∧
      w.bytes = written.toList ++ dumps.flatten ∧ dumps.length = requests.length ∧
      ∀ i request dumped, requests[i]? = some request → dumps[i]? = some dumped →
        dump request.closure.contents (Request.stripAt strip requests i) = .ok dumped := by
  induction requests generalizing strip written with
  | nil =>
    refine ⟨[], _, rfl, ?_, rfl, fun i request dumped hrequest => ?_⟩
    · simp [bytes]
    · simp at hrequest
  | cons first requests ih =>
    obtain ⟨hfirst, hothers⟩ := List.forall_mem_cons.1 h
    obtain ⟨head, hhead⟩ := hfirst (first.settings.getLastD strip)
    have hwrite := write_of_dump hhead written
    -- the other writes go on behind the first dump, with the setting that it was written with
    obtain ⟨dumps, w, hrun, hbytes, hlength, hdumps⟩ :=
      ih hothers (first.settings.getLastD strip) (written ++ head)
    refine ⟨head :: dumps, w, ?_, ?_, ?_, fun i request dumped hrequest hdumped => ?_⟩
    -- the first write and the run behind it
    · simp only [writeAll, hwrite, hrun]
    -- the first dump stands in front of the others
    · rw [hbytes, Array.toList_appendList, List.flatten_cons, List.append_assoc]
    · simp only [List.length_cons, hlength]
    -- the closures in the run are found one place further on
    · cases i with
      | zero =>
        obtain rfl := Option.some.inj hrequest
        obtain rfl := Option.some.inj hdumped
        rw [Request.stripAt_zero]
        exact hhead
      | succ i =>
        rw [Request.stripAt_succ]
        exact hdumps i request dumped hrequest hdumped

/-! ### Loading from a stream -/

/-- A load that begins at a dump leaves all that follows it. -/
theorem ignored_load_dump_append {c : Closure Bytes} (h : c.WellFormed) {strip : Bool}
    {dumped : Bytes} (hdump : dump c strip = .ok dumped) (options : LoadOptions)
    (table : StringTable) (name : String) (hheight : c.prototype.height ≤ options.maxDepth)
    (rest : Bytes) : (load options table name (dumped ++ rest)).ignored = rest.length := by
  obtain rfl := bytes_ofClosure_of_dump (h.writable.stored strip) hdump
  exact ignored_load_append options table name (h.fits_ofClosure_of_height strip hheight) rest

/-- What is left of pieces, one behind the other, from the beginning of one of them on. -/
theorem drop_flatten_take {dumps : List Bytes} {i : Nat} {dumped : Bytes}
    (h : dumps[i]? = some dumped) (rest : Bytes) :
    (dumps.flatten ++ rest).drop (dumps.take i).flatten.length =
      dumped ++ ((dumps.drop (i + 1)).flatten ++ rest) := by
  obtain ⟨hi, rfl⟩ := List.getElem?_eq_some_iff.1 h
  -- the pieces in front, the one that is looked for and those behind it
  have hsplit : dumps.flatten =
      (dumps.take i).flatten ++ (dumps[i] ++ (dumps.drop (i + 1)).flatten) := by
    rw [← List.flatten_cons, ← List.drop_eq_getElem_cons hi, ← List.flatten_append,
      List.take_append_drop]
  rw [hsplit, List.append_assoc, List.drop_left, List.append_assoc]

/-- Whether a closure was loaded from a buffer of less than `2 ^ 31` bytes. -/
def Closure.Loaded (c : Closure StringHandle) : Prop :=
  ∃ options table name, ∃ bs : Bytes, bs.length < 2 ^ 31 ∧
    (load options table name bs).outcome = .ok c

/-- A stream of chunks can be taken apart. Closures that were loaded are written one after another
as their dumps, each stripped or not by the last setting before it; and from where a dump begins, a
load takes that dump and no more, whatever follows, and gives the closure back or what stripping
leaves of it. -/
theorem stream_loaded (requests : List Writer.Request)
    (hloaded : ∀ request ∈ requests, request.closure.Loaded) :
    ∃ (dumps : List Bytes) (w : Writer), (Writer.ofSink .growing).writeAll requests = (none, w) ∧
      w.bytes = dumps.flatten ∧ dumps.length = requests.length ∧
      ∀ i request dumped, requests[i]? = some request → dumps[i]? = some dumped →
        let c := request.closure.contents
        let strip := Writer.Request.stripAt false requests i
        dump c strip = .ok dumped ∧
        ∀ (options : LoadOptions) table name rest,
          request.closure.prototype.height ≤ options.maxDepth →
            let left := (w.bytes ++ rest).drop (dumps.take i).flatten.length
            let report := load options table name left
            report.ignored + dumped.length = left.length ∧
            ∃ loaded, report.outcome = .ok loaded ∧
              loaded.contents = options.keep (if strip then c.strip else c) := by
  -- what was loaded can be written, stripped or not
  have hwell : ∀ request ∈ requests, request.closure.contents.WellFormed := by
    intro request hrequest
    obtain ⟨options, table, name, bs, hlen, hload⟩ := hloaded request hrequest
    exact wellFormed_of_load hlen hload
  obtain ⟨dumps, w, hrun, hbytes, hlength, hdumps⟩ := Writer.exists_writeAll
    (fun request hrequest strip => ⟨_, dump_eq_ok (hwell request hrequest).writable strip⟩)
    false #[]
  rw [List.nil_append] at hbytes
  refine ⟨dumps, w, hrun, hbytes, hlength, fun i request dumped hrequest hdumped => ?_⟩
  intro c strip
  have hdump : dump c strip = .ok dumped := hdumps i request dumped hrequest hdumped
  refine ⟨hdump, fun options table name rest hheight => ?_⟩
  intro left report
  -- what is left at this place is the dump and then everything behind it
  have hleft : left = dumped ++ ((dumps.drop (i + 1)).flatten ++ rest) := by
    rw [← drop_flatten_take hdumped rest, ← hbytes]
  rw [← request.closure.height_contents] at hheight
  have hc : c.WellFormed := hwell request (List.mem_of_getElem? hrequest)
  -- the dump is taken, and no more
  refine ⟨?_, ?_⟩
  · show (load options table name left).ignored + _ = _
    rw [hleft, ignored_load_dump_append hc hdump options table name hheight, Nat.add_comm]
    exact List.length_append.symm
  -- the closure comes back, or what stripping leaves of it
  · show ∃ loaded, (load options table name left).outcome = .ok loaded ∧ _
    rw [hleft]
    exact load_dump_append hc hdump options table name hheight _

/-- Three writes of one closure, of which the second is told to strip, and so is the third. -/
theorem stream_loaded_sample :
    let table := StringTable.empty 0
    let chunk := StoredChunk.sample
    let c := chunk.closure.map (table.internAll chunk.strings).handle
    let requests : List Writer.Request := [⟨[], c⟩, ⟨[false, true], c⟩, ⟨[], c⟩]
    (∀ request ∈ requests, request.closure.Loaded) ∧
      ∃ whole stripped w, (Writer.ofSink .growing).writeAll requests = (none, w) ∧
        w.bytes = whole ++ stripped ++ stripped ∧
        dump c.contents false = .ok whole ∧ dump c.contents true = .ok stripped ∧
        ∃ loaded, (load {} table "stream" (w.bytes.drop whole.length)).outcome = .ok loaded ∧
          loaded.contents = c.contents.strip := by
  intro table chunk c requests
  have hc : c.Loaded := ⟨{}, table, "sample", chunk.bytes, length_sample_lt,
    outcome_load_sample true table "sample"⟩
  have hloaded : ∀ request ∈ requests, request.closure.Loaded := by
    simp [requests, hc]
  obtain ⟨dumps, w, hrun, hbytes, hlength, hdumps⟩ := stream_loaded requests hloaded
  obtain ⟨whole, second, third, rfl⟩ := List.length_eq_three.1 hlength
  obtain ⟨hwhole, -⟩ := hdumps 0 ⟨[], c⟩ whole rfl rfl
  obtain ⟨hsecond, hload⟩ := hdumps 1 ⟨[false, true], c⟩ second rfl rfl
  obtain ⟨hthird, -⟩ := hdumps 2 ⟨[], c⟩ third rfl rfl
  obtain rfl : second = third := Except.ok.inj (hsecond.symm.trans hthird)
  have hheight : c.prototype.height ≤ 200 := by decide +kernel
  obtain ⟨-, loaded, houtcome, hcontents⟩ := hload {} table "stream" [] hheight
  refine ⟨hloaded, whole, second, w, hrun, ?_, hwhole, hsecond, loaded, ?_, hcontents⟩
  · simpa using hbytes
  · simpa using houtcome

end LuaChunk
