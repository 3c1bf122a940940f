import LuaChunk.Proofs.Completion
import LuaChunk.Proofs.Dumping

/-!
# The strings that a load enters in a table

A load enters in the string table the string constants of the chunk that it has read completely,
whether it succeeds or not. Which they are is said without the reader: a buffer begins as some chunk
does, up to some place, and of all strings that a chunk can have there the longest list counts.

## Key results

* `noted_of_stop`               what is noted of a buffer is noted of the front of some chunk
* `completeStrings_bytesRead`   the strings that are noted are those that are complete
* `strings_of_load`             a load that succeeds notes all string constants of its closure
* `load_again`                  loading a buffer again adds nothing
* `load_of_dump_loaded`         nor does loading a dump of what was loaded
* `load_strings`                what a load does to a table
-/

namespace LuaChunk

/-! ### Strings that are complete -/

/-- Whether a buffer begins as a chunk does whose string constants up to there are `ss`; no function
of the chunk is nested deeper than `limit`. -/
def BeginsWith (limit : Nat) (bs : Bytes) (ss : List Bytes) : Prop :=
  ∃ chunk : StoredChunk, chunk.main.Fits ∧ chunk.main.height ≤ limit ∧
    ∃ n, chunk.bytes.take n <+: bs ∧ chunk.stringsWithin n = ss

/-- Whether `ss` are all the string constants of a buffer: it begins as a chunk with these does, and
no chunk with which it begins has others there. -/
def CompleteStrings (limit : Nat) (bs : Bytes) (ss : List Bytes) : Prop :=
  BeginsWith limit bs ss ∧ ∀ ss', BeginsWith limit bs ss' → ss' <+: ss

/-- The part of a buffer that is read as a chunk: all up to the end of the main function, or up to
where reading fails. -/
def ReadOptions.bytesRead (options : ReadOptions) (bs : Bytes) : Bytes :=
  bs.take (Read.stop (Read.closure options (.ofBytes bs))).offset

namespace Read

variable (options : ReadOptions) (bs : Bytes)

/-- The part of a buffer that is read ends where its header, count and main function do. -/
theorem bytesRead_eq :
    options.bytesRead bs = bs.take (stop (parts options (.ofBytes bs))).offset := by
  rw [ReadOptions.bytesRead, stop_closure]

/-- What is noted of a buffer is noted of the front of some chunk, with which the part of the buffer
that is read begins. -/
theorem noted_of_stop :
    ∃ chunk : StoredChunk, chunk.main.Fits ∧ chunk.main.height ≤ options.maxDepth ∧
      ∃ n, chunk.bytes.take n <+: options.bytesRead bs ∧
        (stop (closure options (.ofBytes bs))).findings = chunk.marks.within n := by
  rw [bytesRead_eq, stop_closure]
  cases hparts : parts options (.ofBytes bs) with
  -- a chunk up to its end, which is noted whole
  | ok a r =>
    obtain ⟨chunk, hmain, hheight, -, rfl, hoffset, hfindings⟩ := noted_of_ok hparts
    refine ⟨chunk, hmain, hheight, chunk.bytes.length, ?_, ?_⟩
    · have heq : chunk.bytes.take chunk.bytes.length = (chunk.bytes ++ r.rest).take r.offset := by
        rw [hoffset, List.take_left, List.take_length]
      exact heq ▸ List.prefix_refl _
    · rw [stop, StoredChunk.within_length hmain, hfindings]
  -- the front of a chunk, up to what was noted last
  | error cause r =>
    obtain ⟨chunk, hmain, hheight, n, -, hprefix, hfindings⟩ := noted_of_error hparts
    exact ⟨chunk, hmain, hheight, n, hprefix, hfindings⟩

/-- What is read without early checks of the part that is read with them. -/
theorem findings_bytesRead :
    (stop (closure options.unchecked (.ofBytes (options.bytesRead bs)))).findings =
      (stop (closure options (.ofBytes bs))).findings := by
  rw [bytesRead_eq, stop_closure, stop_closure]
  cases hread : parts options (.ofBytes bs) with
  -- a success is read again from the bytes that it has taken
  | ok a r =>
    obtain ⟨front, rest, notes, rfl, rfl, htakes⟩ := (parts_retraces options).ok hread
    have hok := htakes [] #[]
    rw [List.append_nil] at hok
    rw [stop, Nat.zero_add, List.take_left, Reader.ofBytes, hok]
    rfl
  -- a failure notes again what it has noted, whatever it fails for this time
  | error cause r =>
    obtain ⟨front, rest, notes, rfl, rfl, cause', herror⟩ := (parts_retraces options).error hread
    rw [stop, Nat.zero_add, List.take_left, Reader.ofBytes, herror]
    rfl

/-- A chunk with which the part that is read begins has nothing else there than is noted. -/
theorem within_isPrefix_stop {chunk : StoredChunk} (hmain : chunk.main.Fits)
    (hheight : chunk.main.height ≤ options.maxDepth) {n : Nat}
    (h : chunk.bytes.take n <+: options.bytesRead bs) :
    (chunk.marks.within n).toList <+: (stop (closure options (.ofBytes bs))).findings.toList := by
  obtain ⟨more, hmore⟩ := h
  rw [← findings_bytesRead, ← hmore, ← findings_stop_take options hmain hheight n]
  exact ((closure_extensible options.unchecked).extends_append more _).findings_isPrefix

/-- The strings that are noted are those that are complete where reading ends. -/
theorem completeStrings_bytesRead : CompleteStrings options.maxDepth (options.bytesRead bs)
    (stop (closure options (.ofBytes bs))).strings := by
  refine ⟨?_, ?_⟩
  · obtain ⟨chunk, hmain, hheight, n, hprefix, hfindings⟩ := noted_of_stop options bs
    refine ⟨chunk, hmain, hheight, n, hprefix, ?_⟩
    rw [Reader.strings_eq, hfindings, chunk.strings_within]
  · rintro ss ⟨chunk, hmain, hheight, n, hprefix, rfl⟩
    rw [← chunk.strings_within]
    exact (within_isPrefix_stop options bs hmain hheight hprefix).filterMap _

/-- A chunk that is read notes the string constants of its closure. -/
theorem strings_of_ok {options : ReadOptions} {bs : Bytes} {stored : Closure Bytes} {r : Reader}
    (hok : closure options (.ofBytes bs) = .ok stored r) :
    r.strings = stored.prototype.strings := by
  obtain ⟨chunk, hfits, rfl, -, hfindings⟩ := noted_of_closure_ok hok
  rw [Reader.strings_eq, hfindings, ← StoredChunk.within_length hfits.1.main,
    chunk.strings_within, StoredChunk.stringsWithin_length hfits.1.main]

end Read

/-! ### Loads and their tables -/

section Loaded

variable {options : LoadOptions} {table : StringTable} {name : String} {bs : Bytes}
  {c : Closure StringHandle}

/-- Debug information has no string constants. -/
theorem LoadOptions.strings_keep (options : LoadOptions) (c : Closure Bytes) :
    (options.keep c).prototype.strings = c.prototype.strings :=
  options.keep_cases c rfl c.prototype.strings_dropDebug

/-- The strings that are noted by a load that succeeds are the string constants of the closure. -/
theorem strings_of_load (h : (load options table name bs).outcome = .ok c) :
    (Read.stop (Read.closure options.toReadOptions (.ofBytes bs))).strings =
      c.contents.prototype.strings := by
  cases hread : Read.closure options.toReadOptions (.ofBytes bs) with
  | error cause r =>
    rw [outcome_load_of_error hread] at h
    contradiction
  | ok stored r =>
    rw [outcome_load_of_ok hread, Except.ok.injEq] at h
    rw [← h, Closure.contents_map_handle, options.strings_keep]
    exact Read.strings_of_ok hread

/-- The strings of a closure that was loaded are entries of the table that the load leaves. -/
theorem eq_map_handle_of_load (h : (load options table name bs).outcome = .ok c) :
    c = c.contents.map (load options table name bs).table.handle := by
  cases hread : Read.closure options.toReadOptions (.ofBytes bs) with
  | error cause r =>
    rw [outcome_load_of_error hread] at h
    contradiction
  | ok stored r =>
    rw [outcome_load_of_ok hread, Except.ok.injEq] at h
    rw [← h, Closure.contents_map_handle, StringTable.table_load, hread]
    rfl

/-- Two loads of the same buffer differ in nothing but the tables that their strings are entries
of. -/
theorem outcome_load_congr (options : LoadOptions) (table table' : StringTable) (name : String)
    (bs : Bytes) :
    (∀ error, (load options table name bs).outcome = .error error →
      (load options table' name bs).outcome = .error error) ∧
    ∀ c, (load options table name bs).outcome = .ok c →
      (load options table' name bs).outcome =
        .ok (c.contents.map (load options table' name bs).table.handle) := by
  cases hread : Read.closure options.toReadOptions (.ofBytes bs) with
  | error cause r =>
    rw [outcome_load_of_error hread, outcome_load_of_error hread]
    exact ⟨fun _ => id, nofun⟩
  -- the strings of the closure are handed out by the table in use, and no other
  | ok stored r =>
    rw [StringTable.table_load, outcome_load_of_ok hread, outcome_load_of_ok hread, hread]
    refine ⟨nofun, ?_⟩
    rintro c hc
    rw [← Except.ok.inj hc, Closure.contents_map_handle]
    rfl

/-- A load whose strings are all in the table leaves the table as it is. -/
theorem table_load_of_forall_mem (htable : table.Consistent)
    (h : ∀ s ∈ (Read.stop (Read.closure options.toReadOptions (.ofBytes bs))).strings,
      s ∈ table.contents.toList) : (load options table name bs).table = table := by
  rw [StringTable.table_load]
  exact StringTable.internAll_of_forall_mem htable h

/-- A string that was read is in the table. -/
theorem mem_table_load (htable : table.Consistent) {s : Bytes}
    (hs : s ∈ (Read.stop (Read.closure options.toReadOptions (.ofBytes bs))).strings) :
    s ∈ (load options table name bs).table.contents.toList := by
  rw [StringTable.table_load]
  exact (StringTable.mem_contents_internAll htable).2 (.inr hs)

/-- A load keeps a table consistent. -/
theorem consistent_load (htable : table.Consistent) :
    (load options table name bs).table.Consistent := by
  rw [StringTable.table_load]
  exact htable.internAll _

/-- Every string of a closure that was loaded stands in the table where its number says. -/
theorem resolve?_of_mem_strings (htable : table.Consistent)
    (h : (load options table name bs).outcome = .ok c) {handle : StringHandle}
    (hhandle : handle ∈ c.prototype.strings) :
    (load options table name bs).table.resolve? handle.id = some handle := by
  rw [eq_map_handle_of_load h, Closure.map, Prototype.strings_map] at hhandle
  obtain ⟨s, hs, rfl⟩ := List.mem_map.1 hhandle
  rw [← strings_of_load h] at hs
  exact StringTable.resolve?_handle (consistent_load htable) (mem_table_load htable hs)

/-- Loading a buffer again adds nothing, and gives the same closure or the same error. -/
theorem load_again (htable : table.Consistent) :
    let report := load options table name bs
    let again := load options report.table name bs
    again.outcome = report.outcome ∧ again.table = report.table := by
  intro report again
  have hsame : again.table = report.table :=
    table_load_of_forall_mem (consistent_load htable) fun s hs => mem_table_load htable hs
  obtain ⟨herror, hok⟩ := outcome_load_congr options table report.table name bs
  refine ⟨?_, hsame⟩
  cases houtcome : report.outcome with
  -- a rejected buffer is rejected for the same error
  | error error => exact herror error houtcome
  -- the strings of the closure have the same numbers in the same table
  | ok c =>
    rw [show again.outcome = _ from hok c houtcome, show (load _ _ _ _).table = _ from hsame,
      ← eq_map_handle_of_load houtcome]

/-! ### Loading a dump -/

/-- What a load leaves out is stripped in any case. -/
theorem LoadOptions.strip_keep (options : LoadOptions) (c : Closure Bytes) :
    (options.keep c).strip = c.strip :=
  options.keep_cases c rfl <|
    congrArg (Closure.mk c.upvalueCount) c.prototype.strip_dropDebug

/-- It makes no difference whether strings are replaced before stripping or after. -/
theorem Closure.strip_map {σ τ : Type} (f : σ → τ) (c : Closure σ) :
    (c.map f).strip = c.strip.map f := by
  simp only [strip, map, Prototype.strip, Prototype.map, FunctionTree.mapRecords_mapRecords]
  rfl

/-- A load that goes on with the table of an earlier one adds nothing if its closure has the same
strings. -/
theorem table_load_of_strings_eq (htable : table.Consistent)
    (h : (load options table name bs).outcome = .ok c) {options' : LoadOptions} {name' : String}
    {bs' : Bytes} {c' : Closure StringHandle}
    (h' : (load options' (load options table name bs).table name' bs').outcome = .ok c')
    (hstrings : c'.contents.prototype.strings = c.contents.prototype.strings) :
    (load options' (load options table name bs).table name' bs').table =
      (load options table name bs).table :=
  table_load_of_forall_mem (consistent_load htable) fun s hs => by
    rw [strings_of_load h', hstrings, ← strings_of_load h] at hs
    exact mem_table_load htable hs

/-- Loading a dump of what was loaded adds nothing, and gives every string the handle that it
had. -/
theorem load_of_dump_loaded (htable : table.Consistent)
    (h : (load options table name bs).outcome = .ok c) {strip : Bool} {dumped : Bytes}
    (hdump : dump c.contents strip = .ok dumped) (options' : LoadOptions) (name' : String)
    (hheight : c.prototype.height ≤ options'.maxDepth) :
    let report := load options table name bs
    let again := load options' report.table name' dumped
    again.table = report.table ∧ ∃ c', again.outcome = .ok c' ∧ c'.strip = c.strip := by
  intro report again
  rw [← c.height_contents] at hheight
  obtain ⟨c', hload, hcontents⟩ :=
    load_of_dump (storable_of_load h) hdump options' report.table name' hheight
  -- whatever a dump and a load leave out, they leave the constants
  have hstrings : c'.contents.prototype.strings = c.contents.prototype.strings := by
    rw [hcontents, options'.strings_keep]
    cases strip with
    | false => rfl
    | true => exact c.contents.prototype.strings_strip
  have hstrip : c'.contents.strip = c.contents.strip := by
    rw [hcontents, options'.strip_keep]
    cases strip with
    | false => rfl
    | true => exact c.contents.strip_strip
  -- with the same strings in the same table, the handles are the same too
  have hsame : again.table = report.table := table_load_of_strings_eq htable h hload hstrings
  refine ⟨hsame, c', hload, ?_⟩
  rw [eq_map_handle_of_load hload, show (load _ _ _ _).table = _ from hsame, Closure.strip_map,
    hstrip, ← Closure.strip_map, ← eq_map_handle_of_load h]

end Loaded

/-- A load adds to a table the string constants that are complete where reading ends, those that the
table does not hold, each once and in the order in which they first occur; a load that succeeds adds
all string constants of its closure. Numbers that resolved resolve as before, and every string of
the closure stands where its number says. But for the handles the table does not matter to the
outcome; loading the buffer again, or a dump of the closure, adds nothing and gives the same handles
again. -/
theorem load_strings (options : LoadOptions) (table : StringTable) (htable : table.Reachable)
    (name : String) (bs : Bytes) :
    let report := load options table name bs
    (∃ ss, CompleteStrings options.maxDepth (options.bytesRead bs) ss ∧
      report.table.contents.toList =
        table.contents.toList ++ (ss.filter (· ∉ table.contents.toList)).eraseDups ∧
      ∀ c, report.outcome = .ok c → ss = c.contents.prototype.strings) ∧
    (∀ id handle, table.resolve? id = some handle → report.table.resolve? id = some handle) ∧
    (∀ c, report.outcome = .ok c → ∀ handle ∈ c.prototype.strings,
      report.table.resolve? handle.id = some handle) ∧
    (∀ table',
      let report' := load options table' name bs
      (∀ error, report.outcome = .error error → report'.outcome = .error error) ∧
      ∀ c, report.outcome = .ok c → ∃ c', report'.outcome = .ok c' ∧ c'.contents = c.contents) ∧
    (load options report.table name bs).outcome = report.outcome ∧
    (load options report.table name bs).table = report.table ∧
    ∀ c, report.outcome = .ok c →
      (bs.length < 2 ^ 31 → ∀ strip, ∃ dumped, dump c.contents strip = .ok dumped) ∧
      ∀ strip dumped, dump c.contents strip = .ok dumped →
        ∀ (options' : LoadOptions) name', c.prototype.height ≤ options'.maxDepth →
          let again := load options' report.table name' dumped
          again.table = report.table ∧ ∃ c', again.outcome = .ok c' ∧ c'.strip = c.strip := by
  intro report
  have hconsistent := htable.consistent
  refine ⟨⟨_, Read.completeStrings_bytesRead options.toReadOptions bs, ?_,
    fun c hload => strings_of_load hload⟩, fun id handle hid => ?_,
    fun c hload handle hhandle => resolve?_of_mem_strings hconsistent hload hhandle,
    fun table' => ⟨(outcome_load_congr options table table' name bs).1, fun c hload => ?_⟩,
    (load_again hconsistent).1, (load_again hconsistent).2,
    fun c hload => ⟨fun hlen strip => ?_, fun strip dumped hdump => ?_⟩⟩
  -- what the load adds are the strings that are complete
  · rw [StringTable.table_load, StringTable.contents_internAll hconsistent]
  -- numbers go on resolving
  · rw [StringTable.table_load]
    exact StringTable.resolve?_internAll hid _
  -- with another table the contents are the same
  · exact ⟨_, (outcome_load_congr options table table' name bs).2 c hload,
      Closure.contents_map_handle ..⟩
  · exact ⟨_, dump_eq_ok (wellFormed_of_load hlen hload).writable strip⟩
  · exact load_of_dump_loaded hconsistent hload hdump

/-- A chunk with two string constants, of which the table holds the first. -/
theorem load_strings_sample :
    let table := ((StringTable.empty 0).intern [0x6B]).2
    let chunk := StoredChunk.sample
    let c := chunk.closure.map (table.internAll chunk.strings).handle
    table.Reachable ∧ (load {} table "sample" chunk.bytes).outcome = .ok c ∧
      (load {} table "sample" chunk.bytes).table.contents.toList = [[0x6B], []] ∧
      (∀ handle ∈ c.prototype.strings,
        (load {} table "sample" chunk.bytes).table.resolve? handle.id = some handle) ∧
      ∃ dumped, dump c.contents true = .ok dumped ∧
        (load {} (load {} table "sample" chunk.bytes).table "dump" dumped).table =
          (load {} table "sample" chunk.bytes).table := by
  intro table chunk c
  have htable : table.Reachable := .intern (.empty 0) [0x6B]
  have hload : (load {} table "sample" chunk.bytes).outcome = .ok c :=
    outcome_load_sample true table "sample"
  have hheight : c.prototype.height ≤ 200 := height_le_of_load hload
  have hstrings : c.contents.prototype.strings = [[0x6B], []] := by
    rw [Closure.contents_map_handle]
    rfl
  obtain ⟨⟨ss, -, hcontents, hss⟩, -, hresolve, -, -, -, hdump⟩ :=
    load_strings {} table htable "sample" chunk.bytes
  obtain ⟨dumped, hdumped⟩ := (hdump c hload).1 length_sample_lt true
  refine ⟨htable, hload, ?_, hresolve c hload, dumped, hdumped, ?_⟩
  · rw [hcontents, hss c hload, hstrings]
    decide +kernel
  · exact ((hdump c hload).2 true dumped hdumped {} "dump" hheight).1

/-- Cut between its two strings, the sample still enters the first. -/
example : (load {} (.empty 0) "cut" (StoredChunk.sample.bytes.take 85)).table.contents.toList =
    [[0x6B]] := by
  decide +kernel

end LuaChunk
