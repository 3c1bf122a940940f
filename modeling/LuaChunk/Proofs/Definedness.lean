import LuaChunk.Proofs.MachineReading
import LuaChunk.Proofs.MachineWriting
import LuaChunk.Proofs.MachineListing

/-!
# No step is undefined

Loading on a machine is reading on a machine, with the strings entered in a table whose numbers have
32 bits and the functions counted in 64. Whatever is in the buffer, no step of it is undefined, and
what it leaves behind is what a load leaves behind. A closure that was loaded can be written and
listed without an undefined step as well, wherever in its tree a listing begins.

The buffer is one that memory can hold: it has less than `2 ^ 63` bytes.

## Key results

* `internAll?_eq`     a string that a table knows stands inside the table
* `count?_eq`         functions are counted as far as the machine has numbers
* `load?_eq`          no step of a load is undefined
* `defined_of_load`   nor is one of writing or listing what was loaded
-/

namespace LuaChunk

/-! ### String tables -/

namespace StringTable

/-- The handle of a string, and the table that holds it. A string that is there already is taken
from the place that its number tells, of which the table keeps 32 bits. -/
def intern? (t : StringTable) (content : Bytes) : Option (StringHandle × StringTable) :=
  match t.id? content with
  | some id => do
    let _data ← t.contents[id % 2 ^ 32]?
    return t.intern content
  | none => some (t.intern content)

/-- The table after several strings have been interned in order. -/
def internAll? (t : StringTable) (contents : List Bytes) : Option StringTable :=
  contents.foldlM (fun t content => do
    let (_, t) ← t.intern? content
    return t) t

variable {t : StringTable}

/-- In a table whose numbers lead to its strings, no string is missing from its place. -/
theorem intern?_eq (h : t.Consistent) (content : Bytes) :
    t.intern? content = some (t.intern content) := by
  rw [intern?]
  cases hid : t.id? content with
  | none => rfl
  -- the number of a string is an index, and its last 32 bits are no larger
  | some id =>
    obtain ⟨hlt, -⟩ := Array.getElem?_eq_some_iff.1 ((h content id).1 hid)
    have hplace : id % 2 ^ 32 < t.contents.size := Nat.lt_of_le_of_lt (Nat.mod_le ..) hlt
    simp only [Array.getElem?_eq_getElem hplace, Option.bind_eq_bind, Option.bind_some,
      Option.pure_def]

/-- Nor is one missing when several strings are entered. -/
theorem internAll?_eq (h : t.Consistent) (contents : List Bytes) :
    t.internAll? contents = some (t.internAll contents) := by
  induction contents generalizing t with
  | nil => rfl
  | cons content contents ih =>
    rw [internAll?, List.foldlM_cons, intern?_eq h]
    exact ih (h.intern content)

end StringTable

/-! ### Numbers of functions -/

namespace FunctionTree

variable {ρ : Type}

/-- The number of functions in a tree: those inside the function are added up, and then one for the
function itself. -/
def count? : FunctionTree ρ → Option Nat :=
  fold fun _ counts => do
    let inside ← counts.foldlM (fun sum count => do
      let count ← count
      Machine.unsigned? (sum + count)) 0
    Machine.unsigned? (1 + inside)

/-- Numbers whose sum has 64 bits are added up without overflow. -/
theorem foldlM_unsigned?_add {counts : List Nat} {sum : Nat} (h : sum + counts.sum < 2 ^ 64) :
    (counts.map some).foldlM (fun sum count => do
      let count ← count
      Machine.unsigned? (sum + count)) sum = some (sum + counts.sum) := by
  induction counts generalizing sum with
  | nil => rfl
  | cons count counts ih =>
    rw [List.sum_cons] at h ⊢
    have hsum : Machine.unsigned? (sum + count) = some (sum + count) :=
      Machine.unsigned?_of_lt (by omega)
    rw [← Nat.add_assoc, ← ih (by omega)]
    simp only [List.map_cons, List.foldlM_cons, Option.bind_eq_bind, Option.bind_some, hsum]

/-- Functions are counted without overflow if their number has 64 bits. -/
theorem count?_eq {t : FunctionTree ρ} (h : t.count < 2 ^ 64) : t.count? = some t.count := by
  induction t using FunctionTree.induction with
  | node r cs ih =>
    rw [count_node_eq_sum] at h ⊢
    -- no function inside has more functions than there are in all
    have hchildren : cs.map count? = (cs.map count).map some := by
      rw [List.map_map]
      refine List.map_congr_left fun c hc => ih c hc ?_
      have hle := List.le_sum_of_mem (List.mem_map_of_mem (f := count) hc)
      omega
    have hinside : ((cs.map count).map some).foldlM _ 0 = some (0 + (cs.map count).sum) :=
      foldlM_unsigned?_add (by omega)
    have hall : Machine.unsigned? (1 + (cs.map count).sum) = some _ :=
      Machine.unsigned?_of_lt (by omega)
    rw [count?, fold_node, ← count?, hchildren, hinside, Nat.zero_add, Nat.add_comm _ 1]
    exact hall

end FunctionTree

/-! ### Loading -/

/-- Loads a chunk on a machine; `name` only labels errors and events. Reading never asks the string
table for anything, so that the strings can be entered when it has ended. -/
def load? (options : LoadOptions) (table : StringTable) (name : String) (bytes : Bytes) :
    Option LoadReport :=
  let begun := Event.loading name bytes.length
  match MachineRead.closure options.toReadOptions (Cursor.ofBytes bytes) with
  | .ok stored c => do
    let table ← table.internAll? c.reader.strings
    let kept := if options.keepDebug then stored else stored.dropDebug
    let left ← Machine.sub? c.buffer.length c.offset
    let trailing := if left = 0 then [] else [Event.ignoring left]
    let prototypes ← kept.prototype.count?
    return {
      outcome := .ok (kept.map table.handle)
      table
      events := [begun] ++ c.reader.records.map .readFunction ++ trailing
        ++ [.loaded name prototypes] }
  | .error (.rejected cause) c => do
    let error := LoadError.ofCause name cause
    let table ← table.internAll? c.reader.strings
    return {
      outcome := .error error
      table
      events := [begun] ++ c.reader.records.map .readFunction ++ [.rejected error] }
  | .error .undefined _ => none

/-- What was loaded from a buffer that memory can hold weighs no more than memory can hold. -/
theorem weight_lt_of_load {options : LoadOptions} {table : StringTable} {name : String} {bs : Bytes}
    (hbs : bs.length < 2 ^ 63) {c : Closure StringHandle}
    (h : (load options table name bs).outcome = .ok c) : c.contents.prototype.weight < 2 ^ 63 := by
  have hweight := weight_contents_le h
  omega

/-- Loading on a machine has a result, and it is that of a load. -/
theorem load?_eq (options : LoadOptions) {table : StringTable} (htable : table.Consistent)
    (name : String) {bs : Bytes} (hbs : bs.length < 2 ^ 63) :
    load? options table name bs = some (load options table name bs) := by
  have hagree := MachineRead.closure_follows options.toReadOptions (.ofBytes bs)
    ⟨Nat.zero_le _, hbs⟩ (Nat.zero_le 0)
  have hreader : (Cursor.ofBytes bs).reader = .ofBytes bs := rfl
  rw [hreader] at hagree
  -- what the machine reads is compared with what is read without one, result with result
  generalize hmachine : MachineRead.closure options.toReadOptions (.ofBytes bs) = result,
    hread : Read.closure options.toReadOptions (.ofBytes bs) = result' at hagree
  cases hagree with
  | @ok stored c hc _ =>
    -- a function weighs something, so there are not more of them than the buffer has bytes
    have hcount : (options.keep stored).prototype.count < 2 ^ 64 := by
      have hload : (load options table name bs).outcome = _ := outcome_load_of_ok hread
      have hweight := weight_lt_of_load hbs hload
      rw [Closure.contents_map_handle] at hweight
      have hle := (options.keep stored).prototype.count_mul_le_weight
      -- strings, bytes left over and functions, each without an undefined step
      omega
    simp only [load?, load, hmachine, hread, StringTable.internAll?_eq htable, hc.sub?_offset]
    rw [← LoadOptions.keep, FunctionTree.count?_eq hcount]
    rfl
  -- of a failure only the strings that were noted are entered
  | error cause c =>
    simp only [load?, load, hmachine, hread, StringTable.internAll?_eq htable]
    rfl

/-- Whatever is in a buffer, no step of loading it on a machine is undefined, with every limit on
nesting and whether or not debug information is kept: loading on the machine has a result, and it is
that of a load. No step of writing a closure that was loaded is undefined, stripped or not, and none
of listing a function of it with any options, wherever in the tree a path leads. -/
theorem defined_of_load (options : LoadOptions) (table : StringTable) (htable : table.Reachable)
    (name : String) (bs : Bytes) (hbs : bs.length < 2 ^ 63) :
    load? options table name bs = some (load options table name bs) ∧
    ∀ c, (load options table name bs).outcome = .ok c →
      (∀ strip, dump? c.contents strip = some (dump c.contents strip)) ∧
      ∀ path p, c.contents.prototype.at? path = some p → ∀ listing,
        Listing.render? listing p = some (Listing.render listing p) := by
  refine ⟨load?_eq options htable.consistent name hbs, fun c hload =>
    ⟨fun strip => dump?_eq (storable_of_load hload) strip, fun path p hp listing => ?_⟩⟩
  have hweight := weight_lt_of_load hbs hload
  exact Listing.render?_eq listing (Nat.lt_of_le_of_lt (Prototype.weight_of_at?_le hp) hweight)

/-- A sample that is read with the largest limit that there is, written in both ways, and listed
from the function inside its main function on. -/
theorem defined_of_load_sample :
    let options : LoadOptions := { maxDepth := 2 ^ 64 - 1 }
    let table := StringTable.empty 0
    let chunk := StoredChunk.sample
    let c := chunk.closure.map (table.internAll chunk.strings).handle
    table.Reachable ∧ chunk.bytes.length < 2 ^ 63 ∧
      (load? options table "sample" chunk.bytes).map (·.outcome) = some (.ok c) ∧
      dump? c.contents false = some (dump c.contents false) ∧
      dump? c.contents true = some (dump c.contents true) ∧
      ∃ p, c.contents.prototype.at? [0] = some p ∧
        Listing.render? .full p = some (Listing.render .full p) := by
  intro options table chunk c
  have htable : table.Reachable := .empty 0
  have hlength : chunk.bytes.length < 2 ^ 63 := Nat.lt_trans length_sample_lt (by decide)
  have hfits : (Form.chunk options.maxDepth).Fits chunk := by decide
  have hload : (load options table "sample" chunk.bytes).outcome = .ok c := by
    have happend := outcome_load_append options table "sample" hfits []
    rwa [List.append_nil] at happend
  obtain ⟨hdefined, hloaded⟩ := defined_of_load options table htable "sample" chunk.bytes hlength
  obtain ⟨hdump, hlisting⟩ := hloaded c hload
  have houtcome : (load? options table "sample" chunk.bytes).map (·.outcome) = some (.ok c) := by
    rw [hdefined, Option.map_some, hload]
  exact ⟨htable, hlength, houtcome, hdump false, hdump true, _, rfl, hlisting [0] _ rfl .full⟩

end LuaChunk
