import LuaChunk.Bytes
import Std.Data.TreeMap

/-!
# String tables

A string table holds every string once and numbers the strings in the order in which they first came
in. A handle is a string with its number and the table it is from; handles are compared by content,
so handles from different tables can be equal.

## Key results

* `intern_of_id?_eq_some`            interning a string that the table holds changes nothing
* `contents_intern_of_id?_eq_none`   interning a new string puts it at the end
* `id?_intern`                       interning a string changes the number of no other
-/

namespace LuaChunk

/-- A string of a string table. -/
structure StringHandle where
  /-- The label of the table. -/
  table : Nat
  /-- The number of the string in the table. -/
  id : Nat
  content : Bytes
  deriving DecidableEq, Repr

namespace StringHandle

/-- Equality of handles is equality of content. -/
def same (x y : StringHandle) : Bool :=
  x.content == y.content

/-- Whether two handles are the same entry of the same table. -/
def sharesStorage (x y : StringHandle) : Bool :=
  x.table == y.table && x.id == y.id

/-- How many different strings several handles have. -/
def countDistinct (handles : List StringHandle) : Nat :=
  (handles.map content).eraseDups.length

end StringHandle

/-- A string table: the strings by number, and the numbers by string. -/
structure StringTable where
  /-- A number that tells tables apart. -/
  label : Nat
  contents : Array Bytes
  ids : Std.TreeMap Bytes Nat

namespace StringTable

/-- A table without strings. -/
def empty (label : Nat) : StringTable :=
  ⟨label, #[], ∅⟩

/-- How many strings a table holds. -/
def count (t : StringTable) : Nat :=
  t.contents.size

/-- The number of a string that the table holds. -/
def id? (t : StringTable) (content : Bytes) : Option Nat :=
  t.ids[content]?

/-- The handle with a given number. -/
def resolve? (t : StringTable) (id : Nat) : Option StringHandle :=
  t.contents[id]?.map fun content => ⟨t.label, id, content⟩

/-- The handle of a string, and the table that holds it: a string that is not there yet comes to the
end. -/
def intern (t : StringTable) (content : Bytes) : StringHandle × StringTable :=
  match t.id? content with
  | some id => (⟨t.label, id, content⟩, t)
  | none =>
    (⟨t.label, t.count, content⟩,
      { t with
        contents := t.contents.push content
        ids := t.ids.insert content t.count })

/-- The table after several strings have been interned in order. -/
def internAll (t : StringTable) (contents : List Bytes) : StringTable :=
  contents.foldl (fun t content => (t.intern content).2) t

/-- A string that a table holds is not entered again. -/
theorem intern_of_id?_eq_some {t : StringTable} {content : Bytes} {id : Nat}
    (h : t.id? content = some id) : t.intern content = (⟨t.label, id, content⟩, t) := by
  simp [intern, h]

/-- A string that a table does not hold is entered behind the others. -/
theorem contents_intern_of_id?_eq_none {t : StringTable} {content : Bytes}
    (h : t.id? content = none) :
    (t.intern content).2.contents.toList = t.contents.toList ++ [content] := by
  simp [intern, h]

/-- After a string is interned it is found under its number, and the others as before. -/
theorem id?_intern {t : StringTable} (content other : Bytes) :
    (t.intern content).2.id? other =
      if content = other then some (t.intern content).1.id else t.id? other := by
  -- a string that was held changes nothing; one that was not is one more entry in the map
  cases h : t.id? content with
  | some id =>
    rw [intern_of_id?_eq_some h]
    split
    · next heq => rw [← heq, h]
    · rfl
  | none =>
    simp only [intern, h]
    simp only [id?, Std.TreeMap.getElem?_insert, Std.LawfulEqCmp.compare_eq_iff_eq]

end StringTable

end LuaChunk
