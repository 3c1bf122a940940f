import LuaChunk.Proofs.Loading
import LuaChunk.Proofs.Steps

/-!
# String tables that are grown

A table that was reached from an empty one by interning strings is consistent: its two halves say
the same. Strings interned in such a table come behind those that it holds, each once and in the
order in which they first occur; a string keeps its number for good.

## Key results

* `contents_internAll`        what a table holds after several strings have been interned
* `resolve?_internAll`        a number that resolves goes on resolving to the same string
* `resolve?_handle`           a string that a table holds stands where its handle says
* `internAll_of_forall_mem`   strings that a table holds add nothing to it
-/

namespace LuaChunk

namespace StringTable

variable {t : StringTable} {s : Bytes}

@[simp] theorem internAll_nil (t : StringTable) : t.internAll [] = t :=
  rfl

@[simp] theorem internAll_cons (t : StringTable) (s : Bytes) (ss : List Bytes) :
    t.internAll (s :: ss) = (t.intern s).2.internAll ss :=
  rfl

/-- Strings are interned in two portions as they are in one. -/
theorem internAll_append (t : StringTable) (ss ss' : List Bytes) :
    t.internAll (ss ++ ss') = (t.internAll ss).internAll ss' :=
  List.foldl_append

@[simp] theorem label_intern (t : StringTable) (s : Bytes) : (t.intern s).2.label = t.label := by
  unfold intern
  split <;> rfl

@[simp] theorem label_internAll (t : StringTable) (ss : List Bytes) :
    (t.internAll ss).label = t.label := by
  induction ss generalizing t with
  | nil => rfl
  | cons s ss ih => rw [internAll_cons, ih, label_intern]

/-- The string that is interned stands behind all that were there. -/
theorem contents_prefix_intern (t : StringTable) (s : Bytes) :
    t.contents.toList <+: (t.intern s).2.contents.toList := by
  cases h : t.id? s with
  -- the table holds the string already
  | some id =>
    refine ⟨[], ?_⟩
    rw [intern_of_id?_eq_some h, List.append_nil]
  -- the string is new
  | none =>
    rw [contents_intern_of_id?_eq_none h]
    exact List.prefix_append _ _

/-- A table only grows, and only at its end. -/
theorem contents_prefix_internAll (t : StringTable) (ss : List Bytes) :
    t.contents.toList <+: (t.internAll ss).contents.toList := by
  induction ss generalizing t with
  | nil => exact List.prefix_refl _
  | cons s ss ih => exact (contents_prefix_intern t s).trans (ih _)

/-- A number that resolves goes on resolving to the same string. -/
theorem resolve?_internAll {id : Nat} {handle : StringHandle} (h : t.resolve? id = some handle)
    (ss : List Bytes) : (t.internAll ss).resolve? id = some handle := by
  simp only [resolve?, label_internAll, Option.map_eq_some_iff, ← Array.getElem?_toList] at h ⊢
  obtain ⟨content, hcontent, hhandle⟩ := h
  obtain ⟨added, hadded⟩ := contents_prefix_internAll t ss
  obtain ⟨hlt, -⟩ := List.getElem?_eq_some_iff.1 hcontent
  refine ⟨content, ?_, hhandle⟩
  rw [← hadded, List.getElem?_append_left hlt]
  exact hcontent

/-! ### Consistent tables -/

/-- Whether the numbers of a table are the places of its strings. -/
def Consistent (t : StringTable) : Prop :=
  ∀ content id, t.id? content = some id ↔ t.contents[id]? = some content

/-- An empty table has neither strings nor numbers. -/
theorem consistent_empty (label : Nat) : (empty label).Consistent := by
  intro content id
  simp [empty, id?]

namespace Consistent

/-- A string with a number is one that the table holds. -/
theorem mem_of_id?_eq_some (h : t.Consistent) {id : Nat} (hid : t.id? s = some id) :
    s ∈ t.contents.toList :=
  Array.mem_toList_iff.2 (Array.mem_of_getElem? ((h s id).1 hid))

/-- A string without a number is one that the table does not hold. -/
theorem id?_eq_none_iff (h : t.Consistent) : t.id? s = none ↔ s ∉ t.contents.toList := by
  constructor
  -- a string that the table holds has a number, and so it is not true that it has none
  · intro hnone hs
    obtain ⟨id, hid⟩ := Array.mem_iff_getElem?.1 (Array.mem_toList_iff.1 hs)
    rw [(h s id).2 hid] at hnone
    contradiction
  · intro hs
    cases hid : t.id? s with
    | none => rfl
    | some id => exact absurd (h.mem_of_id?_eq_some hid) hs

/-- Interning a string keeps a table consistent. -/
theorem intern (h : t.Consistent) (s : Bytes) : (t.intern s).2.Consistent := by
  cases hid : t.id? s with
  -- a string that is there leaves the table as it is
  | some id =>
    rw [intern_of_id?_eq_some hid]
    exact h
  | none =>
    intro content id
    -- the new string is the last one, under the number of those in front of it
    have hnew : (t.intern s).1.id = t.contents.size := by simp [StringTable.intern, hid, count]
    have hcontents : (t.intern s).2.contents = t.contents.push s := by
      simp [StringTable.intern, hid]
    rw [id?_intern, hnew, hcontents, Array.getElem?_push]
    by_cases hs : s = content
    · -- the new string has the new number, and no other
      subst hs
      have hold := h s id
      rw [hid] at hold
      rw [if_pos rfl]
      split
      · next heq => simp [heq]
      · next hne =>
        have hnone : t.contents[id]? ≠ some s := fun hat => Option.some_ne_none id (hold.2 hat).symm
        exact iff_of_false (by simpa using Ne.symm hne) hnone
    -- any other string is where it was
    · rw [if_neg hs, h content id]
      split
      · next heq => simp [heq, hs]
      · rfl

theorem internAll (h : t.Consistent) (ss : List Bytes) : (t.internAll ss).Consistent := by
  induction ss generalizing t with
  | nil => exact h
  | cons s ss ih => exact ih (h.intern s)

/-- A string that a table holds adds nothing to it. -/
theorem intern_of_mem (h : t.Consistent) (hs : s ∈ t.contents.toList) :
    ∃ id, t.id? s = some id ∧ t.intern s = (⟨t.label, id, s⟩, t) := by
  obtain ⟨id, hid⟩ := Array.mem_iff_getElem?.1 (Array.mem_toList_iff.1 hs)
  exact ⟨id, (h s id).2 hid, intern_of_id?_eq_some ((h s id).2 hid)⟩

end Consistent

/-! ### What a consistent table holds after strings have been interned -/

/-- Strings that a table does not hold come behind those that it holds, each once and in the order
in which they first occur. -/
theorem contents_internAll (h : t.Consistent) (ss : List Bytes) :
    (t.internAll ss).contents.toList =
      t.contents.toList ++ (ss.filter (· ∉ t.contents.toList)).eraseDups := by
  induction ss generalizing t with
  | nil => simp
  | cons s ss ih =>
    rw [internAll_cons, ih (h.intern s)]
    by_cases hs : s ∈ t.contents.toList
    -- a string that is there already is skipped on both sides
    · obtain ⟨id, -, hintern⟩ := h.intern_of_mem hs
      rw [hintern, List.filter_cons_of_neg (by simpa using hs)]
    -- a new string comes first among the new ones
    · rw [contents_intern_of_id?_eq_none (h.id?_eq_none_iff.2 hs),
        List.filter_cons_of_pos (by simpa using hs), List.eraseDups_cons, List.filter_filter,
        List.append_assoc, List.singleton_append]
      -- what is new now was new before and differs from `s`
      congr 3
      apply List.filter_congr
      intro s' _
      simp [Bool.and_comm, Bool.beq_eq_decide_eq]

/-- A table holds what it held and what has been interned. -/
theorem mem_contents_internAll (h : t.Consistent) {ss : List Bytes} :
    s ∈ (t.internAll ss).contents.toList ↔ s ∈ t.contents.toList ∨ s ∈ ss := by
  rw [contents_internAll h, List.mem_append, List.mem_eraseDups, List.mem_filter]
  by_cases hs : s ∈ t.contents.toList <;> simp [hs]

/-- Strings that a table holds add nothing to it. -/
theorem internAll_of_forall_mem (h : t.Consistent) {ss : List Bytes}
    (hss : ∀ s ∈ ss, s ∈ t.contents.toList) : t.internAll ss = t := by
  induction ss with
  | nil => rfl
  | cons s ss ih =>
    obtain ⟨hs, hss⟩ := List.forall_mem_cons.1 hss
    obtain ⟨id, -, hintern⟩ := h.intern_of_mem hs
    rw [internAll_cons, hintern]
    exact ih hss

/-- A string that a table holds stands where its handle says. -/
theorem resolve?_handle (h : t.Consistent) (hs : s ∈ t.contents.toList) :
    t.resolve? (t.handle s).id = some (t.handle s) := by
  obtain ⟨id, hid, hintern⟩ := h.intern_of_mem hs
  rw [handle, hintern, resolve?, (h s id).1 hid]
  rfl

/-- Whether a table is reached from an empty one by interning strings and loading chunks. -/
inductive Reachable : StringTable → Prop
  | empty (label : Nat) : Reachable (empty label)
  | intern {t : StringTable} (h : Reachable t) (s : Bytes) : Reachable (t.intern s).2
  | load {t : StringTable} (h : Reachable t) (options : LoadOptions) (name : String) (bs : Bytes) :
      Reachable (load options t name bs).table

/-- The table after a load is that before it with the strings that were read. -/
theorem table_load (options : LoadOptions) (t : StringTable) (name : String) (bs : Bytes) :
    (LuaChunk.load options t name bs).table =
      t.internAll (Read.stop (Read.closure options.toReadOptions (.ofBytes bs))).strings := by
  unfold LuaChunk.load
  dsimp only
  split <;> next hread => rw [hread]; rfl

/-- A table that was reached from an empty one is consistent. -/
theorem Reachable.consistent (h : t.Reachable) : t.Consistent := by
  induction h with
  | empty label => exact consistent_empty label
  | intern _ s ih => exact ih.intern s
  | load _ options name bs ih =>
    rw [table_load]
    exact ih.internAll _

end StringTable

end LuaChunk
