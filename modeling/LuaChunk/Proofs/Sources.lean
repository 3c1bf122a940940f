import LuaChunk.Prototype
import Mathlib.Logic.Basic

/-!
# Sources left out and put back

A chunk leaves a source out where it is that of the function around it, and a function whose source
is absent or empty is given that of the function around it. The two undo each other on trees in
which every source can be told from an absent one: none is empty, and none is missing inside a
function that has one.

Stripping takes away every source, so that nothing is left to leave out.

## Key results

* `inheritSources_elideSources`   what is left out is put back
* `elideSources_strip`            a stripped tree has no source to leave out
* `strip_strip`, `dropDebug_strip`   a stripped tree has nothing more to lose
-/

namespace LuaChunk

namespace Prototype

open FunctionTree

variable {σ : Type} {p : Prototype σ} {parent : Option Bytes}

/-- Whether no source in a tree is empty and no function has none inside one that has; `parent` is
the source around the root. -/
def SourcesResolved (p : Prototype σ) (parent : Option Bytes) : Prop :=
  (fold (fun r children => fun parent =>
      r.source ≠ some [] ∧ (r.source = none → parent = none) ∧ ∀ c ∈ children, c r.source)
    p : Option Bytes → Prop) parent

/-- A tree is resolved if its root is, against `parent`, and each child is, against the source of
the root. -/
theorem sourcesResolved_node {r : FunctionRecord σ} {cs : List (Prototype σ)} :
    SourcesResolved (.node r cs) parent ↔
      r.source ≠ some [] ∧ (r.source = none → parent = none) ∧
        ∀ c ∈ cs, SourcesResolved c r.source := by
  simp only [SourcesResolved, fold_node, List.forall_mem_map]

/-! ### Leaving out and putting back -/

/-- A source that is not that of the parent is stored, and stands for itself. -/
theorem resolveSource_of_ne {source : Option Bytes} (hempty : source ≠ some [])
    (hnone : source = none → parent = none) :
    resolveSource parent (if source = parent then none else source) = source := by
  by_cases heq : source = parent
  · rw [if_pos heq, heq]
    rfl
  · rw [if_neg heq]
    -- only a source that is stored and not empty is left
    rcases source with _ | _ | _
    · exact absurd (hnone rfl).symm heq
    · exact absurd rfl hempty
    · rfl

/-- On a resolved tree, the sources that are left out are put back by inheritance. -/
theorem inheritSources_elideSources (h : p.SourcesResolved parent) :
    (p.elideSources parent).inheritSources parent = p := by
  induction p using FunctionTree.induction generalizing parent with
  | node r cs ih =>
    -- the children are resolved against the source of the node, which comes back first
    obtain ⟨hempty, hnone, hcs⟩ := sourcesResolved_node.1 h
    rw [elideSources_node, inheritSources_node, resolveSource_of_ne hempty hnone, List.map_map]
    have hchildren : ∀ c ∈ cs, inheritSources (elideSources c r.source) r.source = c :=
      fun c hc => ih c hc (hcs c hc)
    exact congrArg _ ((List.map_congr_left hchildren).trans (List.map_id' cs))

/-- A property that does not look at sources holds of the tree if it held before. -/
theorem all_elideSources {P : FunctionRecord σ → Nat → Prop} (h : All P p)
    (hP : ∀ r n, P r n → P { r with source := none } n) : All P (p.elideSources parent) := by
  induction p using FunctionTree.induction generalizing parent with
  | node r cs ih =>
    obtain ⟨hr, hcs⟩ := all_node.1 h
    rw [elideSources_node, all_node, List.length_map]
    refine ⟨?_, List.forall_mem_map.2 fun c hc => ih c hc (hcs c hc)⟩
    -- the record keeps its source or loses it
    by_cases heq : r.source = parent
    · simp only [if_pos heq]
      exact hP r _ hr
    · simp only [if_neg heq]
      exact hr

/-- What does not depend on the source is told of every function as it was before. -/
theorem mapRecords_elideSources {ο : Type} {f : FunctionRecord σ → ο}
    (h : ∀ (r : FunctionRecord σ) source, f { r with source } = f r) (p : Prototype σ)
    (parent : Option Bytes) : mapRecords f (p.elideSources parent) = mapRecords f p := by
  induction p using FunctionTree.induction generalizing parent with
  | node r cs ih =>
    rw [elideSources_node, mapRecords_node, mapRecords_node, h, List.map_map]
    exact congrArg _ (List.map_congr_left fun c hc => ih c hc _)

@[simp] theorem height_elideSources (p : Prototype σ) (parent : Option Bytes) :
    (p.elideSources parent).height = p.height := by
  induction p using FunctionTree.induction generalizing parent with
  | node r cs ih =>
    rw [elideSources_node, height_node, height_node, List.map_map]
    congr 1
    exact List.map_congr_left fun c hc => congrArg (· + 1) (ih c hc _)

@[simp] theorem upvalues_elideSources (p : Prototype σ) (parent : Option Bytes) :
    (p.elideSources parent).record.upvalues = p.record.upvalues := by
  cases p
  rw [elideSources_node]
  rfl

/-! ### Stripping -/

theorem dropDebug_dropDebug_record (r : FunctionRecord σ) :
    r.dropDebug.dropDebug = r.dropDebug := by
  simp [FunctionRecord.dropDebug]

/-- Debug information that stripping would take away can be dropped before. -/
@[simp] theorem strip_dropDebug (p : Prototype σ) : p.dropDebug.strip = p.strip := by
  simp only [strip, dropDebug, mapRecords_mapRecords, dropDebug_dropDebug_record]

@[simp] theorem dropDebug_strip (p : Prototype σ) : p.strip.dropDebug = p.strip := by
  simp [strip, dropDebug, mapRecords_mapRecords, FunctionRecord.dropDebug, Function.comp_def]

@[simp] theorem strip_strip (p : Prototype σ) : p.strip.strip = p.strip := by
  simp [strip, mapRecords_mapRecords, FunctionRecord.dropDebug, Function.comp_def]

/-- A function keeps its upvalues, which may lose their names, without debug information. -/
theorem length_upvalues_dropDebug (p : Prototype σ) :
    p.dropDebug.record.upvalues.length = p.record.upvalues.length := by
  simp [dropDebug, FunctionRecord.dropDebug]

/-- And so does one that is stripped. -/
theorem length_upvalues_strip (p : Prototype σ) :
    p.strip.record.upvalues.length = p.record.upvalues.length := by
  simp [strip, FunctionRecord.dropDebug]

/-- A stripped tree has no source to leave out. -/
theorem elideSources_strip (p : Prototype σ) : p.strip.elideSources none = p.strip := by
  induction p using FunctionTree.induction with
  | node r cs ih =>
    -- the source of the node is absent, as the one around it is
    rw [strip, mapRecords_node, elideSources_node, List.map_map]
    exact congrArg _ (List.map_congr_left ih)

/-- A tree without any source is resolved. -/
theorem sourcesResolved_strip (p : Prototype σ) : p.strip.SourcesResolved none := by
  induction p using FunctionTree.induction with
  | node r cs ih =>
    rw [strip, mapRecords_node, sourcesResolved_node]
    exact ⟨nofun, fun _ => rfl, List.forall_mem_map.2 ih⟩

/-- A change of records that keeps their sources keeps them resolved. -/
theorem sourcesResolved_mapRecords {τ : Type} {f : FunctionRecord σ → FunctionRecord τ}
    (h : ∀ r, (f r).source = r.source) :
    SourcesResolved (mapRecords f p) parent ↔ p.SourcesResolved parent := by
  induction p using FunctionTree.induction generalizing parent with
  | node r cs ih =>
    -- only the source of the node itself is looked at, and `f` keeps it
    rw [mapRecords_node, sourcesResolved_node, sourcesResolved_node, h, List.forall_mem_map]
    exact and_congr_right' (and_congr_right' (forall₂_congr fun c hc => ih c hc))

theorem SourcesResolved.dropDebug (h : p.SourcesResolved parent) :
    p.dropDebug.SourcesResolved parent :=
  (sourcesResolved_mapRecords (f := FunctionRecord.dropDebug) fun _ => rfl).2 h

end Prototype

end LuaChunk
