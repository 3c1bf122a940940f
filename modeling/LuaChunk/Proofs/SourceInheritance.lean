import LuaChunk.Proofs.Representation

/-!
# Where sources come from

A function whose record stores no source, or an empty one, has that of the function around it. Over
several levels this makes the source of a function that of the nearest record with a source of its
own, on the way from the function back to the root of the chunk. Only the records on that way have a
part in it. Written out again, a function's source is stored where it is not that of the function
around it, and nowhere else.

## Key results

* `NearestSource.unique`     no record off the path has a part in the source
* `nearestSource_prototype`  the source of a function is that of the nearest record with one
* `leavesOut_ofPrototype`    what is written leaves out the sources that are those around
* `sources_of_load`          where the sources of a chunk that loads come from, and where they go
-/

namespace LuaChunk

open FunctionTree

/-- Where two optional values are related, they are so in any weaker way. -/
theorem rel_imp {α β : Type} {R S : α → β → Prop} (h : ∀ a b, R a b → S a b) {x : Option α}
    {y : Option β} : Option.Rel R x y → Option.Rel S x y
  | .none => .none
  | .some hab => .some (h _ _ hab)

/-! ### Sources along a path -/

namespace Prototype

variable {σ τ : Type} {p c : Prototype σ} {r : FunctionRecord σ} {cs : List (Prototype σ)}
  {parent : Option Bytes} {path : List Nat} {i : Nat}

/-- The source of the function that a path leads to, if it leads to one. -/
def sourceAt? (p : Prototype σ) (path : List Nat) : Option (Option Bytes) :=
  (p.at? path).map fun s => s.record.source

/-- The source around the function that a path leads to: that of the function one step back, or
`parent` if the path is at the root. -/
def sourceAround (p : Prototype σ) (parent : Option Bytes) (path : List Nat) : Option Bytes :=
  if path = [] then parent else (p.sourceAt? path.dropLast).join

/-- A change of all records that leaves sources alone leaves them where they were. -/
theorem sourceAt?_mapRecords {f : FunctionRecord σ → FunctionRecord τ}
    (hf : ∀ r, (f r).source = r.source) (p : Prototype σ) (path : List Nat) :
    sourceAt? (mapRecords f p) path = p.sourceAt? path := by
  rw [sourceAt?, at?_mapRecords, Option.map_map, sourceAt?]
  refine congrArg (Option.map · (p.at? path)) (funext fun s => ?_)
  rw [Function.comp_apply, record_mapRecords, hf]

@[simp] theorem sourceAt?_map (f : σ → τ) (p : Prototype σ) (path : List Nat) :
    (p.map f).sourceAt? path = p.sourceAt? path :=
  sourceAt?_mapRecords (f := FunctionRecord.map f) (fun _ => rfl) p path

@[simp] theorem sourceAt?_dropDebug (p : Prototype σ) (path : List Nat) :
    p.dropDebug.sourceAt? path = p.sourceAt? path :=
  sourceAt?_mapRecords (f := FunctionRecord.dropDebug) (fun _ => rfl) p path

/-- A change of the handles of strings leaves the sources around functions alone. -/
@[simp] theorem sourceAround_map (f : σ → τ) (p : Prototype σ) (parent : Option Bytes)
    (path : List Nat) : (p.map f).sourceAround parent path = p.sourceAround parent path := by
  rw [sourceAround, sourceAt?_map, sourceAround]

/-- A path that begins at a child leads where the rest of it leads in the child. -/
theorem sourceAt?_cons (hc : cs[i]? = some c) (path : List Nat) :
    sourceAt? (.node r cs) (i :: path) = c.sourceAt? path := by
  rw [sourceAt?, at?_cons hc, sourceAt?]

/-- Inside a child, the source around a function starts from the source of the node. -/
theorem sourceAround_cons (hc : cs[i]? = some c) (path : List Nat) :
    sourceAround (.node r cs) parent (i :: path) = c.sourceAround r.source path := by
  cases path with
  | nil => rfl
  | cons j path =>
    -- one step back from the end of the path is still inside the child
    rw [sourceAround, if_neg (List.cons_ne_nil _ _),
      List.dropLast_cons_of_ne_nil (List.cons_ne_nil _ _), sourceAt?_cons hc, sourceAround,
      if_neg (List.cons_ne_nil _ _)]

/-- Wherever a path leads, the function there is resolved against the source around it. -/
theorem SourcesResolved.of_at?_sourceAround {s : Prototype σ} (h : p.SourcesResolved parent)
    (hs : p.at? path = some s) : s.SourcesResolved (p.sourceAround parent path) := by
  induction path generalizing p parent with
  | nil =>
    obtain rfl := Option.some.inj hs
    exact h
  | cons i path ih =>
    obtain ⟨r, cs⟩ := p
    obtain ⟨c, hc, hs⟩ := at?_cons_eq_some.1 hs
    replace hc : cs[i]? = some c := hc
    rw [sourceAround_cons hc]
    exact ih ((sourcesResolved_node.1 h).2.2 c (List.mem_of_getElem? hc)) hs

/-- What is left out at the end of a path is decided by the source around it. -/
theorem at?_elideSources (p : Prototype σ) (parent : Option Bytes) (path : List Nat) :
    (p.elideSources parent).at? path =
      (p.at? path).map fun s => elideSources s (p.sourceAround parent path) := by
  induction path generalizing p parent with
  | nil => rfl
  | cons i path ih =>
    obtain ⟨r, cs⟩ := p
    rw [elideSources_node]
    -- the path may leave the tree here, and then does so on both sides
    cases hc : cs[i]? with
    | none => simp [at?, children, hc]
    | some c =>
      have hchild : (cs.map (elideSources · r.source))[i]? = some (elideSources c r.source) := by
        rw [List.getElem?_map, hc, Option.map_some]
      rw [at?_cons hchild, at?_cons hc, sourceAround_cons hc]
      exact ih c r.source

/-- What is left of the source of a root is nothing exactly if it is the source around it. -/
theorem source_elideSources (p : Prototype σ) (parent : Option Bytes) :
    (p.elideSources parent).record.source =
      if p.record.source = parent then none else p.record.source := by
  cases p
  rw [elideSources_node]
  rfl

end Prototype

/-! ### Sources that are stored -/

namespace StoredFunction

variable {t t' c : StoredFunction} {r : StoredRecord} {cs : List StoredFunction}
  {parent source source' : Option Bytes} {path : List Nat} {i : Nat}

/-- The source that is stored in the record that a path leads to. -/
def storedSource (t : StoredFunction) (path : List Nat) : Option Bytes :=
  (t.at? path).bind fun s => s.record.source.content

/-- Whether the record that a path leads to has a source of its own: it stores one, and not an empty
one. -/
def HasSource (t : StoredFunction) (path : List Nat) : Prop :=
  (t.storedSource path).getD [] ≠ []

/-- The source of the function at the end of a path, inside a function of source `parent`: that of
the nearest record with a source of its own on the way back along the path, and `parent` if there is
no such record. -/
inductive NearestSource (t : StoredFunction) (parent : Option Bytes) (path : List Nat) :
    Option Bytes → Prop
  | stored (front : List Nat) (onPath : front <+: path) (own : t.HasSource front)
      (nearest : ∀ other, other <+: path → t.HasSource other → other.length ≤ front.length) :
      NearestSource t parent path (t.storedSource front)
  | inherited (absent : ∀ front, front <+: path → ¬ t.HasSource front) :
      NearestSource t parent path parent

/-- Two trees that store the same sources along a path have the same source at its end, whatever
they store anywhere else. -/
theorem NearestSource.unique (h : t.NearestSource parent path source)
    (h' : t'.NearestSource parent path source')
    (hpath : ∀ front, front <+: path → t.storedSource front = t'.storedSource front) :
    source = source' := by
  have hown : ∀ front, front <+: path → (t.HasSource front ↔ t'.HasSource front) :=
    fun front hfront => by rw [HasSource, HasSource, hpath front hfront]
  cases h with
  | stored front hfront hsource hnearest =>
    cases h' with
    | stored front' hfront' hsource' hnearest' =>
      -- each of the two is the nearest, so that they are one record
      have hle := hnearest front' hfront' ((hown _ hfront').2 hsource')
      have hle' := hnearest' front hfront ((hown _ hfront).1 hsource)
      have heq : front = front' :=
        (List.prefix_of_prefix_length_le hfront hfront' hle').eq_of_length
          (Nat.le_antisymm hle' hle)
      rw [hpath front hfront, heq]
    -- a source on the path of one tree is on the path of the other
    | inherited habsent => exact absurd ((hown _ hfront).1 hsource) (habsent front hfront)
  | inherited habsent =>
    cases h' with
    | stored front' hfront' hsource' _ =>
      exact absurd ((hown _ hfront').2 hsource') (habsent front' hfront')
    | inherited _ => rfl

/-- A path that begins at a child stores what the rest of it stores in the child. -/
theorem storedSource_cons (hc : cs[i]? = some c) (front : List Nat) :
    storedSource (.node r cs) (i :: front) = c.storedSource front := by
  rw [storedSource, at?_cons hc, storedSource]

theorem hasSource_cons (hc : cs[i]? = some c) (front : List Nat) :
    HasSource (.node r cs) (i :: front) ↔ c.HasSource front := by
  rw [HasSource, storedSource_cons hc, HasSource]

/-- A record with a source of its own keeps it, whatever is around. -/
theorem resolvedSource_of_hasSource (h : HasSource (.node r cs) []) (parent : Option Bytes) :
    r.resolvedSource parent = storedSource (.node r cs) [] :=
  if_neg h

/-- A record without one has the source around it. -/
theorem resolvedSource_of_not_hasSource (h : ¬ HasSource (.node r cs) []) (parent : Option Bytes) :
    r.resolvedSource parent = parent :=
  if_pos (Classical.not_not.1 h)

/-- At the root the nearest source is that of the root, or the one around. -/
theorem nearestSource_nil (r : StoredRecord) (cs : List StoredFunction) (parent : Option Bytes) :
    NearestSource (.node r cs) parent [] (r.resolvedSource parent) := by
  -- the only record on the empty path is the root
  by_cases hown : HasSource (.node r cs) []
  · rw [resolvedSource_of_hasSource hown]
    exact .stored [] List.nil_prefix hown fun other hother _ => hother.length_le
  · rw [resolvedSource_of_not_hasSource hown]
    refine .inherited fun front hfront => ?_
    rwa [List.prefix_nil.1 hfront]

/-- The nearest source inside a child, around which is the source of the node, is the nearest along
the whole path. -/
theorem NearestSource.cons (hc : cs[i]? = some c)
    (h : c.NearestSource (r.resolvedSource parent) path source) :
    NearestSource (.node r cs) parent (i :: path) source := by
  cases h with
  | stored front hfront hown hnearest =>
    rw [← storedSource_cons hc]
    -- the root, if it has a source, is further away than anything in the child
    refine .stored (i :: front) (List.cons_prefix_cons.2 ⟨rfl, hfront⟩)
      ((hasSource_cons hc front).2 hown) fun other hother hsource => ?_
    rcases List.prefix_cons_iff.1 hother with rfl | ⟨rest, rfl, hrest⟩
    · exact Nat.zero_le _
    · exact Nat.succ_le_succ (hnearest rest hrest ((hasSource_cons hc rest).1 hsource))
  | inherited habsent =>
    have hbelow : ∀ rest, rest <+: path → ¬ HasSource (.node r cs) (i :: rest) :=
      fun rest hrest hsource => habsent rest hrest ((hasSource_cons hc rest).1 hsource)
    -- from the child on there is none, so that all is decided at the node
    by_cases hown : HasSource (.node r cs) []
    · rw [resolvedSource_of_hasSource hown]
      refine .stored [] List.nil_prefix hown fun other hother hsource => ?_
      rcases List.prefix_cons_iff.1 hother with rfl | ⟨rest, rfl, hrest⟩
      · exact Nat.le_refl _
      · exact absurd hsource (hbelow rest hrest)
    · rw [resolvedSource_of_not_hasSource hown]
      refine .inherited fun front hfront => ?_
      rcases List.prefix_cons_iff.1 hfront with rfl | ⟨rest, rfl, hrest⟩
      · exact hown
      · exact hbelow rest hrest

/-- Wherever a path leads, the function there has the nearest source along the path. -/
theorem nearestSource_prototype (t : StoredFunction) (parent : Option Bytes) (path : List Nat) :
    Option.Rel (fun _ source => t.NearestSource parent path source) (t.at? path)
      ((t.prototype parent).sourceAt? path) := by
  -- one step down the path, the node's own source is the one around
  induction path generalizing t parent with
  | nil =>
    obtain ⟨r, cs⟩ := t
    rw [prototype_node]
    exact .some (nearestSource_nil r cs parent)
  | cons i path ih =>
    obtain ⟨r, cs⟩ := t
    rw [prototype_node]
    -- where the path leaves the tree, it does so in the prototype too
    cases hc : cs[i]? with
    | none =>
      simp only [Prototype.sourceAt?, at?, children, List.getElem?_map, hc]
      exact .none
    | some c =>
      have hchild : (cs.map (prototype (r.resolvedSource parent)))[i]? =
          some (prototype (r.resolvedSource parent) c) := by
        rw [List.getElem?_map, hc, Option.map_some]
      rw [at?_cons hc, Prototype.sourceAt?_cons hchild]
      exact rel_imp (fun _ _ hsource => hsource.cons hc) (ih c (r.resolvedSource parent))

end StoredFunction

/-! ### Sources that are written -/

/-- Whether a stored function leaves out the sources of a function: wherever a path leads, what is
stored is nothing if the source there is that of the function around it, and the source itself if it
is not. -/
def StoredFunction.LeavesOut {σ : Type} (t : StoredFunction) (p : Prototype σ) : Prop :=
  ∀ path, Option.Rel
    (fun s source => (s.record.source.content = none ↔ source = p.sourceAround none path) ∧
      ∀ stored, s.record.source.content = some stored → source = some stored)
    (t.at? path) (p.sourceAt? path)

/-- What is written of a resolved function leaves its sources out. -/
theorem StoredFunction.leavesOut_ofPrototype {p : Prototype Bytes} (h : p.SourcesResolved none) :
    (ofPrototype false (p.elideSources none)).LeavesOut p := by
  intro path
  rw [ofPrototype, at?_mapRecords, Prototype.at?_elideSources, Prototype.sourceAt?]
  cases hs : p.at? path with
  | none => exact .none
  | some s =>
    have hnone := (h.of_at?_sourceAround hs).record.2
    have hcontent (around : Option Bytes) :
        (mapRecords (StoredRecord.ofRecord false)
          (Prototype.elideSources s around)).record.source.content =
            if s.record.source = around then none else s.record.source := by
      rw [record_mapRecords]
      exact Prototype.source_elideSources s around
    refine .some ?_
    rw [hcontent]
    -- a source is left out exactly if it is the one around
    by_cases heq : s.record.source = p.sourceAround none path
    · simp [heq]
    · rw [if_neg heq]
      -- an absent source is that of the function around it
      exact ⟨iff_of_false (fun habsent => heq (habsent.trans (hnone habsent).symm)) heq,
        fun _ => id⟩

/-! ### Chunks that load -/

section Loaded

variable {options : LoadOptions} {table : StringTable} {name : String} {bs : Bytes}
  {c : Closure StringHandle}

/-- A closure that was loaded is that of any chunk that is laid out at the start of the buffer. -/
theorem contents_eq_of_load (h : (load options table name bs).outcome = .ok c) {chunk : StoredChunk}
    (hfits : (Form.chunk options.maxDepth).Fits chunk) (hbegins : chunk.bytes <+: bs) :
    c.contents = options.keep chunk.closure := by
  obtain ⟨rest, rfl⟩ := hbegins
  have hload := outcome_load_append options table name hfits rest
  rw [h, Except.ok.injEq] at hload
  rw [hload, Closure.contents_map_handle]

/-- Its sources are those of the chunk, whether or not debug information was kept. -/
theorem sourceAt?_of_load (h : (load options table name bs).outcome = .ok c) {chunk : StoredChunk}
    (hfits : (Form.chunk options.maxDepth).Fits chunk) (hbegins : chunk.bytes <+: bs)
    -- sources hold no strings of the table
    (path : List Nat) : c.prototype.sourceAt? path = chunk.closure.prototype.sourceAt? path := by
  have hcontents : c.contents.prototype.sourceAt? path = c.prototype.sourceAt? path :=
    c.prototype.sourceAt?_map _ path
  rw [← hcontents, contents_eq_of_load h hfits hbegins]
  exact options.keep_cases chunk.closure rfl (chunk.closure.prototype.sourceAt?_dropDebug path)

/-- Each source of a closure that was loaded is the nearest one in the chunk. -/
theorem nearestSource_of_load (h : (load options table name bs).outcome = .ok c)
    {chunk : StoredChunk} (hfits : (Form.chunk options.maxDepth).Fits chunk)
    (hbegins : chunk.bytes <+: bs) {path : List Nat} {source : Option Bytes}
    (hsource : c.prototype.sourceAt? path = some source) :
    chunk.main.NearestSource none path source := by
  have hnearest := chunk.main.nearestSource_prototype none path
  rw [sourceAt?_of_load h hfits hbegins] at hsource
  rw [show (chunk.main.prototype none).sourceAt? path = _ from hsource] at hnearest
  generalize chunk.main.at? path = s at hnearest
  cases hnearest with
  | some hnearest => exact hnearest

/-- The chunk that is written of a closure that was loaded leaves its sources out. -/
theorem leavesOut_of_dump (h : (load options table name bs).outcome = .ok c) {dumped : Bytes}
    (hdump : dump c.contents false = .ok dumped) :
    (∃ chunk : StoredChunk, chunk.Fits ∧ chunk.bytes = dumped) ∧
      ∀ chunk : StoredChunk, chunk.Fits → chunk.bytes = dumped →
        chunk.main.LeavesOut c.prototype := by
  have hwell : c.contents.WellFormed := (storable_of_load h).wellFormed_of_dump hdump
  have hbytes := bytes_ofClosure_of_dump (hwell.writable.stored false) hdump
  have hfits := hwell.fits_ofClosure false
  -- the chunk that the writer lays out is one; it remains that there is no other
  refine ⟨⟨_, hfits, hbytes⟩, fun chunk hchunk heq => ?_⟩
  -- no other chunk is laid out in these bytes
  rw [StoredChunk.bytes_inj hchunk hfits (heq.trans hbytes.symm)]
  intro path
  have hleaves := StoredFunction.leavesOut_ofPrototype hwell.sources path
  rwa [Closure.contents, Closure.map, Prototype.sourceAround_map, Prototype.sourceAt?_map]
    at hleaves

end Loaded

/-- Wherever a path leads in a closure that was loaded, the source is that of the nearest record
along the path that stores one that is not empty, and none if there is no such record. Two chunks
that store the same sources along a path have the same source at its end, whatever they store
anywhere else. A dump of the closure leaves the sources out that are those of the function around,
and stores all others. -/
theorem sources_of_load (options : LoadOptions) (table : StringTable) (name : String) (bs : Bytes)
    (c : Closure StringHandle) (hload : (load options table name bs).outcome = .ok c) :
    (∃ chunk, (Form.chunk options.maxDepth).Fits chunk ∧ chunk.bytes <+: bs) ∧
    (∀ chunk, (Form.chunk options.maxDepth).Fits chunk → chunk.bytes <+: bs →
      (∀ path, Option.Rel (fun _ source => chunk.main.NearestSource none path source)
        (chunk.main.at? path) (c.prototype.sourceAt? path)) ∧
      ∀ (options' : LoadOptions) table' name' bs' c' chunk',
        (load options' table' name' bs').outcome = .ok c' →
        (Form.chunk options'.maxDepth).Fits chunk' → chunk'.bytes <+: bs' →
        ∀ path source source', c.prototype.sourceAt? path = some source →
          c'.prototype.sourceAt? path = some source' →
          (∀ front, front <+: path →
            chunk.main.storedSource front = chunk'.main.storedSource front) →
          source = source') ∧
    (bs.length < 2 ^ 31 → ∃ dumped, dump c.contents false = .ok dumped) ∧
    ∀ dumped, dump c.contents false = .ok dumped →
      (∃ chunk : StoredChunk, chunk.Fits ∧ chunk.bytes = dumped) ∧
      ∀ chunk : StoredChunk, chunk.Fits → chunk.bytes = dumped →
        chunk.main.LeavesOut c.prototype := by
  refine ⟨?_, fun chunk hfits hbegins => ⟨?_, ?_⟩, fun hlen => ?_, fun dumped hdump => ?_⟩
  -- a chunk that loads is laid out in the buffer
  · obtain ⟨chunk, hfits, -, hbegins⟩ := exists_chunk_of_load hload
    exact ⟨chunk, hfits, hbegins⟩
  · intro path
    rw [sourceAt?_of_load hload hfits hbegins]
    exact chunk.main.nearestSource_prototype none path
  -- both sources are nearest ones, along paths that agree
  · intro options' table' name' bs' c' chunk' hload' hfits' hbegins' path source source' hsource
      hsource' hpath
    exact (nearestSource_of_load hload hfits hbegins hsource).unique
      (nearestSource_of_load hload' hfits' hbegins' hsource') hpath
  -- a closure that was loaded can be written
  · exact ⟨_, dump_eq_ok (wellFormed_of_load hlen hload).writable false⟩
  · exact leavesOut_of_dump hload hdump

/-- A record that stores a source and nothing else. -/
def StoredRecord.ofSource (source : StoredString) : StoredRecord where
  source
  lineDefined := 0
  lastLineDefined := 0
  numParams := 0
  isVararg := 0
  maxStackSize := 2
  code := []
  constants := []
  upvalues := []
  lineInfo := []
  locals := []
  upvalueNames := []

/-- A function without a source, one with a source of its own and one with an empty source, each
inside the one before; beside the last, one that goes back to the source of the main function. -/
def StoredChunk.nestedSources : StoredChunk where
  upvalueCount := 0
  main := .node (.ofSource ⟨some [0x40, 0x61], false⟩)
    [.node (.ofSource ⟨none, false⟩)
      [.node (.ofSource ⟨some [0x40, 0x62], true⟩)
        [.node (.ofSource ⟨some [], false⟩) [],
          .node (.ofSource ⟨some [0x40, 0x61], false⟩) []]]]

/-- Three levels of sources, one of them empty, loaded and written again. -/
theorem sources_of_load_nested :
    let table := StringTable.empty 0
    let chunk := StoredChunk.nestedSources
    let c := chunk.closure.map (table.internAll chunk.strings).handle
    (load {} table "nested" chunk.bytes).outcome = .ok c ∧
      (Form.chunk 200).Fits chunk ∧ chunk.bytes.length < 2 ^ 31 ∧
      c.prototype.sourceAt? [0] = some (some [0x40, 0x61]) ∧
      c.prototype.sourceAt? [0, 0, 0] = some (some [0x40, 0x62]) ∧
      c.prototype.sourceAt? [0, 0, 1] = some (some [0x40, 0x61]) ∧
      Option.Rel (fun _ source => chunk.main.NearestSource none [0, 0, 0] source)
        (chunk.main.at? [0, 0, 0]) (c.prototype.sourceAt? [0, 0, 0]) ∧
      ∃ dumped, dump c.contents false = .ok dumped ∧
        ∃ written : StoredChunk, written.bytes = dumped ∧ written.main.LeavesOut c.prototype := by
  intro table chunk c
  have hfits : (Form.chunk 200).Fits chunk := by decide
  have hlen : chunk.bytes.length < 2 ^ 31 := by decide +kernel
  have hload : (load {} table "nested" chunk.bytes).outcome = .ok c := by
    have h := outcome_load_append {} table "nested" hfits []
    rwa [List.append_nil] at h
  obtain ⟨-, hsources, hdump, hwritten⟩ := sources_of_load {} table "nested" chunk.bytes c hload
  obtain ⟨dumped, hdumped⟩ := hdump hlen
  obtain ⟨⟨written, hfits', hbytes⟩, hleaves⟩ := hwritten dumped hdumped
  exact ⟨hload, hfits, hlen, rfl, rfl, rfl,
    (hsources chunk hfits (List.prefix_refl _)).1 [0, 0, 0],
    dumped, hdumped, written, hbytes, hleaves written hfits' hbytes⟩

end LuaChunk
