import Mathlib.Data.Set.Card
import EmbeddedScript.Proofs.Heap.Generations

/-!
# A collection is exact

That whatever is reachable survives is one half of what a collector promises. The other
half is that nothing else does, and it is a fact about the worklist: **what a marking pass
marks was marked before or is reachable from what was pending** (`Heap.marked_or_reaches`).
A handle gets onto the list only as a root or as an edge of an object that was marked, and
a stale one marks nothing.

So to survive is to be reachable (`Heap.survives_iff_reaches`), and the rest is read off
the sweep: the slots it empties hold just the objects that are out of reach, and it hands
these objects back in the order of their slots. Neither half asks anything of the heap, the
roots or the marks that an earlier collection may have left.
-/

namespace EmbeddedScript

namespace Heap

variable {heap heap' : Heap} {starts starts' : List Handle} {h k : Handle} {i : Nat}
  {limit most : Nat}

/-! ## Reaching -/

/-- Reaching goes on from what is reached. -/
theorem Reaches.trans (hs : ∀ h ∈ starts', heap.isLive h = true → heap.Reaches starts h)
    (hr : heap.Reaches starts' k) : heap.Reaches starts k := by
  induction hr with
  | start hm hl => exact hs _ hm hl
  | edge _ he hl ih => exact ih.edge he hl

/-- What is reached does not depend on the marks. -/
theorem Reaches.of_unmarkAll_eq (he : heap'.unmarkAll = heap.unmarkAll)
    (hr : heap'.Reaches starts k) : heap.Reaches starts k := by
  have hlive : ∀ h, heap'.isLive h = true → heap.isLive h = true := fun h hl => by
    rwa [Heap.isLive, occupant?_eq_of_unmarkAll_eq he] at hl
  induction hr with
  | start hm hl => exact .start hm (hlive _ hl)
  | edge _ hedge hl ih =>
    rw [edgesAt_eq_of_unmarkAll_eq he] at hedge
    exact ih.edge hedge (hlive _ hl)

/-- Clearing the marks twice is clearing them. -/
theorem unmarkAll_unmarkAll (heap : Heap) : heap.unmarkAll.unmarkAll = heap.unmarkAll := by
  unfold unmarkAll
  rw [Array.map_map]
  rfl

/-- **A marking pass marks only what is reachable** from the pending handles. -/
theorem marked_or_reaches (heap : Heap) (pending : List Handle)
    (hm : (heap.markFrom pending).heap.isMarked k = true) :
    heap.isMarked k = true ∨ heap.Reaches pending k := by
  induction heap, pending using markFrom.induct with
  | case1 heap =>
    rw [markFrom_nil] at hm
    exact .inl hm
  | case2 heap h rest hnone ih =>
    rw [markFrom_cons_of_none hnone] at hm
    exact (ih hm).imp_right (Reaches.mono (List.subset_cons_self h rest))
  | case3 heap h rest heap' hsome ih =>
    rw [markFrom_cons_of_some hsome] at hm
    obtain ⟨hlive, heq⟩ := isLive_of_mark? hsome
    have hsame : heap'.unmarkAll = heap.unmarkAll := by rw [heq, unmarkAll_markSlot]
    have hself : heap.Reaches (h :: rest) h := .start List.mem_cons_self hlive
    rcases ih hm with hbefore | hreached
    · rw [heq, isMarked_markSlot_iff hlive] at hbefore
      rcases hbefore with rfl | hbefore
      · exact .inr hself
      · exact .inl hbefore
    · -- what became pending is an edge of the object that was marked
      refine .inr (Reaches.trans (fun t ht hl => ?_) (hreached.of_unmarkAll_eq hsame))
      rw [edgesAt_eq_of_unmarkAll_eq hsame] at ht
      rcases List.mem_append.1 ht with hedge | hrest
      · exact hself.edge hedge hl
      · exact .start (List.mem_cons_of_mem h hrest) hl

/-- **To survive is to be reachable** from a rooted handle. -/
theorem survives_iff_reaches {roots : RootSet} :
    heap.survives roots h = true ↔ heap.Reaches roots.handles h := by
  constructor
  · intro hs
    rcases marked_or_reaches heap.unmarkAll roots.handles hs with hbefore | hreached
    · rw [isMarked_unmarkAll] at hbefore
      exact Bool.noConfusion hbefore
    · exact hreached.of_unmarkAll_eq (unmarkAll_unmarkAll heap)
  · exact Reaches.survives

/-! ## What a sweep hands back -/

/-- The object in the slot of an index. -/
def objectAt? (heap : Heap) (i : Nat) : Option HeapObject :=
  heap.slots[i]?.bind fun s => s.occupant.map (·.object)

/-- Which objects are in the slots does not depend on the marks. -/
theorem objectAt?_unmarkAll (heap : Heap) (i : Nat) :
    heap.unmarkAll.objectAt? i = heap.objectAt? i := by
  unfold objectAt? unmarkAll
  rw [Array.getElem?_map]
  cases heap.slots[i]? <;> rfl

/-- A slot hands back the object it holds, if that is garbage. -/
theorem garbage?_eq (s : Slot) :
    s.garbage? = if s.isGarbage then s.occupant.map (·.object) else none := by
  cases ho : s.occupant <;> cases hm : s.marked <;>
    simp [Slot.garbage?, Slot.isGarbage, ho, hm]

/-- The indices of the slots to sweep ascend. -/
theorem pairwise_garbageIndices (heap : Heap) : heap.garbageIndices.Pairwise (· < ·) :=
  List.Pairwise.filter _ List.pairwise_lt_range

/-- The slots, one after another, are those at the indices. -/
theorem map_some_slots (heap : Heap) :
    heap.slots.toList.map some = (List.range heap.slots.size).map (heap.slots[·]?) := by
  refine List.ext_getElem? fun i => ?_
  rw [List.getElem?_map, List.getElem?_map, Array.getElem?_toList]
  by_cases hi : i < heap.slots.size
  · rw [List.getElem?_range hi, Array.getElem?_eq_getElem hi]
    simp [hi]
  · simp [hi]

/-- **A sweep hands back the objects of the slots that it empties**, slot by slot. -/
theorem sweep_fst (heap : Heap) :
    heap.sweep.1.map some = heap.garbageIndices.map heap.objectAt? := by
  have hindex : ∀ i, (heap.slots[i]?.bind Slot.garbage?).map some
      = if heap.slots[i]?.any Slot.isGarbage then some (heap.objectAt? i) else none := fun i => by
    unfold objectAt?
    cases heap.slots[i]? with
    | none => rfl
    | some s =>
      show s.garbage?.map some = if s.isGarbage then some (s.occupant.map _) else none
      rw [garbage?_eq]
      cases hs : s.isGarbage with
      | true =>
        obtain ⟨a, ha⟩ : ∃ a, s.occupant = some a := by
          rw [Slot.isGarbage, Bool.and_eq_true] at hs
          exact Option.isSome_iff_exists.1 hs.1
        rw [ha]
        rfl
      | false => rfl
  calc heap.sweep.1.map some
      = (heap.slots.toList.map some).filterMap fun s => (s.bind Slot.garbage?).map some := by
        show (heap.slots.toList.filterMap Slot.garbage?).map some = _
        rw [List.map_filterMap, List.filterMap_map]
        rfl
    _ = (List.range heap.slots.size).filterMap fun i =>
          (heap.slots[i]?.bind Slot.garbage?).map some := by
        rw [map_some_slots, List.filterMap_map]
        rfl
    _ = heap.garbageIndices.map heap.objectAt? := by
        unfold garbageIndices
        rw [← List.filterMap_eq_filter, List.map_filterMap]
        refine List.filterMap_congr fun i _ => ?_
        rw [hindex, Option.guard]
        split <;> rfl

/-! ## Counting what is live -/

/-- There are as many indices of occupied slots as occupied slots. -/
theorem length_filter_isOccupied (heap : Heap) :
    ((List.range heap.slots.size).filter heap.isOccupied).length = heap.occupied := by
  calc ((List.range heap.slots.size).filter heap.isOccupied).length
      = ((List.range heap.slots.size).map (heap.slots[·]?)).countP
          (·.any (·.occupant.isSome)) := by
        rw [← List.countP_eq_length_filter, List.countP_map]
        rfl
    _ = heap.occupied := by
        rw [← map_some_slots, List.countP_map, occupied, ← Array.countP_toList]
        rfl

/-- **As many objects are live as there are handles to live objects**: of each there is one. -/
theorem Faithful.live_eq_ncard (hf : heap.Faithful limit most) :
    heap.live = {h | heap.isLive h = true}.ncard := by
  have hindices : Handle.index '' {h | heap.isLive h = true}
      = ((List.range heap.slots.size).filter heap.isOccupied).toFinset := by
    ext i
    simp only [Set.mem_image, Set.mem_ofPred_eq, List.coe_toFinset, List.mem_filter,
      List.mem_range]
    constructor
    · rintro ⟨h, hl, rfl⟩
      obtain ⟨ho, -⟩ := isLive_iff.1 hl
      refine ⟨?_, ho⟩
      by_contra hle
      simp [isOccupied, Array.getElem?_eq_none (Nat.le_of_not_lt hle)] at ho
    · rintro ⟨-, ho⟩
      exact ⟨⟨i, heap.generationAt i⟩, isLive_iff.2 ⟨ho, rfl⟩, rfl⟩
  have hinj : Set.InjOn Handle.index {h | heap.isLive h = true} := fun h hh k hk hi => by
    obtain ⟨a, ha⟩ := Option.isSome_iff_exists.1 hh
    obtain ⟨b, hb⟩ := Option.isSome_iff_exists.1 hk
    exact eq_of_index_eq ha hb hi
  rw [← hinj.ncard_image, hindices, Set.ncard_coe_finset,
    List.toFinset_card_of_nodup (List.nodup_range.filter _), length_filter_isOccupied, hf.live_eq]

/-! ## A collection -/

/-- A slot holds an object when a handle to it is live. -/
theorem isOccupied_iff_exists :
    heap.isOccupied i = true ↔ ∃ g, heap.isLive ⟨i, g⟩ = true := by
  simp only [isLive_iff]
  exact ⟨fun ho => ⟨_, ho, rfl⟩, fun ⟨_, ho, _⟩ => ho⟩

/-- The slots to sweep are those with a live handle whose object is not marked. -/
theorem mem_garbageIndices_iff_exists :
    i ∈ heap.garbageIndices
      ↔ ∃ g, heap.isLive ⟨i, g⟩ = true ∧ heap.isMarked ⟨i, g⟩ = false := by
  rw [mem_garbageIndices]
  constructor
  · rintro ⟨s, hs, hg⟩
    obtain ⟨ho, hm⟩ : s.occupant.isSome = true ∧ s.marked = false := by
      simpa [Slot.isGarbage] using hg
    exact ⟨s.generation, by simpa [Heap.isLive, occupant?, slot?, hs, Option.filter] using ho,
      by simp [isMarked, slot?, hs, Option.filter, hm]⟩
  · rintro ⟨g, hl, hm⟩
    obtain ⟨a, ha⟩ := Option.isSome_iff_exists.1 hl
    obtain ⟨s, hs, rfl, hsa⟩ := occupant?_eq_some_iff.1 ha
    refine ⟨s, hs, ?_⟩
    simpa [isMarked, slot?, hs, Option.filter, Slot.isGarbage, hsa] using hm

variable {roots : RootSet} {stats : GcStats}

/-- **What is live after a collection** is what a rooted handle reaches. -/
theorem isLive_collect :
    (heap.collect roots stats).2.1.isLive h = true ↔ heap.Reaches roots.handles h := by
  rw [Heap.isLive, occupant?_collect, ← survives_iff_reaches]
  split
  case isTrue hs =>
    exact iff_of_true (survives_iff_reaches.1 hs).isLive hs
  case isFalse hs => exact iff_of_false Bool.false_ne_true hs

/-- **As many objects are live after a collection as rooted handles reach.** -/
theorem Faithful.live_collect (hf : heap.Faithful limit most) (roots : RootSet)
    (stats : GcStats) :
    (heap.collect roots stats).2.1.live = {h | heap.Reaches roots.handles h}.ncard := by
  rw [(hf.collect roots stats).live_eq_ncard]
  simp only [isLive_collect]

/-- **The slots that a collection empties**, in order. -/
def unreached (heap : Heap) (roots : RootSet) : List Nat :=
  (heap.unmarkAll.markFrom roots.handles).heap.garbageIndices

/-- The slots that a collection empties are those with a live handle that nothing rooted
reaches. -/
theorem mem_unreached :
    i ∈ heap.unreached roots
      ↔ ∃ g, heap.isLive ⟨i, g⟩ = true ∧ ¬ heap.Reaches roots.handles ⟨i, g⟩ := by
  have hsame := unmarkAll_markFrom heap.unmarkAll roots.handles
  have hlive : ∀ h, (heap.unmarkAll.markFrom roots.handles).heap.isLive h = heap.isLive h :=
    fun h => by
      rw [Heap.isLive, occupant?_eq_of_unmarkAll_eq hsame, occupant?_unmarkAll, Heap.isLive]
  rw [unreached, mem_garbageIndices_iff_exists]
  refine exists_congr fun g => and_congr (by rw [hlive]) ?_
  rw [← survives_iff_reaches, Bool.not_eq_true]
  rfl

/-- A collection frees the slots that it empties. -/
theorem frees_collect (stats : GcStats) :
    heap.frees i (.collect roots stats) = true ↔ i ∈ heap.unreached roots := by
  show (heap.isOccupied i && !(heap.collect roots stats).2.1.isOccupied i) = true ↔ _
  rw [Bool.and_eq_true, Bool.not_eq_true', ← Bool.not_eq_true, isOccupied_iff_exists,
    isOccupied_iff_exists, mem_unreached]
  simp only [isLive_collect]
  constructor
  · rintro ⟨⟨g, hl⟩, hnone⟩
    exact ⟨g, hl, fun hr => hnone ⟨g, hr⟩⟩
  · rintro ⟨g, hl, hn⟩
    refine ⟨⟨g, hl⟩, fun ⟨g', hr⟩ => hn ?_⟩
    -- the slot has one generation at which a handle to it is live
    obtain ⟨a, ha⟩ := Option.isSome_iff_exists.1 hl
    obtain ⟨b, hb⟩ := Option.isSome_iff_exists.1 hr.isLive
    rw [eq_of_index_eq ha hb rfl]
    exact hr

/-- A collection hands back the objects of the slots that it empties. -/
theorem collect_fst :
    (heap.collect roots stats).1.map some = (heap.unreached roots).map heap.objectAt? := by
  have hsame := unmarkAll_markFrom heap.unmarkAll roots.handles
  have hobject : ∀ i, (heap.unmarkAll.markFrom roots.handles).heap.objectAt? i
      = heap.objectAt? i := fun i => by
    rw [← objectAt?_unmarkAll, hsame, objectAt?_unmarkAll, objectAt?_unmarkAll]
  show (heap.unmarkAll.markFrom roots.handles).heap.sweep.1.map some = _
  rw [sweep_fst, funext hobject]
  rfl

/-- A collection moves the slots on that it empties. -/
theorem generationAt_collect (heap : Heap) (roots : RootSet) (stats : GcStats) (i : Nat) :
    (heap.collect roots stats).2.1.generationAt i
      = if i ∈ heap.unreached roots then heap.generationAt i + 1 else heap.generationAt i := by
  have hgeneration := generationAt_edit heap (.collect roots stats) i
  split
  case isTrue hi =>
    rw [(frees_collect stats).2 hi] at hgeneration
    exact hgeneration
  case isFalse hi =>
    rw [← frees_collect stats, Bool.not_eq_true] at hi
    rw [hi] at hgeneration
    exact hgeneration.trans (UInt32.add_zero _)

/-- **A collection is exact.** Whatever the heap and the roots, the handles that are live
after a collection are those that were live and that a rooted handle reaches through the
edges of live objects, and each of them denotes the object that it denoted before, kind and
contents and all. The slots of the other objects are freed: the collection hands back their
objects, each once and in the order of the slots, and moves these slots on by one
generation, modulo `2 ^ 32`, and no others. -/
theorem collect_exact (heap : Heap) (roots : RootSet) (stats : GcStats) :
    (∀ h, (heap.collect roots stats).2.1.isLive h = true
        ↔ heap.isLive h = true ∧ heap.Reaches roots.handles h)
      ∧ (∀ h, heap.Reaches roots.handles h →
          (heap.collect roots stats).2.1.occupant? h = heap.occupant? h)
      ∧ ∃ freed : List Nat, freed.Pairwise (· < ·)
        ∧ (∀ i, i ∈ freed
            ↔ ∃ g, heap.isLive ⟨i, g⟩ = true ∧ ¬ heap.Reaches roots.handles ⟨i, g⟩)
        ∧ (heap.collect roots stats).1.map some = freed.map heap.objectAt?
        ∧ ∀ i, (heap.collect roots stats).2.1.generationAt i
            = if i ∈ freed then heap.generationAt i + 1 else heap.generationAt i := by
  refine ⟨fun h => ?_, fun h hr => ?_, heap.unreached roots, pairwise_garbageIndices _,
    fun i => mem_unreached, collect_fst, generationAt_collect heap roots stats⟩
  · rw [isLive_collect]
    exact ⟨fun hr => ⟨hr.isLive, hr⟩, And.right⟩
  · rw [occupant?_collect, if_pos (survives_iff_reaches.2 hr)]

end Heap

end EmbeddedScript
