import Mathlib.Data.List.Nodup
import EmbeddedScript.Heap.Collection
import EmbeddedScript.Proofs.Heap.Occupants

/-!
# What survives a collection

A collection frees what its marking pass did not reach. Here it is shown that the
pass reaches everything it ought to: the live objects among the starts
(`Heap.survives_of_start`) and, with an object, the live targets of its edges
(`Heap.survives_of_edge`). So **whatever is reachable survives**
(`Heap.occupant?_collect_of_reaches`), as the same occupant with the same
contents, and what a survivor refers to survives with it.

Marking changes nothing but marks, which is said by clearing them: two heaps that
agree once their marks are cleared have the same occupants and the same free
list.
-/

namespace EmbeddedScript

namespace Heap

variable {heap heap' : Heap} {h k : Handle} {a : Occupant}

/-! ## Marks -/

/-- The handle denotes an object that is marked. -/
def isMarked (heap : Heap) (h : Handle) : Bool :=
  (heap.slot? h).any fun s => s.occupant.isSome && s.marked

/-- Clearing the marks moves no occupant. -/
@[simp] theorem occupant?_unmarkAll (heap : Heap) (h : Handle) :
    heap.unmarkAll.occupant? h = heap.occupant? h := by
  cases hs : heap.slots[h.index]? with
  | none => simp [occupant?, slot?, unmarkAll, hs]
  | some s =>
    by_cases hg : s.generation = h.generation <;>
      simp [occupant?, slot?, unmarkAll, hs, Option.filter, hg]

/-- After the marks are cleared nothing is marked. -/
theorem isMarked_unmarkAll (heap : Heap) (h : Handle) : heap.unmarkAll.isMarked h = false := by
  cases hs : heap.slots[h.index]? with
  | none => simp [isMarked, slot?, unmarkAll, hs]
  | some s =>
    by_cases hg : s.generation = h.generation <;>
      simp [isMarked, slot?, unmarkAll, hs, Option.filter, hg]

/-- Whether a heap is well formed does not depend on its marks. -/
theorem wellFormed_unmarkAll : heap.unmarkAll.WellFormed ↔ heap.WellFormed := by
  have hempty : ∀ i : Nat,
      (∃ s : Slot, heap.unmarkAll.slots[i]? = some s ∧ s.occupant = none)
        ↔ ∃ s : Slot, heap.slots[i]? = some s ∧ s.occupant = none := fun i => by
    cases hs : heap.slots[i]? with
    | none => simp [unmarkAll, hs]
    | some s => simp [unmarkAll, hs]
  exact ⟨fun hw => ⟨hw.nodup, fun i => (hw.mem_free i).trans (hempty i)⟩,
    fun hw => ⟨hw.nodup, fun i => (hw.mem_free i).trans (hempty i).symm⟩⟩

/-- Heaps that differ in their marks have the same occupants. -/
theorem occupant?_eq_of_unmarkAll_eq (he : heap'.unmarkAll = heap.unmarkAll) (h : Handle) :
    heap'.occupant? h = heap.occupant? h := by
  rw [← occupant?_unmarkAll heap', he, occupant?_unmarkAll]

/-- Heaps that differ in their marks have the same edges. -/
theorem edgesAt_eq_of_unmarkAll_eq (he : heap'.unmarkAll = heap.unmarkAll) (h : Handle) :
    heap'.edgesAt h = heap.edgesAt h := by
  rw [edgesAt, get?, occupant?_eq_of_unmarkAll_eq he, edgesAt, get?]

/-- Marking a slot changes a mark only. -/
theorem unmarkAll_markSlot (heap : Heap) (i : Nat) :
    (heap.markSlot i).unmarkAll = heap.unmarkAll := by
  have hslots : (heap.slots.modify i fun s => { s with marked := true }).map
        (fun s => { s with marked := false })
      = heap.slots.map fun s => { s with marked := false } := by
    refine Array.ext_getElem? (fun j => ?_)
    by_cases hj : i = j
    · cases hs : heap.slots[j]? with
      | none => simp [Array.getElem?_modify, hj, hs]
      | some s => simp [Array.getElem?_modify, hj, hs]
    · simp [Array.getElem?_modify, hj]
  simp [unmarkAll, markSlot, hslots]

/-- Marking a slot marks what a handle to it denotes. -/
theorem isMarked_markSlot_self (heap : Heap) (h : Handle) :
    (heap.markSlot h.index).isMarked h = heap.isLive h := by
  cases hs : heap.slots[h.index]? with
  | none => simp [isMarked, isLive, occupant?, slot?, markSlot, Array.getElem?_modify, hs]
  | some s =>
    by_cases hg : s.generation = h.generation <;>
      simp [isMarked, isLive, occupant?, slot?, markSlot, Array.getElem?_modify, hs,
        Option.filter, hg]

/-- Marking a slot unmarks nothing, and marks nothing at another index. -/
theorem isMarked_markSlot (heap : Heap) (i : Nat) (k : Handle) :
    (heap.markSlot i).isMarked k =
      if i = k.index then heap.isLive k else heap.isMarked k := by
  by_cases hi : i = k.index
  · rw [if_pos hi, hi, isMarked_markSlot_self]
  · simp [isMarked, slot?, markSlot, Array.getElem?_modify, hi]

/-- What is marked is live. -/
theorem isLive_of_isMarked (hm : heap.isMarked h = true) : heap.isLive h = true := by
  obtain ⟨s, hs, ho, -⟩ : ∃ s, heap.slot? h = some s ∧ s.occupant.isSome = true
      ∧ s.marked = true := by
    simpa [isMarked, Option.any_eq_true] using hm
  simpa [isLive, occupant?, hs] using ho

/-- Marking a live object marks it and nothing else. -/
theorem isMarked_markSlot_iff (hl : heap.isLive h = true) :
    (heap.markSlot h.index).isMarked k = true ↔ k = h ∨ heap.isMarked k = true := by
  rw [isMarked_markSlot]
  split
  next hi =>
    refine ⟨fun hk => .inl ?_, ?_⟩
    · obtain ⟨a, ha⟩ := Option.isSome_iff_exists.1 hl
      obtain ⟨b, hb⟩ := Option.isSome_iff_exists.1 hk
      exact (eq_of_index_eq ha hb hi).symm
    · rintro (rfl | hk)
      · exact hl
      · exact isLive_of_isMarked hk
  next hi => exact (or_iff_right fun heq : k = h => hi (heq ▸ rfl)).symm

/-- A live object that cannot be marked is marked already. -/
theorem isMarked_of_mark?_eq_none (hm : heap.mark? h = none) (hl : heap.isLive h = true) :
    heap.isMarked h = true := by
  obtain ⟨a, ha⟩ := Option.isSome_iff_exists.1 hl
  obtain ⟨s, hs, ho⟩ := Option.bind_eq_some_iff.1 ha
  simpa [mark?, canMark, isMarked, hs, Slot.isGarbage, ho] using hm

/-- A handle that can be marked denotes a live object. -/
theorem isLive_of_mark? (hm : heap.mark? h = some heap') :
    heap.isLive h = true ∧ heap' = heap.markSlot h.index := by
  unfold mark? at hm
  split at hm
  case isFalse => simp at hm
  case isTrue hc =>
    obtain ⟨s, hs, hg⟩ : ∃ s, heap.slot? h = some s ∧ s.isGarbage = true := by
      simpa [canMark, Option.any_eq_true] using hc
    obtain ⟨ho, -⟩ : s.occupant.isSome = true ∧ s.marked = false := by
      simpa [Slot.isGarbage] using hg
    exact ⟨by simpa [isLive, occupant?, hs] using ho, by simpa using hm.symm⟩

/-- A handle that can be marked denotes an object without a mark. -/
theorem isMarked_of_mark?_eq_some (hm : heap.mark? h = some heap') : heap.isMarked h = false := by
  unfold mark? at hm
  split at hm
  case isFalse => simp at hm
  case isTrue hc =>
    obtain ⟨s, hs, hg⟩ : ∃ s, heap.slot? h = some s ∧ s.isGarbage = true := by
      simpa [canMark, Option.any_eq_true] using hc
    obtain ⟨-, hmark⟩ : s.occupant.isSome = true ∧ s.marked = false := by
      simpa [Slot.isGarbage] using hg
    simp [isMarked, hs, hmark]

/-! ## A marking pass -/

/-- A pass over nothing leaves the heap as it is. -/
theorem markFrom_nil (heap : Heap) : heap.markFrom [] = ⟨heap, 0, 0⟩ := by
  rw [markFrom]

/-- A handle that cannot be marked is passed over. -/
theorem markFrom_cons_of_none {rest : List Handle} (hm : heap.mark? h = none) :
    heap.markFrom (h :: rest) =
      { heap.markFrom rest with visits := (heap.markFrom rest).visits + 1 } := by
  rw [markFrom]
  split
  · rfl
  · simp_all

/-- Marking an object makes its edges pending. -/
theorem markFrom_cons_of_some {rest : List Handle} (hm : heap.mark? h = some heap') :
    heap.markFrom (h :: rest) =
      ⟨(heap'.markFrom (heap'.edgesAt h ++ rest)).heap,
        (heap'.markFrom (heap'.edgesAt h ++ rest)).marked + 1,
        (heap'.markFrom (heap'.edgesAt h ++ rest)).visits + 1⟩ := by
  rw [markFrom]
  split
  · simp_all
  · next heap'' hm' =>
    obtain rfl : heap' = heap'' := by simpa [hm] using hm'
    rfl

/-- A marking pass changes marks only. -/
theorem unmarkAll_markFrom (heap : Heap) (pending : List Handle) :
    (heap.markFrom pending).heap.unmarkAll = heap.unmarkAll := by
  induction heap, pending using markFrom.induct with
  | case1 heap => rw [markFrom_nil]
  | case2 heap h rest hm ih => rw [markFrom_cons_of_none hm, ih]
  | case3 heap h rest heap' hm ih =>
    rw [markFrom_cons_of_some hm, ih, (isLive_of_mark? hm).2, unmarkAll_markSlot]

/-- **A marking pass is closed**: it keeps every mark, marks the live objects among
the pending handles, and with each object that it marks the live targets of the
object's edges. -/
theorem markFrom_closed (heap : Heap) (pending : List Handle) :
    (∀ k, heap.isMarked k = true → (heap.markFrom pending).heap.isMarked k = true)
      ∧ (∀ k ∈ pending, heap.isLive k = true →
          (heap.markFrom pending).heap.isMarked k = true)
      ∧ ∀ k, (heap.markFrom pending).heap.isMarked k = true → heap.isMarked k = false →
          ∀ t ∈ heap.edgesAt k, heap.isLive t = true →
            (heap.markFrom pending).heap.isMarked t = true := by
  induction heap, pending using markFrom.induct with
  | case1 heap =>
    rw [markFrom_nil]
    exact ⟨fun k hk => hk, by simp, fun k hk hn => absurd hk (by simp [hn])⟩
  | case2 heap h rest hm ih =>
    obtain ⟨hkeep, hpending, hedges⟩ := ih
    rw [markFrom_cons_of_none hm]
    refine ⟨hkeep, fun k hk hl => ?_, hedges⟩
    rcases List.mem_cons.1 hk with rfl | hk
    · exact hkeep k (isMarked_of_mark?_eq_none hm hl)
    · exact hpending k hk hl
  | case3 heap h rest heap' hm ih =>
    obtain ⟨hkeep, hpending, hedges⟩ := ih
    rw [markFrom_cons_of_some hm]
    obtain ⟨hlive, heq⟩ := isLive_of_mark? hm
    -- the marked heap has the occupants and the edges of the heap before
    have hsame : heap'.unmarkAll = heap.unmarkAll := by rw [heq, unmarkAll_markSlot]
    have hl : ∀ k, heap'.isLive k = heap.isLive k := fun k => by
      rw [isLive, occupant?_eq_of_unmarkAll_eq hsame, isLive]
    have hmarked : ∀ k, heap'.isMarked k = true ↔ k = h ∨ heap.isMarked k = true := fun k =>
      heq ▸ isMarked_markSlot_iff hlive
    have hself : heap'.isMarked h = true := (hmarked h).2 (.inl rfl)
    have hmono : ∀ k, heap.isMarked k = true → heap'.isMarked k = true := fun k hk =>
      (hmarked k).2 (.inr hk)
    refine ⟨fun k hk => hkeep k (hmono k hk), fun k hk hlk => ?_, fun k hk hn t ht hlt => ?_⟩
    · rcases List.mem_cons.1 hk with rfl | hk
      · exact hkeep k hself
      · exact hpending k (List.mem_append_right _ hk) (by rw [hl, hlk])
    · by_cases hmk : heap'.isMarked k = true
      · -- the object marked in this step: its edges have become pending
        obtain rfl := ((hmarked k).1 hmk).resolve_right (Bool.eq_false_iff.1 hn)
        refine hpending t (List.mem_append_left _ ?_) (by rw [hl, hlt])
        rwa [edgesAt_eq_of_unmarkAll_eq hsame]
      · exact hedges k hk (by simpa using hmk) t
          (by rwa [edgesAt_eq_of_unmarkAll_eq hsame]) (by rw [hl, hlt])

/-! ## Sweeping -/

/-- **Sweeping frees what is not marked** and moves nothing else. -/
theorem occupant?_sweep (heap : Heap) (h : Handle) :
    heap.sweep.2.occupant? h = if heap.isMarked h then heap.occupant? h else none := by
  cases hs : heap.slots[h.index]? with
  | none => simp [sweep, isMarked, occupant?, slot?, hs]
  | some s =>
    have hslot : heap.sweep.2.slots[h.index]? = some (if s.isGarbage then s.swept else s) := by
      simp [sweep, hs]
    have hswept : s.swept.occupant = none := rfl
    cases ho : s.occupant with
    | none =>
      by_cases hg : s.generation = h.generation <;>
        simp [isMarked, occupant?, slot?, hslot, hs, Option.filter, hg, ho, Slot.isGarbage]
    | some a =>
      cases hm : s.marked with
      | false =>
        have hswept' : heap.sweep.2.occupant? h = none := by
          simp [occupant?, slot?, hslot, Slot.isGarbage, ho, hm, Option.filter, hswept]
        by_cases hg : s.generation = h.generation <;>
          simp [hswept', isMarked, slot?, hs, Option.filter, hg, ho, hm]
      | true =>
        by_cases hg : s.generation = h.generation <;>
          simp [isMarked, occupant?, slot?, hslot, hs, Option.filter, hg, ho, hm, Slot.isGarbage]

/-- The indices that a sweep frees are those of the occupied slots without a mark. -/
theorem mem_garbageIndices {i : Nat} :
    i ∈ heap.garbageIndices ↔ ∃ s, heap.slots[i]? = some s ∧ s.isGarbage = true := by
  simp only [garbageIndices, List.mem_filter, List.mem_range, Option.any_eq_true]
  refine ⟨fun h => h.2, fun h => ⟨?_, h⟩⟩
  obtain ⟨s, hs, -⟩ := h
  exact (Array.getElem?_eq_some_iff.1 hs).1

/-- Sweeping puts the indices of the slots that it empties on the free list. -/
theorem WellFormed.sweep (hw : heap.WellFormed) : heap.sweep.2.WellFormed := by
  refine ⟨?_, fun i => ?_⟩
  · refine List.nodup_append.2 ⟨List.nodup_reverse.2 ?_, hw.nodup, fun i hi j hj => ?_⟩
    · exact List.Nodup.filter _ List.nodup_range
    · rintro rfl
      obtain ⟨s, hs, hg⟩ := mem_garbageIndices.1 (List.mem_reverse.1 hi)
      obtain ⟨t, ht, hempty⟩ := (hw.mem_free i).1 hj
      obtain rfl : s = t := by simpa [hs] using ht
      simp [Slot.isGarbage, hempty] at hg
  · have hfree := hw.mem_free i
    cases hs : heap.slots[i]? with
    | none => simp [Heap.sweep, mem_garbageIndices, hfree, hs]
    | some s =>
      cases hg : s.isGarbage with
      | true => simp [Heap.sweep, mem_garbageIndices, hs, hg, Slot.swept]
      | false => simp [Heap.sweep, mem_garbageIndices, hfree, hs, hg]

/-! ## A collection -/

/-- **What a handle can be reached from**: some starts, through the edges of live
objects. -/
inductive Reaches (heap : Heap) (starts : List Handle) : Handle → Prop
  /-- A live object among the starts. -/
  | start {h : Handle} : h ∈ starts → heap.isLive h = true → Reaches heap starts h
  /-- A live object to which one that is reached refers. -/
  | edge {h k : Handle} : Reaches heap starts h → k ∈ heap.edgesAt h →
      heap.isLive k = true → Reaches heap starts k

/-- Reaching grows with the starts. -/
theorem Reaches.mono {starts starts' : List Handle} (hsub : starts ⊆ starts')
    (hr : heap.Reaches starts h) : heap.Reaches starts' h := by
  induction hr with
  | start hm hl => exact .start (hsub hm) hl
  | edge _ he hl ih => exact ih.edge he hl

/-- What is reached is live. -/
theorem Reaches.isLive {starts : List Handle} (hr : heap.Reaches starts h) :
    heap.isLive h = true := by
  cases hr with
  | start _ hl => exact hl
  | edge _ _ hl => exact hl

/-- **The object survives a collection** from these roots. -/
def survives (heap : Heap) (roots : RootSet) (h : Handle) : Bool :=
  (heap.unmarkAll.markFrom roots.handles).heap.isMarked h

/-- The live objects among the rooted handles survive. -/
theorem survives_of_start {roots : RootSet} (hm : h ∈ roots.handles)
    (hl : heap.isLive h = true) : heap.survives roots h = true :=
  (markFrom_closed heap.unmarkAll roots.handles).2.1 h hm
    (by rw [Heap.isLive, occupant?_unmarkAll, ← Heap.isLive, hl])

/-- The live targets of a survivor's edges survive. -/
theorem survives_of_edge {roots : RootSet} (hs : heap.survives roots h = true)
    (he : k ∈ heap.edgesAt h) (hl : heap.isLive k = true) : heap.survives roots k = true := by
  refine (markFrom_closed heap.unmarkAll roots.handles).2.2 h hs (isMarked_unmarkAll heap h) k
    ?_ (by rw [Heap.isLive, occupant?_unmarkAll, ← Heap.isLive, hl])
  rwa [edgesAt, get?, occupant?_unmarkAll, ← get?, ← edgesAt]

/-- Whatever is reachable from the roots survives. -/
theorem Reaches.survives {roots : RootSet} (hr : heap.Reaches roots.handles h) :
    heap.survives roots h = true := by
  induction hr with
  | start hm hl => exact survives_of_start hm hl
  | edge _ he hl ih => exact survives_of_edge ih he hl

/-- **A collection frees exactly what does not survive it**; a survivor stays the
occupant that it was, contents and all. -/
theorem occupant?_collect (heap : Heap) (roots : RootSet) (stats : GcStats) (h : Handle) :
    (heap.collect roots stats).2.1.occupant? h =
      if heap.survives roots h then heap.occupant? h else none := by
  have hmarked := unmarkAll_markFrom heap.unmarkAll roots.handles
  rw [Heap.collect, occupant?_sweep, occupant?_eq_of_unmarkAll_eq hmarked, occupant?_unmarkAll]
  rfl

/-- **Whatever is reachable stays what it is.** -/
theorem occupant?_collect_of_reaches {roots : RootSet} (stats : GcStats)
    (hr : heap.Reaches roots.handles h) :
    (heap.collect roots stats).2.1.occupant? h = heap.occupant? h := by
  rw [occupant?_collect, if_pos hr.survives]

/-- A collection keeps the free list true to the slots. -/
theorem WellFormed.collect (hw : heap.WellFormed) (roots : RootSet) (stats : GcStats) :
    (heap.collect roots stats).2.1.WellFormed := by
  refine WellFormed.sweep (wellFormed_unmarkAll.1 ?_)
  rw [unmarkAll_markFrom, wellFormed_unmarkAll, wellFormed_unmarkAll]
  exact hw

end Heap

end EmbeddedScript
