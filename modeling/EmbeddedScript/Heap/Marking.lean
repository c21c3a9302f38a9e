import EmbeddedScript.Heap.Basic

/-!
# Marking

Marking visits a list of pending handles. A handle that denotes an unmarked
object marks it and puts the object's edges before the handles still pending; a
stale handle, or one whose object is marked already, is passed over.

The pass ends because the work left – the handles pending and the edges of the
objects not yet marked – is one less after each visit: marking an object only
turns its edges from the latter into the former (`Heap.work_of_mark?`).
-/

namespace EmbeddedScript

namespace Slot

/-- The slot holds an object that the current collection has not reached. -/
def isGarbage (s : Slot) : Bool := s.occupant.isSome && !s.marked

/-- The edges that marking the slot's object will add to the pending handles. -/
def work (s : Slot) : Nat :=
  if s.isGarbage then (s.occupant.map (·.object.edges.length)).getD 0 else 0

end Slot

namespace Heap

/-- The number of edges of the objects not yet marked. -/
def work (heap : Heap) : Nat := heap.slots.toList.foldr (fun s rest => s.work + rest) 0

/-- Clear every mark. -/
def unmarkAll (heap : Heap) : Heap :=
  { heap with slots := heap.slots.map fun s => { s with marked := false } }

/-- The handle denotes an object that is not marked yet. -/
def canMark (heap : Heap) (h : Handle) : Bool := (heap.slot? h).any Slot.isGarbage

/-- The heap with a slot marked. -/
def markSlot (heap : Heap) (index : Nat) : Heap :=
  { heap with slots := heap.slots.modify index fun s => { s with marked := true } }

/-- **Mark one handle**: the marked heap, or nothing when the handle is stale or
its object is marked already. -/
def mark? (heap : Heap) (h : Handle) : Option Heap :=
  if heap.canMark h then some (heap.markSlot h.index) else none

/-- The edges of the object that a handle denotes. -/
def edgesAt (heap : Heap) (h : Handle) : List Handle :=
  ((heap.get? h).map HeapObject.edges).getD []

/-- Changing one entry of a list changes a sum over it by the difference there. -/
theorem foldr_add_modify {α : Type} {l : List α} {i : Nat} {a : α} (ha : l[i]? = some a)
    (f : α → α) (g : α → Nat) :
    (l.modify i f).foldr (fun b rest => g b + rest) 0 + g a =
      l.foldr (fun b rest => g b + rest) 0 + g (f a) := by
  induction l generalizing i with
  | nil => simp at ha
  | cons b l ih =>
    cases i with
    | zero =>
      obtain rfl : b = a := by simpa using ha
      simp only [List.modify_zero_cons, List.foldr_cons]
      omega
    | succ i =>
      have := ih (i := i) (by simpa using ha)
      simp only [List.modify_succ_cons, List.foldr_cons]
      omega

/-- **Marking an object turns its edges into pending handles.** -/
theorem work_of_mark? {heap heap' : Heap} {h : Handle} (hm : heap.mark? h = some heap') :
    heap'.work + (heap'.edgesAt h).length = heap.work := by
  unfold mark? at hm
  split at hm
  case isFalse => simp at hm
  case isTrue hc =>
    obtain rfl : heap.markSlot h.index = heap' := by simpa using hm
    obtain ⟨s, hs, hg⟩ : ∃ s, heap.slot? h = some s ∧ s.isGarbage = true := by
      simpa [canMark, Option.any_eq_true] using hc
    obtain ⟨hat, hgen⟩ := Option.filter_eq_some_iff.1 hs
    have hat' : heap.slots.toList[h.index]? = some s := by simpa using hat
    have hsum := foldr_add_modify hat' (fun s => { s with marked := true }) Slot.work
    have hslot : (heap.markSlot h.index).slot? h = some { s with marked := true } := by
      simpa [slot?, markSlot, Array.getElem?_modify, hat] using hgen
    have hedges : ((heap.markSlot h.index).edgesAt h).length = s.work := by
      obtain ⟨hs, -⟩ : s.occupant.isSome = true ∧ s.marked = false := by
        simpa [Slot.isGarbage] using hg
      obtain ⟨o, ho⟩ := Option.isSome_iff_exists.1 hs
      simp [edgesAt, get?, occupant?, hslot, ho, Slot.work, hg]
    have hmarked : Slot.work { s with marked := true } = 0 := by
      simp [Slot.work, Slot.isGarbage]
    rw [hedges]
    simpa [work, markSlot, hmarked] using hsum

/-- **The outcome of a marking pass.** -/
structure Marking where
  /-- The heap with everything that was reached marked. -/
  heap : Heap
  /-- The number of objects marked by the pass. -/
  marked : Nat
  /-- The number of handles the pass looked at. -/
  visits : Nat

/-- **Mark everything reachable from the pending handles.** -/
def markFrom (heap : Heap) (pending : List Handle) : Marking :=
  match pending with
  | [] => ⟨heap, 0, 0⟩
  | h :: rest =>
    match hm : heap.mark? h with
    | none =>
      let m := markFrom heap rest
      ⟨m.heap, m.marked, m.visits + 1⟩
    | some heap' =>
      let m := markFrom heap' (heap'.edgesAt h ++ rest)
      ⟨m.heap, m.marked + 1, m.visits + 1⟩
termination_by heap.work + pending.length
decreasing_by
  · simp
  · have := work_of_mark? hm
    simp only [List.length_append, List.length_cons]
    omega

end Heap

end EmbeddedScript
