import Mathlib.Data.List.DropRight
import EmbeddedScript.Proofs.Heap.Generations

/-!
# The collector's books

Five counters say how many objects there are: the heap counts its live objects and the
allocations since the last collection, and the statistics count what was marked, freed and
left by the last collection, and what all collections freed. Each is moved where it is
convenient – two ways of placing an object, a marking pass, a sweep – and none is ever
compared with another.

Two facts hold them together. **A marking pass counts the marks it sets**, so the sweep
after it leaves as many objects as were marked (`Heap.Faithful.collect_counts`). And every
edit of a heap moves the objects live and the objects freed in all by as many as it hands
out (`Heap.Faithful.balance_edit`), so over a whole history **what was allocated is live or
was freed** (`Heap.allocations_eq`).
-/

namespace EmbeddedScript

namespace Heap

variable {heap heap' : Heap} {limit most : Nat} {h : Handle} {e : Edit} {es : List Edit}
  {stats : GcStats} {roots : RootSet}

/-! ## Counting marks -/

/-- The number of objects that are marked. -/
def countMarked (heap : Heap) : Nat :=
  heap.slots.countP fun s => s.occupant.isSome && s.marked

/-- Clearing marks empties no slot. -/
theorem occupied_unmarkAll (heap : Heap) : heap.unmarkAll.occupied = heap.occupied := by
  show (heap.slots.map _).countP _ = _
  rw [Array.countP_map]
  rfl

/-- After the marks are cleared there are none to count. -/
theorem countMarked_unmarkAll (heap : Heap) : heap.unmarkAll.countMarked = 0 := by
  show (heap.slots.map _).countP _ = 0
  rw [Array.countP_map, Array.countP_eq_zero]
  intro s _
  simp

/-- Marking an object sets one mark. -/
theorem countMarked_of_mark? (hm : heap.mark? h = some heap') :
    heap'.countMarked = heap.countMarked + 1 := by
  obtain ⟨hlive, rfl⟩ := isLive_of_mark? hm
  obtain ⟨a, ha⟩ := Option.isSome_iff_exists.1 hlive
  obtain ⟨s, hs, -, hsa⟩ := occupant?_eq_some_iff.1 ha
  -- the object was not marked before, or it could not be marked now
  have hunmarked : s.marked = false := by
    by_contra hmarked
    simp_all [mark?, canMark, slot?, Slot.isGarbage]
  have hcount := countP_modify hs (fun s => { s with marked := true })
    (fun s => s.occupant.isSome && s.marked)
  simp only [hsa, hunmarked, Option.isSome_some, Bool.and_true, Bool.and_false, if_true] at hcount
  exact hcount

/-- **A marking pass counts the marks it sets.** -/
theorem marked_markFrom (heap : Heap) (pending : List Handle) :
    (heap.markFrom pending).marked + heap.countMarked
      = (heap.markFrom pending).heap.countMarked := by
  induction heap, pending using markFrom.induct with
  | case1 heap =>
    rw [markFrom_nil]
    exact Nat.zero_add _
  | case2 heap h rest hnone ih =>
    rw [markFrom_cons_of_none hnone]
    exact ih
  | case3 heap h rest heap' hsome ih =>
    rw [markFrom_cons_of_some hsome, ← ih, countMarked_of_mark? hsome]
    show _ + 1 + heap.countMarked = _
    omega

/-- A sweep leaves the objects that are marked. -/
theorem occupied_sweep (heap : Heap) : heap.sweep.2.occupied = heap.countMarked := by
  show (heap.slots.map _).countP _ = _
  rw [Array.countP_map]
  refine congrArg (Array.countP · heap.slots) (funext fun s => ?_)
  cases ho : s.occupant <;> cases hm : s.marked <;>
    simp [Slot.isGarbage, Slot.swept, ho, hm]

/-- What a sweep hands back and what it leaves are what there was. -/
theorem length_sweep_add_occupied (heap : Heap) :
    heap.sweep.1.length + heap.sweep.2.occupied = heap.occupied := by
  have hcount := length_garbage_add_countP heap.slots.toList
  rw [← Array.toList_map, Array.countP_toList, Array.countP_toList] at hcount
  exact hcount

/-! ## One collection -/

/-- **What a collection says of itself**: what was marked and what was freed are what was
live before, and what was marked is what is live afterwards. -/
structure Counts (heap : Heap) (roots : RootSet) (stats : GcStats) : Prop where
  /-- What was marked and what was freed make up what was live before. -/
  before : (heap.collect roots stats).2.2.marked + (heap.collect roots stats).2.2.freed
    = heap.live
  /-- What was marked is live after the sweep. -/
  after : (heap.collect roots stats).2.2.marked = (heap.collect roots stats).2.1.live
  /-- As many are said to be live. -/
  live : (heap.collect roots stats).2.2.live = (heap.collect roots stats).2.1.live
  /-- As many are said to be freed as are handed back. -/
  freed : (heap.collect roots stats).2.2.freed = (heap.collect roots stats).1.length

/-- **Every collection counts right** in a heap that is true to its slots. -/
theorem Faithful.counts (hf : heap.Faithful limit most) (roots : RootSet) (stats : GcStats) :
    heap.Counts roots stats := by
  have hmarked := marked_markFrom heap.unmarkAll roots.handles
  rw [countMarked_unmarkAll, Nat.add_zero] at hmarked
  have hafter : (heap.collect roots stats).2.2.marked = (heap.collect roots stats).2.1.live := by
    rw [(hf.collect roots stats).live_eq]
    exact hmarked.trans (occupied_sweep _).symm
  refine ⟨?_, hafter, rfl, rfl⟩
  have hoccupied : (heap.unmarkAll.markFrom roots.handles).heap.occupied = heap.occupied := by
    rw [← occupied_unmarkAll, unmarkAll_markFrom, occupied_unmarkAll, occupied_unmarkAll]
  have hsum := length_sweep_add_occupied (heap.unmarkAll.markFrom roots.handles).heap
  rw [hoccupied] at hsum
  rw [hafter, (hf.collect roots stats).live_eq, hf.live_eq, Nat.add_comm]
  exact hsum

/-! ## Histories with statistics -/

/-- The statistics after an edit: a collection goes on from those there were. -/
def statsAfter (heap : Heap) (stats : GcStats) : Edit → GcStats
  | .collect roots _ => (heap.collect roots stats).2.2
  | _ => stats

/-- **The statistics after some edits**, in order. -/
def tally (heap : Heap) (stats : GcStats) : List Edit → GcStats
  | [] => stats
  | e :: es => (heap.edit e).tally (heap.statsAfter stats e) es

/-- The statistics that a history makes of a new heap. -/
def tallied (limit : Nat) (es : List Edit) : GcStats :=
  ({ limit := limit } : Heap).tally {} es

/-- **The number of objects that were allocated** by some edits; an allocation that fails
does not count. -/
def allocations (heap : Heap) (es : List Edit) : Nat := (heap.handed es).length

/-- The edit is a collection. -/
def Edit.isCollection : Edit → Bool
  | .collect .. => true
  | _ => false

/-- The edits up to the last collection. -/
def Edit.upToLast (es : List Edit) : List Edit := es.rdropWhile (!·.isCollection)

/-- **The edits since the last collection.** -/
def Edit.sinceLast (es : List Edit) : List Edit := es.rtakeWhile (!·.isCollection)

theorem tally_append (heap : Heap) (stats : GcStats) (es es' : List Edit) :
    heap.tally stats (es ++ es') = (heap.edits es).tally (heap.tally stats es) es' := by
  induction es generalizing heap stats with
  | nil => rfl
  | cons e es ih => exact ih (heap.edit e) (heap.statsAfter stats e)

theorem tallied_append (limit : Nat) (es : List Edit) (e : Edit) :
    tallied limit (es ++ [e]) = (made limit es).statsAfter (tallied limit es) e :=
  tally_append _ _ es [e]

theorem allocations_append (heap : Heap) (es es' : List Edit) :
    heap.allocations (es ++ es') = heap.allocations es + (heap.edits es).allocations es' := by
  unfold allocations
  induction es generalizing heap with
  | nil => exact (Nat.zero_add _).symm
  | cons e es ih =>
    show ((heap.handle? e).toList ++ (heap.edit e).handed (es ++ es')).length
      = ((heap.handle? e).toList ++ (heap.edit e).handed es).length + _
    rw [List.length_append, List.length_append, ih, Nat.add_assoc]
    rfl

/-! ## What one edit does to the counters -/

/-- **An allocation** counts when the heap takes the object, and otherwise does nothing. -/
theorem edit_allocate_cases (heap : Heap) (o : HeapObject) :
    (heap.edit (.allocate o) = heap ∧ heap.allocations [.allocate o] = 0)
      ∨ (heap.edit (.allocate o) = (heap.place o).2 ∧ heap.allocations [.allocate o] = 1) := by
  have hhanded : heap.handed [.allocate o]
      = ((heap.allocate o).toOption.map (·.1)).toList := List.append_nil _
  unfold allocations
  rw [hhanded]
  cases ha : heap.allocate o with
  | error err => exact .inl ⟨edit_allocate_of_error ha, rfl⟩
  | ok r =>
    obtain ⟨-, rfl⟩ := allocate_eq_ok_iff.1 ha
    exact .inr ⟨edit_allocate_of_ok ha, rfl⟩

/-- **An edit moves the objects live and the objects freed in all** by what it allocates. -/
theorem Faithful.balance_edit (hf : heap.Faithful limit most) (stats : GcStats) (e : Edit) :
    (heap.edit e).live + (heap.statsAfter stats e).freedInAll
      = heap.live + stats.freedInAll + heap.allocations [e] := by
  cases e with
  | allocate o =>
    show _ + stats.freedInAll = _
    rcases edit_allocate_cases heap o with ⟨hedit, hcount⟩ | ⟨hedit, hcount⟩
    · rw [hedit, hcount, Nat.add_zero]
    · rw [hedit, hcount, live_place]
      omega
  | store h o =>
    show (heap.put h o).live + _ = _
    rw [live_put]
    rfl
  | collect roots stats' =>
    -- what is freed goes from the objects live to those freed in all
    have hcounts := hf.counts roots stats
    have hbefore := hcounts.before
    rw [hcounts.after, hcounts.freed] at hbefore
    show (heap.collect roots stats).2.1.live
      + (stats.freedInAll + (heap.collect roots stats).1.length) = _ + _ + 0
    omega

/-- The number of the next birth goes on with what is allocated. -/
theorem births_edit (heap : Heap) (e : Edit) :
    (heap.edit e).births = heap.births + heap.allocations [e] := by
  cases e with
  | allocate o =>
    rcases edit_allocate_cases heap o with ⟨hedit, hcount⟩ | ⟨hedit, hcount⟩
    · rw [hedit, hcount, Nat.add_zero]
    · rw [hedit, hcount, births_place]
  | store h o => exact births_put heap h o
  | collect roots stats => exact births_collect heap roots stats

/-- Placing counts as an allocation. -/
theorem sinceCollection_place (heap : Heap) (o : HeapObject) :
    (heap.place o).2.sinceCollection = heap.sinceCollection + 1 := by
  unfold place
  split <;> rfl

/-- Storing does not. -/
theorem sinceCollection_put (heap : Heap) (h : Handle) (o : HeapObject) :
    (heap.put h o).sinceCollection = heap.sinceCollection := by
  unfold put
  split <;> rfl

/-- A collection keeps to the limit that there is. -/
theorem limit_collect (heap : Heap) (roots : RootSet) (stats : GcStats) :
    (heap.collect roots stats).2.1.limit = heap.limit := by
  have hsame := congrArg Heap.limit (unmarkAll_markFrom heap.unmarkAll roots.handles)
  exact hsame

/-- A collection makes nothing live. -/
theorem live_collect_le (heap : Heap) (roots : RootSet) (stats : GcStats) :
    (heap.collect roots stats).2.1.live ≤ heap.live := by
  have hsame := congrArg Heap.live (unmarkAll_markFrom heap.unmarkAll roots.handles)
  exact Nat.le_trans (Nat.sub_le _ _) (Nat.le_of_eq hsame)

/-- **An edit adds what it allocates to the count since the last collection**, unless it is
one. -/
theorem sinceCollection_edit (he : e.isCollection = false) :
    (heap.edit e).sinceCollection = heap.sinceCollection + heap.allocations [e] := by
  cases e with
  | allocate o =>
    rcases edit_allocate_cases heap o with ⟨hedit, hcount⟩ | ⟨hedit, hcount⟩
    · rw [hedit, hcount, Nat.add_zero]
    · rw [hedit, hcount, sinceCollection_place]
  | store h o => exact sinceCollection_put heap h o
  | collect roots stats => exact Bool.noConfusion he

/-! ## Whole histories -/

/-- **What was allocated is live or was freed.** -/
theorem allocations_eq (limit : Nat) (es : List Edit) :
    (made limit []).allocations es = (made limit es).live + (tallied limit es).freedInAll := by
  induction es using List.reverseRecOn with
  | nil => rfl
  | append_singleton es e ih =>
    rw [allocations_append, ih, made_append, tallied_append,
      (faithful_made limit es).balance_edit]
    rfl

/-- So many objects were born. -/
theorem births_eq (limit : Nat) (es : List Edit) :
    (made limit es).births = (made limit []).allocations es := by
  induction es using List.reverseRecOn with
  | nil => rfl
  | append_singleton es e ih =>
    rw [allocations_append, ← ih, made_append, births_edit]
    rfl

/-- The edits up to the last collection and those since it are all of them. -/
theorem made_upToLast (limit : Nat) (es : List Edit) :
    (made limit (Edit.upToLast es)).edits (Edit.sinceLast es) = made limit es := by
  have happend : Edit.upToLast es ++ Edit.sinceLast es = es := List.rdropWhile_append_rtakeWhile
  unfold made edits
  rw [← List.foldl_append, happend]

/-- **The heap counts the allocations since the last collection.** -/
theorem sinceCollection_eq (limit : Nat) (es : List Edit) :
    (made limit es).sinceCollection
      = (made limit (Edit.upToLast es)).allocations (Edit.sinceLast es) := by
  induction es using List.reverseRecOn with
  | nil => rfl
  | append_singleton es e ih =>
    cases he : e.isCollection with
    | true =>
      have hsince : Edit.sinceLast (es ++ [e]) = [] :=
        List.rtakeWhile_concat_neg _ _ _ (by simp [he])
      rw [hsince, made_append]
      cases e with
      | collect roots stats => rfl
      | _ => exact Bool.noConfusion he
    | false =>
      have hsince : Edit.sinceLast (es ++ [e]) = Edit.sinceLast es ++ [e] :=
        List.rtakeWhile_concat_pos _ _ _ (by simp [he])
      have hupTo : Edit.upToLast (es ++ [e]) = Edit.upToLast es :=
        List.rdropWhile_concat_pos _ _ _ (by simp [he])
      rw [hsince, hupTo, allocations_append, made_upToLast, ← ih, made_append,
        sinceCollection_edit he]

end Heap

end EmbeddedScript
