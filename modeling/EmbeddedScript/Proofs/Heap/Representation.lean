import EmbeddedScript.Proofs.World.Step

/-!
# What a heap keeps in step

A heap says four times over how full it is: by its occupied slots, by its list of free
ones, by a counter, and by the size of its table. Nothing recomputes the one from the
other; allocation and sweeping each move all four. That they stay in step –
`Heap.Faithful` – is what keeps a slot from being handed out twice and from being lost.

**The table is as large as the heap was ever full.** That is no property of a heap but
of its history, so a heap is looked at together with the edits that led to it: a slot is
added only when every slot is occupied, and then the new object makes the heap fuller
than it ever was.
-/

namespace EmbeddedScript

namespace Heap

variable {heap heap' : Heap} {limit most : Nat} {o : HeapObject} {h : Handle} {s : Slot}

/-! ## Histories -/

/-- **One edit of a heap.** -/
inductive Edit where
  /-- Allocate an object. -/
  | allocate (o : HeapObject)
  /-- Change the object that a handle denotes. -/
  | store (h : Handle) (o : HeapObject)
  /-- Collect, with these roots. -/
  | collect (roots : RootSet) (stats : GcStats)

/-- The heap after an edit. An allocation that fails leaves the heap as it is. -/
def edit (heap : Heap) : Edit → Heap
  | .allocate o =>
    match heap.allocate o with
    | .ok (_, heap) => heap
    | .error _ => heap
  | .store h o => heap.put h o
  | .collect roots stats => (heap.collect roots stats).2.1

/-- **The heap after some edits**, in order. -/
def edits (heap : Heap) (es : List Edit) : Heap := es.foldl edit heap

/-- **How full the heap was at most** while it was edited: the largest number of live
objects before the first edit, after the last one, and in between. -/
def peak (heap : Heap) : List Edit → Nat
  | [] => heap.live
  | e :: es => max heap.live ((heap.edit e).peak es)

/-- The number of occupied slots. -/
def occupied (heap : Heap) : Nat := heap.slots.countP (·.occupant.isSome)

/-- **The heap is true to its slots**: after a history in which it was at most so full,
the free list, the counter and the table say the same of it. -/
structure Faithful (heap : Heap) (limit most : Nat) : Prop where
  /-- The free list is true to the slots. -/
  wellFormed : heap.WellFormed
  /-- The counter counts the occupied slots. -/
  live_eq : heap.live = heap.occupied
  /-- The limit is what it was. -/
  limit_eq : heap.limit = limit
  /-- The limit, if there is one, is kept. -/
  live_le : 0 < limit → heap.live ≤ limit
  /-- The table is as large as the heap was ever full. -/
  size_eq : heap.slots.size = most
  /-- Every slot can be named by a handle. -/
  size_le : heap.slots.size ≤ indexBound

/-- **The object was put into a slot that was empty or new**, and no other slot was
changed. -/
structure Placed (heap : Heap) (o : HeapObject) (h : Handle) (heap' : Heap) : Prop where
  /-- A handle can name the slot. -/
  index_lt : h.index < indexBound
  /-- The slot was empty at the handle's generation, or there was none. -/
  vacant : (∃ s, heap.slots[h.index]? = some s ∧ s.occupant = none
      ∧ s.generation = h.generation)
    ∨ (heap.slots.size = h.index ∧ h.generation = 0)
  /-- The slot holds the object. -/
  slot : heap'.slots[h.index]? = some ⟨h.generation, false, some ⟨heap.births, o⟩⟩
  /-- Every other slot has the object and the generation that it had. -/
  frame : ∀ j, j ≠ h.index → heap'.slots[j]? = heap.slots[j]?

/-! ## Counting -/

/-- There are no more occupied slots than slots. -/
theorem occupied_le_size (heap : Heap) : heap.occupied ≤ heap.slots.size :=
  Array.countP_le_size

/-- **No slot is free exactly when every slot is occupied.** -/
theorem WellFormed.free_eq_nil_iff (hw : heap.WellFormed) :
    heap.free = [] ↔ heap.occupied = heap.slots.size := by
  rw [occupied, Array.countP_eq_size]
  constructor
  · intro hf s hs
    obtain ⟨i, hi⟩ := Array.getElem?_of_mem hs
    rw [← Option.ne_none_iff_isSome]
    intro hn
    have hmem : i ∈ heap.free := (hw.mem_free i).2 ⟨s, hi, hn⟩
    rw [hf] at hmem
    exact List.not_mem_nil hmem
  · intro hall
    rw [List.eq_nil_iff_forall_not_mem]
    intro i hi
    obtain ⟨s, hs, hn⟩ := (hw.mem_free i).1 hi
    have hsome := hall s (Array.mem_of_getElem? hs)
    rw [hn] at hsome
    exact Bool.noConfusion hsome

/-- Changing one slot changes the count of occupied slots by the difference there. -/
theorem countP_modify {slots : Array Slot} {i : Nat} (hs : slots[i]? = some s)
    (f : Slot → Slot) (p : Slot → Bool) :
    (slots.modify i f).countP p + (if p s then 1 else 0)
      = slots.countP p + (if p (f s) then 1 else 0) := by
  have hfoldr : ∀ l : List Slot,
      l.countP p = l.foldr (fun s rest => (if p s then 1 else 0) + rest) 0 := by
    intro l
    induction l with
    | nil => rfl
    | cons s l ih => rw [List.countP_cons, List.foldr_cons, ih, Nat.add_comm]
  rw [← Array.countP_toList, ← Array.countP_toList, Array.toList_modify, hfoldr, hfoldr]
  exact foldr_add_modify (by rw [Array.getElem?_toList, hs]) f fun s => if p s then 1 else 0

/-! ## Storing into an object -/

/-- Storing occupies no slot and empties none. -/
theorem occupied_put (heap : Heap) (h : Handle) (o : HeapObject) :
    (heap.put h o).occupied = heap.occupied := by
  unfold put
  split
  case isFalse => rfl
  case isTrue hl =>
    obtain ⟨a, ha⟩ := Option.isSome_iff_exists.1 hl
    obtain ⟨s, hs, -, hsa⟩ := occupant?_eq_some_iff.1 ha
    have hcount := countP_modify hs
      (fun s => { s with occupant := s.occupant.map fun a => { a with object := o } })
      (·.occupant.isSome)
    rw [hsa] at hcount
    exact Nat.add_right_cancel hcount

theorem size_put (heap : Heap) (h : Handle) (o : HeapObject) :
    (heap.put h o).slots.size = heap.slots.size := by
  unfold put
  split
  · exact Array.size_modify
  · rfl

theorem live_put (heap : Heap) (h : Handle) (o : HeapObject) :
    (heap.put h o).live = heap.live := by
  unfold put
  split <;> rfl

theorem limit_put (heap : Heap) (h : Handle) (o : HeapObject) :
    (heap.put h o).limit = heap.limit := by
  unfold put
  split <;> rfl

/-- Storing keeps a heap true to its slots. -/
theorem Faithful.put (hf : heap.Faithful limit most) (h : Handle) (o : HeapObject) :
    (heap.put h o).Faithful limit most where
  wellFormed := hf.wellFormed.put h o
  live_eq := by rw [live_put, occupied_put, hf.live_eq]
  limit_eq := by rw [limit_put, hf.limit_eq]
  live_le := by rw [live_put]; exact hf.live_le
  size_eq := by rw [size_put, hf.size_eq]
  size_le := by rw [size_put]; exact hf.size_le

/-! ## Allocation -/

/-- Placing occupies one slot more. -/
theorem occupied_place (hw : heap.WellFormed) (o : HeapObject) :
    (heap.place o).2.occupied = heap.occupied + 1 := by
  unfold place
  split
  case h_1 index free hfree =>
    obtain ⟨s, hs, hempty⟩ := (hw.mem_free index).1 (by rw [hfree]; exact List.mem_cons_self)
    have hcount := countP_modify hs
      (fun s => { s with marked := false, occupant := some ⟨heap.births, o⟩ })
      (·.occupant.isSome)
    rw [hempty] at hcount
    exact hcount
  case h_2 =>
    unfold occupied
    rw [Array.countP_push]
    rfl

/-- **A slot is added only when every slot is occupied.** -/
theorem size_place (hw : heap.WellFormed) (o : HeapObject) :
    (heap.place o).2.slots.size = max heap.slots.size (heap.occupied + 1) := by
  have hle := heap.occupied_le_size
  have hiff := hw.free_eq_nil_iff
  unfold place
  split
  case h_1 index free hfree =>
    have hne : heap.occupied ≠ heap.slots.size := fun heq => by
      rw [hiff.2 heq] at hfree
      exact absurd hfree.symm (List.cons_ne_nil _ _)
    rw [Array.size_modify]
    omega
  case h_2 hfree =>
    have heq := hiff.1 hfree
    rw [Array.size_push]
    omega

theorem limit_place (heap : Heap) (o : HeapObject) :
    (heap.place o).2.limit = heap.limit := by
  unfold place
  split <;> rfl

/-- **No index is left** to a heap without a free slot and with a full table: every index
that a handle can name is that of an occupied slot. -/
theorem Faithful.no_index_left_iff (hf : heap.Faithful limit most) :
    (heap.free = [] ∧ indexBound ≤ heap.slots.size)
      ↔ ∀ i < indexBound, ∃ s, heap.slots[i]? = some s ∧ s.occupant.isSome = true := by
  constructor
  · rintro ⟨hfree, hsize⟩ i hi
    have hlt : i < heap.slots.size := Nat.lt_of_lt_of_le hi hsize
    refine ⟨heap.slots[i], Array.getElem?_eq_getElem hlt, ?_⟩
    rw [hf.wellFormed.free_eq_nil_iff, occupied, Array.countP_eq_size] at hfree
    exact hfree _ (Array.getElem_mem hlt)
  · intro hall
    refine ⟨List.eq_nil_iff_forall_not_mem.2 fun i hi => ?_, ?_⟩
    · -- a free index is that of an empty slot, and can be named
      obtain ⟨s, hs, hn⟩ := (hf.wellFormed.mem_free i).1 hi
      obtain ⟨hlt, -⟩ := Array.getElem?_eq_some_iff.1 hs
      obtain ⟨t, ht, hsome⟩ := hall i (Nat.lt_of_lt_of_le hlt hf.size_le)
      obtain rfl := Option.some.inj (hs.symm.trans ht)
      rw [hn] at hsome
      exact Bool.noConfusion hsome
    · by_contra hlt
      obtain ⟨s, hs, -⟩ := hall heap.slots.size (Nat.lt_of_not_le hlt)
      obtain ⟨hlt, -⟩ := Array.getElem?_eq_some_iff.1 hs
      exact Nat.lt_irrefl _ hlt

/-- A heap that is at its limit gives the limit as the reason, and one without an index
left gives the largest index. -/
theorem refusal?_eq (heap : Heap) :
    heap.refusal? =
      if 0 < heap.limit ∧ heap.limit ≤ heap.live then some (.heapLimit heap.limit)
      else if heap.free = [] ∧ indexBound ≤ heap.slots.size then
        some (.heapLimit (indexBound - 1))
      else none := by
  unfold refusal?
  simp only [List.isEmpty_iff]

/-- **A heap that refuses an object is as full as the limit that it names.** -/
theorem Faithful.lt_of_refusal (hf : heap.Faithful limit most) {bound n : Nat}
    (hr : heap.refusal? = some (.heapLimit n)) (hl : heap.live < bound) : n < bound := by
  rw [refusal?_eq] at hr
  split at hr
  case isTrue hfull =>
    cases hr
    exact Nat.lt_of_le_of_lt hfull.2 hl
  case isFalse =>
    split at hr
    case isTrue hindex =>
      -- without a free slot every slot is occupied
      rw [hf.wellFormed.free_eq_nil_iff, ← hf.live_eq] at hindex
      cases hr
      omega
    case isFalse => cases hr

/-- So a heap has room that is not as full as its limit and as there are indices. -/
theorem Faithful.refusal?_eq_none (hf : heap.Faithful limit most) {bound : Nat}
    (hl : heap.live < bound) (hlimit : heap.limit = 0 ∨ bound ≤ heap.limit)
    (hindex : bound ≤ indexBound) : heap.refusal? = none := by
  have hfree := hf.wellFormed.free_eq_nil_iff
  rw [← hf.live_eq] at hfree
  rw [refusal?_eq, if_neg (by omega), if_neg (by rw [hfree]; omega)]

/-- Placing an object that the heap does not refuse keeps the heap true to its slots. -/
theorem Faithful.place (hf : heap.Faithful limit most) (hr : heap.refusal? = none)
    (o : HeapObject) : (heap.place o).2.Faithful limit (max most (heap.live + 1)) := by
  rw [refusal?_eq, hf.limit_eq] at hr
  have hroom : ¬ (0 < limit ∧ limit ≤ heap.live) := by
    intro hfull
    rw [if_pos hfull] at hr
    exact nomatch hr
  have hindex : ¬ (heap.free = [] ∧ indexBound ≤ heap.slots.size) := by
    intro hfull
    rw [if_neg hroom, if_pos hfull] at hr
    exact nomatch hr
  refine ⟨hf.wellFormed.place o, ?_, ?_, fun hl => ?_, ?_, ?_⟩
  · rw [live_place, occupied_place hf.wellFormed, hf.live_eq]
  · rw [limit_place, hf.limit_eq]
  · rw [live_place]
    by_contra hlt
    exact hroom ⟨hl, by omega⟩
  · rw [size_place hf.wellFormed, hf.size_eq, hf.live_eq]
  · have hle := hf.size_le
    have hoccupied := heap.occupied_le_size
    rw [hf.wellFormed.free_eq_nil_iff] at hindex
    rw [size_place hf.wellFormed]
    omega

/-- **What placing an object does**: the handle names a slot that was empty at its
generation, or is new, and no other slot changes. -/
theorem Faithful.placed (hf : heap.Faithful limit most) (hr : heap.refusal? = none)
    (o : HeapObject) : heap.Placed o (heap.place o).1 (heap.place o).2 := by
  have hsize := (hf.place hr o).size_le
  unfold Heap.place at hsize ⊢
  split at hsize
  case h_1 index free hfree =>
    obtain ⟨s, hs, hempty⟩ :=
      (hf.wellFormed.mem_free index).1 (by rw [hfree]; exact List.mem_cons_self)
    obtain ⟨hlt, -⟩ := Array.getElem?_eq_some_iff.1 hs
    have hd : heap.slots.getD index default = s := by
      rw [Array.getD_eq_getD_getElem?, hs, Option.getD_some]
    refine ⟨Nat.lt_of_lt_of_le hlt hf.size_le, .inl ⟨s, hs, hempty, by rw [hd]⟩, ?_,
      fun j hj => ?_⟩
    · show (heap.slots.modify index _)[index]? = _
      rw [Array.getElem?_modify, if_pos rfl, hs, hd]
      rfl
    · show (heap.slots.modify index _)[j]? = _
      rw [Array.getElem?_modify, if_neg (Ne.symm hj)]
  case h_2 hfree =>
    rw [Array.size_push] at hsize
    refine ⟨hsize, .inr ⟨rfl, rfl⟩, ?_, fun j hj => ?_⟩
    · show (heap.slots.push _)[heap.slots.size]? = _
      rw [Array.getElem?_push, if_pos rfl]
    · show (heap.slots.push _)[j]? = _
      rw [Array.getElem?_push, if_neg hj]

/-! ## Collection -/

/-- Sweeping some slots empties those with an object to free. -/
theorem length_garbage_add_countP (l : List Slot) :
    (l.filterMap Slot.garbage?).length
        + (l.map fun s => if s.isGarbage then s.swept else s).countP (·.occupant.isSome)
      = l.countP (·.occupant.isSome) := by
  induction l with
  | nil => rfl
  | cons s l ih =>
    rw [List.map_cons, List.countP_cons, List.countP_cons, ← ih]
    cases ho : s.occupant with
    | none =>
      simp [Slot.garbage?, Slot.isGarbage, ho]
    | some a =>
      cases hm : s.marked with
      | true =>
        simp [Slot.garbage?, Slot.isGarbage, ho, hm]
        omega
      | false =>
        simp [Slot.garbage?, Slot.isGarbage, ho, hm, Slot.swept]
        omega

/-- Sweeping keeps a heap true to its slots. -/
theorem Faithful.sweep (hf : heap.Faithful limit most) : heap.sweep.2.Faithful limit most where
  wellFormed := hf.wellFormed.sweep
  live_eq := by
    have hcount := length_garbage_add_countP heap.slots.toList
    show heap.live - _ = (heap.slots.map _).countP _
    rw [hf.live_eq, occupied, ← Array.countP_toList, ← Array.countP_toList, Array.toList_map,
      ← hcount]
    exact Nat.add_sub_cancel_left _ _
  limit_eq := hf.limit_eq
  live_le hl := Nat.le_trans (Nat.sub_le _ _) (hf.live_le hl)
  size_eq := by
    rw [← hf.size_eq]
    exact Array.size_map
  size_le := by
    refine Nat.le_trans (Nat.le_of_eq ?_) hf.size_le
    exact Array.size_map

/-- Whether a heap is true to its slots does not depend on its marks. -/
theorem faithful_unmarkAll :
    heap.unmarkAll.Faithful limit most ↔ heap.Faithful limit most := by
  have hoccupied : heap.unmarkAll.occupied = heap.occupied := by
    show (heap.slots.map _).countP _ = _
    rw [Array.countP_map]
    rfl
  have hsize : heap.unmarkAll.slots.size = heap.slots.size := Array.size_map
  constructor
  · intro hf
    exact ⟨wellFormed_unmarkAll.1 hf.wellFormed, hoccupied ▸ hf.live_eq, hf.limit_eq, hf.live_le,
      hsize ▸ hf.size_eq, hsize ▸ hf.size_le⟩
  · intro hf
    exact ⟨wellFormed_unmarkAll.2 hf.wellFormed, hoccupied ▸ hf.live_eq, hf.limit_eq, hf.live_le,
      hsize ▸ hf.size_eq, hsize ▸ hf.size_le⟩

/-- **A collection keeps a heap true to its slots.** -/
theorem Faithful.collect (hf : heap.Faithful limit most) (roots : RootSet) (stats : GcStats) :
    (heap.collect roots stats).2.1.Faithful limit most := by
  refine Faithful.sweep (faithful_unmarkAll.1 ?_)
  rw [unmarkAll_markFrom, faithful_unmarkAll, faithful_unmarkAll]
  exact hf

/-! ## Whole histories -/

/-- A new heap is true to its slots, of which it has none. -/
theorem Faithful.of_limit (limit : Nat) : ({ limit := limit } : Heap).Faithful limit 0 :=
  ⟨.of_limit limit, rfl, rfl, fun _ => Nat.zero_le _, rfl, Nat.zero_le _⟩

/-- A heap is never fuller than it ever was. -/
theorem Faithful.live_le_most (hf : heap.Faithful limit most) : heap.live ≤ most := by
  rw [hf.live_eq, ← hf.size_eq]
  exact heap.occupied_le_size

/-- A heap is as full as it is before its first edit. -/
theorem live_le_peak (heap : Heap) (es : List Edit) : heap.live ≤ heap.peak es := by
  cases es with
  | nil => exact Nat.le_refl _
  | cons e es => exact Nat.le_max_left _ _

/-- Allocation fails for the reason that the heap has to refuse an object. -/
theorem allocate_eq_error_iff {err : EngineError} :
    heap.allocate o = .error err ↔ heap.refusal? = some err := by
  unfold allocate
  cases heap.refusal? with
  | none => exact iff_of_false nofun nofun
  | some err' => rw [Except.error.injEq, Option.some.injEq]

/-- Allocation places an object that is not refused. -/
theorem allocate_eq_ok_iff {r : Handle × Heap} :
    heap.allocate o = .ok r ↔ heap.refusal? = none ∧ heap.place o = r := by
  unfold allocate
  cases heap.refusal? with
  | none => rw [Except.ok.injEq, eq_self, true_and]
  | some err => exact iff_of_false nofun fun hr => nomatch hr.1

/-- An allocation that fails is no edit. -/
theorem edit_allocate_of_error {err : EngineError} (ha : heap.allocate o = .error err) :
    heap.edit (.allocate o) = heap := by
  simp only [edit, ha]

theorem edit_allocate_of_ok {r : Handle × Heap} (ha : heap.allocate o = .ok r) :
    heap.edit (.allocate o) = r.2 := by
  simp only [edit, ha]

/-- **One edit keeps a heap true to its slots**, and the heap may be fuller after it than
it ever was. -/
theorem Faithful.edit (hf : heap.Faithful limit most) (e : Edit) :
    (heap.edit e).Faithful limit (max most (heap.edit e).live) := by
  have hkept : ∀ {heap' : Heap}, heap'.Faithful limit most →
      heap'.Faithful limit (max most heap'.live) := fun hf' => by
    rw [Nat.max_eq_left hf'.live_le_most]
    exact hf'
  cases e with
  | allocate o =>
    cases ha : heap.allocate o with
    | error err =>
      rw [edit_allocate_of_error ha]
      exact hkept hf
    | ok r =>
      obtain ⟨hr, rfl⟩ := allocate_eq_ok_iff.1 ha
      rw [edit_allocate_of_ok ha, live_place]
      exact hf.place hr o
  | store h o => exact hkept (hf.put h o)
  | collect roots stats => exact hkept (hf.collect roots stats)

/-- **A history keeps a heap true to its slots.** -/
theorem Faithful.edits (hf : heap.Faithful limit most) (es : List Edit) :
    (heap.edits es).Faithful limit (max most (heap.peak es)) := by
  induction es generalizing heap most with
  | nil =>
    show heap.Faithful limit (max most heap.live)
    rw [Nat.max_eq_left hf.live_le_most]
    exact hf
  | cons e es ih =>
    have hmost := hf.live_le_most
    have hnext := (heap.edit e).live_le_peak es
    have hmax : max most (max heap.live ((heap.edit e).peak es))
        = max (max most (heap.edit e).live) ((heap.edit e).peak es) := by omega
    show ((heap.edit e).edits es).Faithful limit _
    unfold Heap.peak
    rw [hmax]
    exact ih (hf.edit e)

/-- **The heap that a history makes of a new one.** -/
def made (limit : Nat) (es : List Edit) : Heap := ({ limit := limit } : Heap).edits es

/-- How full it was at most. -/
def fullest (limit : Nat) (es : List Edit) : Nat := ({ limit := limit } : Heap).peak es

theorem made_append (limit : Nat) (es : List Edit) (e : Edit) :
    made limit (es ++ [e]) = (made limit es).edit e :=
  List.foldl_concat _ _ _ _

/-- **A history keeps a new heap true to its slots.** -/
theorem faithful_made (limit : Nat) (es : List Edit) :
    (made limit es).Faithful limit (fullest limit es) := by
  have hf := (Faithful.of_limit limit).edits es
  rw [Nat.max_eq_right (Nat.zero_le _)] at hf
  exact hf

/-- **However a heap came about**, its free list names the empty slots and each once, its
counter counts the occupied ones and keeps to the limit, and its table is as large as the
heap was ever full. It refuses an object exactly when it is at its limit or no index is
left, and an allocation that fails is no edit. One that succeeds fills a slot that was
empty or new, and leaves every other slot as it was. -/
theorem made_spec (limit : Nat) (es : List Edit) (o : HeapObject) :
    (made limit es).Faithful limit (fullest limit es)
      ∧ ((∃ err, (made limit es).allocate o = .error err)
          ↔ (0 < limit ∧ limit ≤ (made limit es).live)
            ∨ ∀ i < indexBound, ∃ s, (made limit es).slots[i]? = some s
                ∧ s.occupant.isSome = true)
      ∧ (∀ err, (made limit es).allocate o = .error err →
          made limit (es ++ [.allocate o]) = made limit es
            ∧ err = .heapLimit (if 0 < limit ∧ limit ≤ (made limit es).live then limit
                else indexBound - 1))
      ∧ ∀ h heap', (made limit es).allocate o = .ok (h, heap') →
          made limit (es ++ [.allocate o]) = heap' ∧ (made limit es).Placed o h heap' := by
  have hf := faithful_made limit es
  have hrefusal := refusal?_eq (made limit es)
  rw [hf.limit_eq] at hrefusal
  refine ⟨hf, ?_, fun err ha => ⟨?_, ?_⟩, fun h heap' ha => ⟨?_, ?_⟩⟩
  · rw [← hf.no_index_left_iff]
    simp only [allocate_eq_error_iff, hrefusal]
    split
    case isTrue hfull => exact iff_of_true ⟨_, rfl⟩ (.inl hfull)
    case isFalse hfull =>
      split
      case isTrue hindex => exact iff_of_true ⟨_, rfl⟩ (.inr hindex)
      case isFalse hindex => exact iff_of_false nofun (not_or.2 ⟨hfull, hindex⟩)
  · rw [made_append, edit_allocate_of_error ha]
  · rw [allocate_eq_error_iff, hrefusal] at ha
    split at ha
    case isTrue hfull => rw [if_pos hfull, Option.some.inj ha]
    case isFalse hfull =>
      rw [if_neg hfull]
      split at ha
      · exact (Option.some.inj ha).symm
      · exact nomatch ha
  · rw [made_append, edit_allocate_of_ok ha]
  · obtain ⟨hr, hplace⟩ := allocate_eq_ok_iff.1 ha
    have hplaced := hf.placed hr o
    rw [hplace] at hplaced
    exact hplaced

/-- The edits that fill a heap for one object, ask it for a second one, and collect. -/
def Edit.fillAndCollect : List Edit :=
  [.allocate (.plain .empty), .allocate (.array #[]), .collect {} {}]

/-- Once the object was collected, its slot is filled again, at the next generation. The
table has one slot, as the second object was refused. -/
theorem made_spec_refilled :
    (made 1 Edit.fillAndCollect).Faithful 1 1
      ∧ ∃ heap', (made 1 Edit.fillAndCollect).Placed (.array #[]) ⟨0, 1⟩ heap' := by
  obtain ⟨hf, -, -, hdone⟩ := made_spec 1 Edit.fillAndCollect (.array #[])
  have hok : (made 1 Edit.fillAndCollect).allocate (.array #[])
      = .ok (⟨0, 1⟩, ((made 1 Edit.fillAndCollect).place (.array #[])).2) :=
    allocate_eq_ok_iff.2 ⟨by decide +kernel, Prod.ext (by decide +kernel) rfl⟩
  have hfullest : fullest 1 Edit.fillAndCollect = 1 := by decide +kernel
  rw [hfullest] at hf
  exact ⟨hf, _, (hdone _ _ hok).2⟩

/-! ## The heaps of engines -/

/-- What the engine does to a heap is an edit, or makes a new heap with a limit. -/
theorem Change.exists_edit {collects : Prop} {roots : RootSet}
    (hc : Change collects roots heap heap') :
    (∃ e, heap' = heap.edit e) ∨ ∃ limit, heap' = { limit := limit } := by
  cases hc with
  | @placed o hr _ =>
    exact .inl ⟨.allocate o, (edit_allocate_of_ok (allocate_eq_ok_iff.2 ⟨hr, rfl⟩)).symm⟩
  | @stored h o _ => exact .inl ⟨.store h o, rfl⟩
  | collected _ stats => exact .inl ⟨.collect roots stats, rfl⟩
  | opened limit _ => exact .inr ⟨limit, rfl⟩

end Heap

/-- **Every heap of an engine has such a history**, in every world that can come about. -/
theorem World.Reachable.exists_made {κ : Type} {w : World κ} (hw : w.Reachable) (e : EngineId) :
    ∃ limit es, (w.engine e).heap = Heap.made limit es := by
  induction hw with
  | refl =>
    refine ⟨0, [], ?_⟩
    show (({} : World κ).engine e).heap = {}
    rw [World.engine_init]
    rfl
  | tail _ hs ih =>
    obtain ⟨limit, es, hmade⟩ := ih
    rcases hs.heap e with hsame | hc
    · exact ⟨limit, es, hsame.trans hmade⟩
    · rcases hc.exists_edit with ⟨edit, hedit⟩ | ⟨limit', hnew⟩
      · exact ⟨limit, es ++ [edit], by rw [hedit, hmade, Heap.made_append]⟩
      · exact ⟨limit', [], hnew⟩

end EmbeddedScript
