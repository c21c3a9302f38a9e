import EmbeddedScript.Heap.Basic

/-!
# Which object a handle denotes

A handle denotes the occupant of its slot as long as the generations agree. This
module says what the changes to a heap make of that: storing into an object leaves
every other occupant alone and keeps the birth of the one it changes, and an
allocation adds one occupant and moves none.

The second is not a fact about any heap. Allocation overwrites the slot on top of
the free list, so it moves nobody only because that list holds **exactly the
empty slots** – `Heap.WellFormed`, which every change keeps.
-/

namespace EmbeddedScript

namespace Heap

variable {heap : Heap} {h k : Handle} {o : HeapObject} {a : Occupant}

/-- **The free list is true to the slots**: it names the empty ones, each once. -/
structure WellFormed (heap : Heap) : Prop where
  /-- No index occurs twice. -/
  nodup : heap.free.Nodup
  /-- The indices are those of the empty slots. -/
  mem_free : ∀ i, i ∈ heap.free ↔ ∃ s, heap.slots[i]? = some s ∧ s.occupant = none

/-- A heap without slots is well formed. -/
theorem WellFormed.of_limit (limit : Nat) : ({ limit := limit } : Heap).WellFormed :=
  ⟨List.nodup_nil, by simp⟩

/-! ## Reading -/

/-- A handle denotes the occupant of a slot at the handle's own generation. -/
theorem occupant?_eq_some_iff :
    heap.occupant? h = some a ↔
      ∃ s, heap.slots[h.index]? = some s ∧ s.generation = h.generation
        ∧ s.occupant = some a := by
  simp [occupant?, slot?, Option.bind_eq_some_iff, Option.filter_eq_some_iff, and_assoc]

/-- A handle to the object of an occupant denotes that occupant. -/
theorem get?_eq_some_iff :
    heap.get? h = some o ↔ ∃ a, heap.occupant? h = some a ∧ a.object = o := by
  simp [get?, Option.map_eq_some_iff]

/-- The occupant that a handle denotes depends on the slot of its index only. -/
theorem occupant?_congr {heap' : Heap} (hs : heap'.slots[h.index]? = heap.slots[h.index]?) :
    heap'.occupant? h = heap.occupant? h := by
  rw [occupant?, occupant?, slot?, slot?, hs]

/-- Two handles to one slot that both denote an occupant are the same handle. -/
theorem eq_of_index_eq {b : Occupant} (ha : heap.occupant? h = some a)
    (hb : heap.occupant? k = some b) (hi : h.index = k.index) : h = k := by
  obtain ⟨s, hs, hg, -⟩ := occupant?_eq_some_iff.1 ha
  obtain ⟨t, ht, hg', -⟩ := occupant?_eq_some_iff.1 hb
  obtain rfl : s = t := by simpa [hi, ht] using hs.symm
  obtain ⟨i, g⟩ := h
  obtain ⟨j, g'⟩ := k
  obtain rfl : g = g' := hg.symm.trans hg'
  obtain rfl : i = j := hi
  rfl

/-! ## Storing into an object -/

/-- Storing changes the object that its handle denotes, and no birth. -/
theorem occupant?_put_self (heap : Heap) (h : Handle) (o : HeapObject) :
    (heap.put h o).occupant? h = (heap.occupant? h).map fun a => { a with object := o } := by
  unfold put
  split
  case isFalse hn =>
    have hn : heap.occupant? h = none := by simpa using hn
    simp [hn]
  case isTrue hl =>
    obtain ⟨a, ha⟩ := Option.isSome_iff_exists.1 hl
    obtain ⟨s, hs, hg, hsa⟩ := occupant?_eq_some_iff.1 ha
    rw [ha, Option.map_some, occupant?_eq_some_iff]
    refine ⟨{ s with occupant := some { a with object := o } }, ?_, hg, rfl⟩
    simp [Array.getElem?_modify, hs, hsa]

/-- Storing leaves what another handle denotes alone, also in the same slot. -/
theorem occupant?_put_of_ne (heap : Heap) (o : HeapObject) (hne : k ≠ h) :
    (heap.put h o).occupant? k = heap.occupant? k := by
  unfold put
  split
  case isFalse => rfl
  case isTrue hl =>
    by_cases hi : h.index = k.index
    · -- the slot is the same one, at the generation of the other handle
      obtain ⟨a, ha⟩ := Option.isSome_iff_exists.1 hl
      obtain ⟨s, hs, hg, -⟩ := occupant?_eq_some_iff.1 ha
      have hgk : s.generation ≠ k.generation := fun hgk => hne (by
        obtain ⟨i, g⟩ := h
        obtain ⟨j, g'⟩ := k
        simp_all)
      rw [hi] at hs
      simp [occupant?, slot?, Array.getElem?_modify, hi, hs, Option.filter, hgk]
    · exact occupant?_congr (by simp [Array.getElem?_modify, hi])

/-- Storing empties and fills no slot. -/
theorem WellFormed.put (hw : heap.WellFormed) (h : Handle) (o : HeapObject) :
    (heap.put h o).WellFormed := by
  unfold Heap.put
  split
  case isFalse => exact hw
  case isTrue =>
    refine ⟨hw.nodup, fun i => (hw.mem_free i).trans ?_⟩
    by_cases hi : h.index = i
    · cases hs : heap.slots[i]? with
      | none => simp [Array.getElem?_modify, hi, hs]
      | some s => simp [Array.getElem?_modify, hi, hs]
    · simp [Array.getElem?_modify, hi]

/-! ## Allocation -/

/-- **Allocation adds one occupant and moves none.** -/
theorem occupant?_place (hw : heap.WellFormed) (o : HeapObject) (k : Handle) :
    (heap.place o).2.occupant? k =
      if k = (heap.place o).1 then some ⟨heap.births, o⟩ else heap.occupant? k := by
  obtain ⟨i, g⟩ := k
  unfold place
  split
  case h_1 index free hf =>
    obtain ⟨s, hs, hempty⟩ := (hw.mem_free index).1 (by simp [hf])
    have hd : heap.slots.getD index default = s := by simp [Array.getD_eq_getD_getElem?, hs]
    by_cases hi : index = i
    · subst hi
      by_cases hg : s.generation = g
      · simp [occupant?, slot?, Array.getElem?_modify, hs, hd, hg, Option.filter]
      · simp [occupant?, slot?, Array.getElem?_modify, hs, hd, hg, Ne.symm hg, Option.filter]
    · have hne : i ≠ index := Ne.symm hi
      simp [occupant?, slot?, Array.getElem?_modify, hi, hne]
  case h_2 =>
    by_cases hi : i = heap.slots.size
    · subst hi
      by_cases hg : g = 0
      · simp [occupant?, slot?, hg, Option.filter]
      · simp [occupant?, slot?, hg, Ne.symm hg, Option.filter]
    · simp [occupant?, slot?, Array.getElem?_push, hi]

/-- **The new handle denoted nothing before.** -/
theorem occupant?_place_fst (hw : heap.WellFormed) (o : HeapObject) :
    heap.occupant? (heap.place o).1 = none := by
  unfold place
  split
  case h_1 index free hf =>
    obtain ⟨s, hs, hempty⟩ := (hw.mem_free index).1 (by simp [hf])
    simp [occupant?, slot?, hs, Option.filter, Array.getD_eq_getD_getElem?, hempty]
  case h_2 => simp [occupant?, slot?]

/-- What a handle denoted before an allocation it denotes afterwards. -/
theorem occupant?_place_of_some (hw : heap.WellFormed) (o : HeapObject)
    (ha : heap.occupant? k = some a) : (heap.place o).2.occupant? k = some a := by
  rw [occupant?_place hw, if_neg, ha]
  rintro rfl
  simp [occupant?_place_fst hw] at ha

/-- A placed object is what its handle denotes, and no other handle denotes anything else
than it did. -/
theorem get?_place (hw : heap.WellFormed) (o : HeapObject) (h : Handle) :
    (heap.place o).2.get? h = if h = (heap.place o).1 then some o else heap.get? h := by
  unfold get?
  rw [occupant?_place hw]
  split <;> rfl

theorem get?_place_fst (hw : heap.WellFormed) (o : HeapObject) :
    heap.get? (heap.place o).1 = none := by
  unfold get?
  rw [occupant?_place_fst hw]
  rfl

/-- What was there is there when another object is placed. -/
theorem get?_place_of_some {p : HeapObject} (hw : heap.WellFormed) (o : HeapObject)
    (hg : heap.get? h = some p) : (heap.place o).2.get? h = some p := by
  rw [get?_place hw, if_neg, hg]
  rintro rfl
  cases (get?_place_fst hw o).symm.trans hg

/-- The counter goes on with the object that is placed. -/
theorem live_place (heap : Heap) (o : HeapObject) :
    (heap.place o).2.live = heap.live + 1 := by
  unfold place
  split <;> rfl

/-- Allocation takes the index of the slot it fills off the free list. -/
theorem WellFormed.place (hw : heap.WellFormed) (o : HeapObject) :
    (heap.place o).2.WellFormed := by
  unfold Heap.place
  split
  case h_1 index free hf =>
    obtain ⟨hnotin, hnodup⟩ := List.nodup_cons.1 (hf ▸ hw.nodup)
    obtain ⟨s, hs, -⟩ := (hw.mem_free index).1 (by simp [hf])
    refine ⟨hnodup, fun i => ?_⟩
    by_cases hi : index = i
    · subst hi
      simp [hnotin, Array.getElem?_modify, hs]
    · have := hw.mem_free i
      simpa [hf, Array.getElem?_modify, hi, Ne.symm hi] using this
  case h_2 hf =>
    refine ⟨hf ▸ List.nodup_nil, fun i => ?_⟩
    have := hw.mem_free i
    by_cases hi : i = heap.slots.size
    · subst hi
      simp [hf]
    · simpa [hf, Array.getElem?_push, hi] using this

end Heap

end EmbeddedScript
