import Mathlib.Algebra.Ring.Nat
import EmbeddedScript.Proofs.Heap.Representation

/-!
# Generations count frees

A handle names a slot and a generation, and a slot is used again and again. What tells
its users apart is that **the generation of a slot is the number of times that it was
freed**, as far as 32 bits can hold it (`Heap.generationAt_edits`): a collection that
frees the slot moves it on, and nothing else does.

So two allocations come to the same handle only if the slot was freed a multiple of
`2 ^ 32` times between them; and since the second finds the slot empty that the first has
filled, not zero times. As long as no slot was freed that often, **a handle is stale
exactly when its object was swept** (`Heap.isLive_iff_freed_eq_zero`).
-/

namespace EmbeddedScript

namespace Heap

variable {heap heap' : Heap} {limit : Nat} {o : HeapObject} {h k : Handle} {i : Nat}
  {e : Edit} {es : List Edit}

/-! ## Slots by index -/

/-- The slot of an index holds an object. -/
def isOccupied (heap : Heap) (i : Nat) : Bool := heap.slots[i]?.any (·.occupant.isSome)

/-- **The generation of a slot**; a slot that is yet to be added will be at the first. -/
def generationAt (heap : Heap) (i : Nat) : UInt32 :=
  (heap.slots[i]?.map (·.generation)).getD 0

/-- **The edit is a sweep that frees the slot**: it held an object before, and holds none
after. -/
def frees (heap : Heap) (i : Nat) : Edit → Bool
  | .collect roots stats =>
    heap.isOccupied i && !(heap.collect roots stats).2.1.isOccupied i
  | _ => false

/-- **How often the slot is freed** by some edits. -/
def freed (heap : Heap) (i : Nat) : List Edit → Nat
  | [] => 0
  | e :: es => (heap.frees i e).toNat + (heap.edit e).freed i es

/-- The handle that an edit hands out: that of an allocation that succeeds. -/
def handle? (heap : Heap) : Edit → Option Handle
  | .allocate o => (heap.allocate o).toOption.map (·.1)
  | _ => none

/-- **The handles that are handed out** by some edits, in order. -/
def handed (heap : Heap) : List Edit → List Handle
  | [] => []
  | e :: es => (heap.handle? e).toList ++ (heap.edit e).handed es

/-- A handle denotes an object when its slot holds one at the handle's generation. -/
theorem isLive_iff :
    heap.isLive h = true
      ↔ heap.isOccupied h.index = true ∧ heap.generationAt h.index = h.generation := by
  unfold isLive occupant? slot? isOccupied generationAt
  cases heap.slots[h.index]? with
  | none => simp
  | some s => by_cases hg : s.generation = h.generation <;> simp [Option.filter, hg]

/-- What holds of the slots without their marks does not depend on the marks. -/
theorem isOccupied_unmarkAll (heap : Heap) (i : Nat) :
    heap.unmarkAll.isOccupied i = heap.isOccupied i := by
  unfold isOccupied unmarkAll
  rw [Array.getElem?_map]
  cases heap.slots[i]? <;> rfl

theorem generationAt_unmarkAll (heap : Heap) (i : Nat) :
    heap.unmarkAll.generationAt i = heap.generationAt i := by
  unfold generationAt unmarkAll
  rw [Array.getElem?_map]
  cases heap.slots[i]? <;> rfl

/-! ## What an edit does to a slot -/

/-- Storing changes neither which slots hold objects nor their generations. -/
theorem isOccupied_put (heap : Heap) (h : Handle) (o : HeapObject) (i : Nat) :
    (heap.put h o).isOccupied i = heap.isOccupied i := by
  unfold put
  split
  case isFalse => rfl
  case isTrue =>
    unfold isOccupied
    rw [Array.getElem?_modify]
    split
    · cases heap.slots[i]? with
      | none => rfl
      | some s => simp
    · rfl

theorem generationAt_put (heap : Heap) (h : Handle) (o : HeapObject) (i : Nat) :
    (heap.put h o).generationAt i = heap.generationAt i := by
  unfold put
  split
  case isFalse => rfl
  case isTrue =>
    unfold generationAt
    rw [Array.getElem?_modify]
    split
    · cases heap.slots[i]? <;> rfl
    · rfl

/-- **Placing fills one slot** and empties none. -/
theorem isOccupied_place (hw : heap.WellFormed) (o : HeapObject) (i : Nat) :
    (heap.place o).2.isOccupied i
      = (decide (i = (heap.place o).1.index) || heap.isOccupied i) := by
  unfold place
  split
  case h_1 index free hfree =>
    obtain ⟨s, hs, -⟩ := (hw.mem_free index).1 (by rw [hfree]; exact List.mem_cons_self)
    unfold isOccupied
    rw [Array.getElem?_modify]
    by_cases hi : index = i
    · subst hi
      simp [hs]
    · simp [hi, Ne.symm hi]
  case h_2 =>
    unfold isOccupied
    rw [Array.getElem?_push]
    by_cases hi : i = heap.slots.size <;> simp [hi]

/-- Placing leaves every slot at its generation. -/
theorem generationAt_place (heap : Heap) (o : HeapObject) (i : Nat) :
    (heap.place o).2.generationAt i = heap.generationAt i := by
  unfold place
  split
  case h_1 index free hfree =>
    unfold generationAt
    rw [Array.getElem?_modify]
    split
    · cases heap.slots[i]? <;> rfl
    · rfl
  case h_2 =>
    unfold generationAt
    rw [Array.getElem?_push]
    split
    case isTrue hi => rw [hi, Array.getElem?_eq_none (Nat.le_refl _)]; rfl
    case isFalse => rfl

/-- **The slot of a new handle was empty**, and the handle has the slot's generation. -/
theorem isOccupied_place_fst (hw : heap.WellFormed) (o : HeapObject) :
    heap.isOccupied (heap.place o).1.index = false
      ∧ (heap.place o).1.generation = heap.generationAt (heap.place o).1.index := by
  unfold place
  split
  case h_1 index free hfree =>
    obtain ⟨s, hs, hempty⟩ := (hw.mem_free index).1 (by rw [hfree]; exact List.mem_cons_self)
    simp [isOccupied, generationAt, Array.getD_eq_getD_getElem?, hs, hempty]
  case h_2 => simp [isOccupied, generationAt]

/-- **Sweeping moves the slots on that it empties**, and those only. -/
theorem generationAt_sweep (heap : Heap) (i : Nat) :
    heap.sweep.2.generationAt i
      = heap.generationAt i
        + UInt32.ofNat (heap.isOccupied i && !heap.sweep.2.isOccupied i).toNat := by
  have hslot : heap.sweep.2.slots[i]?
      = heap.slots[i]?.map fun s => if s.isGarbage then s.swept else s := Array.getElem?_map
  unfold generationAt isOccupied
  rw [hslot]
  cases heap.slots[i]? with
  | none => rfl
  | some s =>
    cases ho : s.occupant with
    | none => simp [Slot.isGarbage, ho]
    | some a =>
      cases hm : s.marked with
      | true => simp [Slot.isGarbage, ho, hm]
      | false => simp [Slot.isGarbage, ho, hm, Slot.swept]

/-- **An edit moves the slots on that it frees**, and those only. -/
theorem generationAt_edit (heap : Heap) (e : Edit) (i : Nat) :
    (heap.edit e).generationAt i
      = heap.generationAt i + UInt32.ofNat (heap.frees i e).toNat := by
  cases e with
  | allocate o =>
    have hsame : (heap.edit (.allocate o)).generationAt i = heap.generationAt i := by
      cases ha : heap.allocate o with
      | error err => rw [edit_allocate_of_error ha]
      | ok r =>
        obtain ⟨-, rfl⟩ := allocate_eq_ok_iff.1 ha
        rw [edit_allocate_of_ok ha, generationAt_place]
    rw [hsame]
    exact (UInt32.add_zero _).symm
  | store h o =>
    show (heap.put h o).generationAt i = _
    rw [generationAt_put]
    exact (UInt32.add_zero _).symm
  | collect roots stats =>
    have hmarked := unmarkAll_markFrom heap.unmarkAll roots.handles
    have hgeneration :=
      generationAt_sweep (heap.unmarkAll.markFrom roots.handles).heap i
    -- marking has moved no slot on and emptied none
    rw [← generationAt_unmarkAll (heap.unmarkAll.markFrom roots.handles).heap, hmarked,
      generationAt_unmarkAll, generationAt_unmarkAll,
      ← isOccupied_unmarkAll (heap.unmarkAll.markFrom roots.handles).heap, hmarked,
      isOccupied_unmarkAll, isOccupied_unmarkAll] at hgeneration
    exact hgeneration

/-- **A slot is emptied by sweeps that free it**, and by nothing else. -/
theorem isOccupied_edit (hw : heap.WellFormed) (ho : heap.isOccupied i = true)
    (hf : heap.frees i e = false) : (heap.edit e).isOccupied i = true := by
  cases e with
  | allocate o =>
    cases ha : heap.allocate o with
    | error err => rw [edit_allocate_of_error ha, ho]
    | ok r =>
      obtain ⟨-, rfl⟩ := allocate_eq_ok_iff.1 ha
      rw [edit_allocate_of_ok ha, isOccupied_place hw, ho, Bool.or_true]
  | store h o => exact (isOccupied_put heap h o i).trans ho
  | collect roots stats =>
    show (heap.collect roots stats).2.1.isOccupied i = true
    simpa [frees, ho] using hf

/-! ## Histories -/

theorem freed_append (heap : Heap) (i : Nat) (es es' : List Edit) :
    heap.freed i (es ++ es') = heap.freed i es + (heap.edits es).freed i es' := by
  induction es generalizing heap with
  | nil => exact (Nat.zero_add _).symm
  | cons e es ih =>
    show _ + (heap.edit e).freed i (es ++ es') = _ + (heap.edit e).freed i es + _
    rw [ih, Nat.add_assoc]
    rfl

/-- **The generation of a slot counts the times that it was freed**, modulo `2 ^ 32`. -/
theorem generationAt_edits (heap : Heap) (es : List Edit) (i : Nat) :
    (heap.edits es).generationAt i = heap.generationAt i + UInt32.ofNat (heap.freed i es) := by
  induction es generalizing heap with
  | nil => exact (UInt32.add_zero _).symm
  | cons e es ih =>
    show ((heap.edit e).edits es).generationAt i
      = heap.generationAt i + UInt32.ofNat ((heap.frees i e).toNat + (heap.edit e).freed i es)
    rw [ih, generationAt_edit, UInt32.ofNat_add, UInt32.add_assoc]

/-- One edit keeps the free list true to the slots, and so do any number of them. -/
theorem WellFormed.edit (hw : heap.WellFormed) (e : Edit) : (heap.edit e).WellFormed := by
  cases e with
  | allocate o =>
    cases ha : heap.allocate o with
    | error err => rwa [edit_allocate_of_error ha]
    | ok r =>
      obtain ⟨-, rfl⟩ := allocate_eq_ok_iff.1 ha
      rw [edit_allocate_of_ok ha]
      exact hw.place o
  | store h o => exact hw.put h o
  | collect roots stats => exact hw.collect roots stats

theorem WellFormed.edits (hw : heap.WellFormed) (es : List Edit) :
    (heap.edits es).WellFormed := by
  induction es generalizing heap with
  | nil => exact hw
  | cons e es ih => exact ih (hw.edit e)

/-- A slot that is not freed goes on holding an object. -/
theorem isOccupied_edits (hw : heap.WellFormed) (ho : heap.isOccupied i = true)
    (hf : heap.freed i es = 0) : (heap.edits es).isOccupied i = true := by
  induction es generalizing heap with
  | nil => exact ho
  | cons e es ih =>
    obtain ⟨hfrees, hrest⟩ : (heap.frees i e).toNat = 0 ∧ (heap.edit e).freed i es = 0 :=
      Nat.add_eq_zero_iff.1 hf
    exact ih (hw.edit e) (isOccupied_edit hw ho (Bool.toNat_eq_zero.1 hfrees)) hrest

/-- Adding a number to a generation comes back to it when the number is a multiple of the
number of generations. -/
theorem generation_add_eq_iff (g : UInt32) (n : Nat) :
    g + UInt32.ofNat n = g ↔ 2 ^ 32 ∣ n := by
  rw [UInt32.add_eq_left, ← UInt32.toNat_inj, UInt32.toNat_ofNat', UInt32.toNat_zero,
    Nat.dvd_iff_mod_eq_zero]

/-! ## Handles -/

/-- What a successful allocation comes to: the handle has the generation of its slot, which
was empty and is not any more. -/
theorem allocate_spec (hw : heap.WellFormed) (ha : heap.allocate o = .ok (h, heap')) :
    heap'.WellFormed ∧ heap.isOccupied h.index = false ∧ heap'.isOccupied h.index = true
      ∧ h.generation = heap.generationAt h.index
      ∧ heap'.generationAt h.index = h.generation := by
  obtain ⟨-, hplace⟩ := allocate_eq_ok_iff.1 ha
  obtain ⟨hempty, hgeneration⟩ := isOccupied_place_fst hw o
  have hwell := hw.place o
  have hfilled := isOccupied_place hw o (heap.place o).1.index
  have hkept := generationAt_place heap o (heap.place o).1.index
  rw [hplace] at hempty hgeneration hwell hfilled hkept
  refine ⟨hwell, hempty, ?_, hgeneration, hkept.trans hgeneration.symm⟩
  rw [hfilled, decide_eq_true rfl, Bool.true_or]

/-- **When an object is live**: its slot is in use, and was freed a multiple of `2 ^ 32`
times since the object was put there. -/
theorem isLive_edits_iff (hw : heap.WellFormed) (ha : heap.allocate o = .ok (h, heap'))
    (es : List Edit) :
    (heap'.edits es).isLive h = true
      ↔ (heap'.edits es).isOccupied h.index = true ∧ 2 ^ 32 ∣ heap'.freed h.index es := by
  obtain ⟨-, -, -, -, hgeneration⟩ := allocate_spec hw ha
  rw [isLive_iff, generationAt_edits, hgeneration, generation_add_eq_iff]

/-- **A handle is stale exactly when its object was swept**, as long as its slot was not
freed `2 ^ 32` times. -/
theorem isLive_iff_freed_eq_zero (hw : heap.WellFormed)
    (ha : heap.allocate o = .ok (h, heap')) (hlt : heap'.freed h.index es < 2 ^ 32) :
    (heap'.edits es).isLive h = true ↔ heap'.freed h.index es = 0 := by
  obtain ⟨hw', -, hfilled, -, -⟩ := allocate_spec hw ha
  rw [isLive_edits_iff hw ha]
  constructor
  · rintro ⟨-, hdvd⟩
    exact Nat.eq_zero_of_dvd_of_lt hdvd hlt
  · intro hzero
    exact ⟨isOccupied_edits hw' hfilled hzero, hzero ▸ Nat.dvd_zero _⟩

/-- **Two allocations come to one handle** when they fill the same slot, and the slot was
freed a positive multiple of `2 ^ 32` times between them. -/
theorem handle_eq_iff {heap₁ heap₂ : Heap} {o₁ o₂ : HeapObject} {h₁ h₂ : Handle}
    (hw : heap.WellFormed) (h₁_ok : heap.allocate o₁ = .ok (h₁, heap₁))
    (h₂_ok : (heap₁.edits es).allocate o₂ = .ok (h₂, heap₂)) :
    h₁ = h₂ ↔ h₁.index = h₂.index ∧ 0 < heap₁.freed h₁.index es
      ∧ 2 ^ 32 ∣ heap₁.freed h₁.index es := by
  obtain ⟨hw₁, -, hfilled, -, hgeneration₁⟩ := allocate_spec hw h₁_ok
  obtain ⟨-, hempty, -, hgeneration₂, -⟩ := allocate_spec (hw₁.edits es) h₂_ok
  have hpos : h₁.index = h₂.index → 0 < heap₁.freed h₁.index es := fun hi => by
    -- the first allocation filled the slot that the second one finds empty
    refine Nat.pos_of_ne_zero fun hzero => ?_
    have hstill := isOccupied_edits hw₁ hfilled hzero
    rw [hi, hempty] at hstill
    exact Bool.noConfusion hstill
  have hgeneration : h₁.index = h₂.index →
      (h₂.generation = h₁.generation ↔ 2 ^ 32 ∣ heap₁.freed h₁.index es) := fun hi => by
    rw [hgeneration₂, ← hi, generationAt_edits, hgeneration₁, generation_add_eq_iff]
  constructor
  · rintro rfl
    exact ⟨rfl, hpos rfl, (hgeneration rfl).1 rfl⟩
  · rintro ⟨hi, -, hdvd⟩
    have hg := (hgeneration hi).2 hdvd
    obtain ⟨i₁, g₁⟩ := h₁
    obtain ⟨i₂, g₂⟩ := h₂
    obtain rfl : i₁ = i₂ := hi
    obtain rfl : g₂ = g₁ := hg
    rfl

/-- A handle that is handed out is that of an allocation that succeeds. -/
theorem handle?_eq_some_iff :
    heap.handle? e = some h ↔ ∃ o heap', e = .allocate o ∧ heap.allocate o = .ok (h, heap') := by
  cases e with
  | allocate o =>
    cases ha : heap.allocate o with
    | error err => simp [handle?, ha, Except.toOption]
    | ok r => simp [handle?, ha, Except.toOption, Prod.ext_iff]
  | store h' o => simp [handle?]
  | collect roots stats => simp [handle?]

theorem exists_allocate_of_mem_handed (hm : h ∈ heap.handed es) :
    ∃ before o after heap', es = before ++ .allocate o :: after
      ∧ (heap.edits before).allocate o = .ok (h, heap') := by
  induction es generalizing heap with
  | nil => exact absurd hm List.not_mem_nil
  | cons e es ih =>
    rcases List.mem_append.1 hm with hfirst | hrest
    · obtain ⟨o, heap', rfl, ha⟩ := handle?_eq_some_iff.1 (Option.mem_toList.1 hfirst)
      exact ⟨[], o, es, heap', rfl, ha⟩
    · obtain ⟨before, o, after, heap', rfl, ha⟩ := ih hrest
      exact ⟨e :: before, o, after, heap', rfl, ha⟩

/-- **No handle is handed out twice** while no slot is freed `2 ^ 32` times. -/
theorem nodup_handed (hw : heap.WellFormed) (hlt : ∀ i, heap.freed i es < 2 ^ 32) :
    (heap.handed es).Nodup := by
  induction es generalizing heap with
  | nil => exact List.nodup_nil
  | cons e es ih =>
    have hrest : ∀ i, (heap.edit e).freed i es < 2 ^ 32 := fun i =>
      Nat.lt_of_le_of_lt (Nat.le_add_left _ _) (hlt i)
    refine List.nodup_append.2 ⟨?_, ih (hw.edit e) hrest, fun h hfirst k hlater => ?_⟩
    · cases heap.handle? e with
      | none => exact List.nodup_nil
      | some h => exact List.nodup_singleton h
    · rintro rfl
      obtain ⟨o, heap', rfl, ha⟩ := handle?_eq_some_iff.1 (Option.mem_toList.1 hfirst)
      obtain ⟨before, o', after, heap'', rfl, ha'⟩ := exists_allocate_of_mem_handed hlater
      rw [edit_allocate_of_ok ha] at ha' hrest
      obtain ⟨-, hpos, hdvd⟩ := (handle_eq_iff hw ha ha').1 rfl
      have hle := hrest h.index
      rw [freed_append] at hle
      exact Nat.not_lt_of_le (Nat.le_of_dvd hpos hdvd)
        (Nat.lt_of_le_of_lt (Nat.le_add_right _ _) hle)

/-! ## Stale handles -/

/-- **The heap reports the handle as stale**, whatever it is asked to do with it. -/
structure ReportsStale (heap : Heap) (h : Handle) : Prop where
  /-- It denotes no object. -/
  isLive : heap.isLive h = false
  /-- Reading it, or reading it to change what it denotes, is an error. -/
  get : heap.get h = .error (.staleHandle h)
  /-- Nothing is changed through it. -/
  put : ∀ o, heap.put h o = heap
  /-- However far a collection has come, it marks nothing. -/
  mark : ∀ heap' : Heap, heap'.unmarkAll = heap.unmarkAll → heap'.mark? h = none

/-- A handle that is not live is reported as stale. -/
theorem ReportsStale.of_isLive (hl : heap.isLive h = false) : heap.ReportsStale h := by
  have hnone : heap.occupant? h = none := by
    rwa [Heap.isLive, Option.isSome_eq_false_iff, Option.isNone_iff_eq_none] at hl
  refine ⟨hl, ?_, fun o => ?_, fun heap' he => ?_⟩
  · rw [Heap.get, get?, hnone]
    rfl
  · rw [Heap.put, hnone]
    rfl
  · cases hm : heap'.mark? h with
    | none => rfl
    | some heap'' =>
      -- what can be marked is live, which does not depend on the marks
      have hlive := (isLive_of_mark? hm).1
      rw [Heap.isLive, occupant?_eq_of_unmarkAll_eq he, hnone] at hlive
      exact Bool.noConfusion hlive

/-- **Handles come round after `2 ^ 32` sweeps of their slot, and not before.** Two
allocations, however a heap is edited before them and between them, come to the same handle
exactly when they fill the same slot and a positive multiple of `2 ^ 32` sweeps freed it
between them. So while no slot is freed that often, no handle is handed out twice; and
from then on a handle is live as long as no sweep frees its slot, and stale for good
afterwards, whatever the slot holds then. -/
theorem handles_alias_iff (limit : Nat) :
    (∀ (before between : List Edit) (o₁ o₂ : HeapObject) (h₁ h₂ : Handle) (heap₁ heap₂ : Heap),
        (made limit before).allocate o₁ = .ok (h₁, heap₁) →
        (heap₁.edits between).allocate o₂ = .ok (h₂, heap₂) →
        (h₁ = h₂ ↔ h₁.index = h₂.index ∧ 0 < heap₁.freed h₁.index between
          ∧ 2 ^ 32 ∣ heap₁.freed h₁.index between))
      ∧ ∀ es : List Edit, (∀ i, (made limit []).freed i es < 2 ^ 32) →
        ((made limit []).handed es).Nodup
          ∧ ∀ (before after : List Edit) (o : HeapObject) (h : Handle) (heap : Heap),
            es = before ++ .allocate o :: after →
            (made limit before).allocate o = .ok (h, heap) →
            (heap.freed h.index after = 0 → (heap.edits after).isLive h = true)
              ∧ (0 < heap.freed h.index after → (heap.edits after).ReportsStale h) := by
  have hwell : ∀ es, (made limit es).WellFormed := fun es => (faithful_made limit es).wellFormed
  refine ⟨fun before between o₁ o₂ h₁ h₂ heap₁ heap₂ ha₁ ha₂ => ?_, fun es hlt => ⟨?_, ?_⟩⟩
  · exact handle_eq_iff (hwell before) ha₁ ha₂
  · exact nodup_handed (hwell []) hlt
  · rintro before after o h heap rfl ha
    have hfreed : (made limit before).freed h.index (.allocate o :: after)
        = heap.freed h.index after := by
      show 0 + ((made limit before).edit (.allocate o)).freed h.index after = _
      rw [edit_allocate_of_ok ha, Nat.zero_add]
    have hfew : heap.freed h.index after < 2 ^ 32 := by
      have hall := hlt h.index
      rw [freed_append] at hall
      rw [← hfreed]
      exact Nat.lt_of_le_of_lt (Nat.le_add_left _ _) hall
    have hlive := isLive_iff_freed_eq_zero (hwell before) ha hfew
    refine ⟨hlive.2, fun hpos => .of_isLive ?_⟩
    rw [Bool.eq_false_iff, ne_eq, hlive]
    exact Nat.ne_of_gt hpos

/-! ### A slot that comes round -/

/-- A slot is freed at most once by an edit. -/
theorem freed_le_length (heap : Heap) (i : Nat) (es : List Edit) :
    heap.freed i es ≤ es.length := by
  induction es generalizing heap with
  | nil => exact Nat.le_refl _
  | cons e es ih =>
    show (heap.frees i e).toNat + (heap.edit e).freed i es ≤ es.length + 1
    have := Bool.toNat_le (heap.frees i e)
    have := ih (heap.edit e)
    omega

/-- The edits that collect, and so many times more allocate and collect again. -/
def Edit.sweeps : Nat → List Edit
  | 0 => [.collect {} {}]
  | n + 1 => .collect {} {} :: .allocate (.plain .empty) :: sweeps n

/-- A heap with one slot and an object in it. -/
def single (generation : UInt32) (birth : Nat) : Heap :=
  { slots := #[⟨generation, false, some ⟨birth, .plain .empty⟩⟩]
    live := 1, sinceCollection := 1, births := birth + 1 }

/-- The same heap after a collection without roots. -/
def vacated (generation : UInt32) (birth : Nat) : Heap :=
  { slots := #[⟨generation + 1, false, none⟩], free := [0], births := birth + 1 }

theorem edit_single (g : UInt32) (b : Nat) :
    (single g b).edit (.collect {} {}) = vacated g b := by
  show ((single g b).collect {} {}).2.1 = _
  simp [collect, RootSet.handles, RootSet.distinct, markFrom_nil, single, vacated, unmarkAll, sweep,
    Slot.isGarbage, Slot.swept, Slot.garbage?, garbageIndices]

theorem allocate_vacated (g : UInt32) (b : Nat) :
    (vacated g b).allocate (.plain .empty) = .ok (⟨0, g + 1⟩, single (g + 1) (b + 1)) := rfl

/-- Each round takes the slot to its next generation. -/
theorem edits_sweeps (g : UInt32) (b n : Nat) :
    (single g b).edits (Edit.sweeps n) = vacated (g + UInt32.ofNat n) (b + n) := by
  induction n generalizing g b with
  | zero =>
    show (single g b).edit (.collect {} {}) = vacated (g + 0) b
    rw [edit_single, UInt32.add_zero]
  | succ n ih =>
    show (((single g b).edit (.collect {} {})).edit (.allocate _)).edits (Edit.sweeps n) = _
    rw [edit_single, edit_allocate_of_ok (allocate_vacated g b), ih, UInt32.add_assoc,
      Nat.add_assoc, Nat.add_comm n 1, UInt32.ofNat_add]
    rfl

/-- Each round frees the slot once. -/
theorem freed_sweeps (g : UInt32) (b n : Nat) :
    (single g b).freed 0 (Edit.sweeps n) = n + 1 := by
  have hfrees : ∀ g b, (single g b).frees 0 (.collect {} {}) = true := fun g b => by
    show ((single g b).isOccupied 0
      && !((single g b).edit (.collect {} {})).isOccupied 0) = true
    rw [edit_single]
    rfl
  induction n generalizing g b with
  | zero =>
    show ((single g b).frees 0 (.collect {} {})).toNat + 0 = 1
    rw [hfrees]
    rfl
  | succ n ih =>
    show _ + (0 + (((single g b).edit (.collect {} {})).edit (.allocate _)).freed 0 _) = n + 2
    rw [hfrees, edit_single, edit_allocate_of_ok (allocate_vacated g b), ih, Nat.zero_add]
    exact Nat.add_comm 1 (n + 1)

/-- A slot that was freed `2 ^ 32` times is filled under the handle that its first object
had. In a history of a few edits no handle is handed out twice, and that of an object which
was swept is stale although its slot is in use. -/
theorem handles_alias_iff_wrapped :
    (∃ (between : List Edit) (heap : Heap), (single 0 0).freed 0 between = 2 ^ 32
        ∧ (made 0 []).allocate (.plain .empty) = .ok (⟨0, 0⟩, single 0 0)
        ∧ ((single 0 0).edits between).allocate (.plain .empty) = .ok (⟨0, 0⟩, heap))
      ∧ ((made 1 []).handed (Edit.fillAndCollect ++ [.allocate (.array #[])])).Nodup
      ∧ (made 1 (Edit.fillAndCollect ++ [.allocate (.array #[])])).ReportsStale ⟨0, 0⟩ := by
  constructor
  · obtain ⟨n, hn⟩ : ∃ n, n + 1 = 2 ^ 32 := ⟨2 ^ 32 - 1, by decide⟩
    have hfreed : (single 0 0).freed 0 (Edit.sweeps n) = 2 ^ 32 := by rw [freed_sweeps, hn]
    have hfirst : (made 0 []).allocate (.plain .empty) = .ok (⟨0, 0⟩, single 0 0) := rfl
    have hsecond := allocate_vacated (0 + UInt32.ofNat n) (0 + n)
    rw [← edits_sweeps] at hsecond
    have heq := ((handles_alias_iff 0).1 _ _ _ _ _ _ _ _ hfirst hsecond).2
      ⟨rfl, by rw [hfreed]; decide, ⟨1, by rw [hfreed, Nat.mul_one]⟩⟩
    rw [← heq] at hsecond
    exact ⟨_, _, hfreed, hfirst, hsecond⟩
  · obtain ⟨-, hfew⟩ := handles_alias_iff 1
    obtain ⟨hnodup, hlive⟩ := hfew (Edit.fillAndCollect ++ [.allocate (.array #[])])
      fun i => Nat.lt_of_le_of_lt (freed_le_length _ i _) (by decide)
    have hfirst : (made 1 []).allocate (.plain .empty)
        = .ok (⟨0, 0⟩, ((made 1 []).place (.plain .empty)).2) := rfl
    exact ⟨hnodup, (hlive [] _ _ _ _ rfl hfirst).2 (by decide +kernel)⟩

end Heap

end EmbeddedScript
