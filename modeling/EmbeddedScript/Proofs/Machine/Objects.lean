import EmbeddedScript.Proofs.Heap.Occupants
import EmbeddedScript.Proofs.Machine.Serving

/-!
# Objects that answer for themselves

An object without a host is read, written and listed by looking at it. This module
evaluates these operations: reading and listing leave **the very same world** behind, and
so does a write that is refused, while one that is accepted puts the object that is
written into the place of the old one and nothing else (`World.storing`). An object that is
made is put into its heap, if there is room in it.

That the same world is left behind is more than that nothing in it reads differently. The
lock is taken and given back, which puts the engine down as it was; an engine with an
object in its heap is in the table, so that putting it down does not lengthen the table.
-/

namespace EmbeddedScript

variable {κ α : Type} {w : World κ} {e : EngineId} {h : Handle} {o o' : HeapObject}

/-! ## What stays as it was -/

namespace Heap

variable {heap : Heap}

theorem get?_put_self (hg : heap.get? h = some o) (o' : HeapObject) :
    (heap.put h o').get? h = some o' := by
  obtain ⟨a, ha, -⟩ := get?_eq_some_iff.1 hg
  rw [get?, occupant?_put_self, ha]
  rfl

theorem get?_put_of_ne (heap : Heap) (o : HeapObject) {k : Handle} (hne : k ≠ h) :
    (heap.put h o).get? k = heap.get? k := by
  rw [get?, occupant?_put_of_ne heap o hne, get?]

/-- Putting an object where it is changes nothing. -/
theorem put_of_get? (hg : heap.get? h = some o) : heap.put h o = heap := by
  obtain ⟨a, ha, rfl⟩ := get?_eq_some_iff.1 hg
  obtain ⟨s, hs, -, hsa⟩ := occupant?_eq_some_iff.1 ha
  have hslots : (heap.slots.modify h.index fun s =>
      { s with occupant := s.occupant.map fun b => { b with object := a.object } })
      = heap.slots := by
    refine Array.ext_getElem? fun i => ?_
    rw [Array.getElem?_modify]
    split
    case isTrue hi =>
      subst hi
      rw [hs, Option.map_some, hsa]
      obtain ⟨generation, marked, occupant⟩ := s
      obtain rfl : occupant = some a := hsa
      rfl
    case isFalse => rfl
  rw [put, ha, Option.isSome_some, if_pos rfl, hslots]

end Heap

namespace World

/-- An engine with an object in its heap is in the table. -/
theorem index_lt_of_get? (hg : (w.engine e).heap.get? h = some o) :
    e.index < w.engines.length := by
  refine Nat.lt_of_not_le fun hle => ?_
  have hnew : w.engine e = default := by
    rw [engine, List.getD_eq_getElem?_getD, List.getElem?_eq_none hle, Option.getD_none]
  rw [hnew] at hg
  cases hg

/-- An engine that is in the table is put down as it was. -/
theorem modifyEngine_eq_self {f : Engine → Engine} (hi : e.index < w.engines.length)
    (hf : f (w.engine e) = w.engine e) : w.modifyEngine e f = w := by
  have key : ∀ (l : List Engine) (i : Nat), i < l.length →
      f (l.getD i default) = l.getD i default → alter f l i = l := by
    intro l i
    induction l, i using alter.induct with
    | case1 => simp
    | case2 i ih => simp
    | case3 s l => simp [alter]
    | case4 s l i ih => simpa [alter] using ih
  simp only [modifyEngine, key w.engines e.index hi hf]

/-- **The world with another object in the place of one**, into which a value was put
that goes on record if it was stale. -/
def storing (w : World κ) (e : EngineId) (h : Handle) (o : HeapObject) (v : Value) : World κ :=
  (w.recordStale e ((w.engine e).heap.staleAmong [v]).1).modifyEngine e fun s =>
    { s with heap := s.heap.put h o }

/-- Storing changes the one heap. -/
theorem engine_storing (w : World κ) (e e' : EngineId) (h : Handle) (o : HeapObject)
    (v : Value) :
    (w.storing e h o v).engine e' =
      if e = e' then { w.engine e with heap := (w.engine e).heap.put h o } else w.engine e' := by
  rw [storing, engine_modifyEngine, engine_recordStale, engine_recordStale]

/-- What is stored is there. -/
theorem get?_storing (hg : (w.engine e).heap.get? h = some o) (o' : HeapObject) (v : Value) :
    ((w.storing e h o' v).engine e).heap.get? h = some o' := by
  rw [engine_storing, if_pos rfl]
  exact Heap.get?_put_self hg o'

/-- Storing adds no engine. -/
theorem index_lt_storing (hg : (w.engine e).heap.get? h = some o) (o' : HeapObject) (v : Value) :
    e.index < (w.storing e h o' v).engines.length :=
  index_lt_of_get? (get?_storing hg o' v)

end World

namespace Act

/-- **What is done with the lock held**, when it leaves the lock as it is. -/
theorem locked_of_ok {a : Act κ α} {w' : World κ} {x : α} (hi : e.index < w'.engines.length)
    (ha : a (w.modifyEngine e fun s => { s with lock := s.lock.take })
      = .ok x (w'.modifyEngine e fun s => { s with lock := s.lock.take })) :
    Act.locked e a w = .ok x w' := by
  refine locked_eq_ok.2 ⟨_, ha, ?_⟩
  rw [World.modifyEngine_modifyEngine]
  exact World.modifyEngine_eq_self hi rfl

end Act

/-! ## Reading, writing and listing -/

/-- The object has no host. -/
def HeapObject.hostless : HeapObject → Bool
  | host .. => false
  | _ => true

namespace Machine

open Act

variable (m : Machine κ) (name : String) (v : Value)

/-- An object that is there is read off the heap. -/
theorem object_of_get? (hl : (w.engine e).loan.allowsRead = true)
    (hg : (w.engine e).heap.get? h = some o) : (Act.object e h).run w = .ok (.ok o) w := by
  have hread := readHeap_of_allowsRead hl fun heap => heap.get h
  rwa [Heap.get_eq_ok_iff.2 hg] at hread

/-- What is read off the heap is the object that is there. -/
theorem eq_of_object {w' : World κ} (ho : (Act.object e h).run w = .ok (.ok o) w') :
    (w.engine e).heap.get? h = some o ∧ w' = w := by
  obtain ⟨ho, hw⟩ := eq_of_readHeap (f := (Heap.get · h)) ho
  exact ⟨Heap.get_eq_ok_iff.1 ho.symm, hw⟩

/-- Reading an object that is there does not fail, and a sequence goes on with the object. -/
theorem object_andThen {w' : World κ} {f : HeapObject → Attempt κ α} {r : Except EngineError α}
    (hg : (w.engine e).heap.get? h = some o)
    (hrun : (Act.object e h >>= f).run w = .ok r w') : (f o).run w = .ok r w' := by
  obtain ⟨x, w₁, hx, hrest⟩ := andThen_cases hrun
  obtain ⟨rfl, rfl⟩ := eq_of_readHeap (f := (Heap.get · h)) hx
  rw [Heap.get_eq_ok_iff.2 hg] at hrest
  obtain ⟨_, herr, -⟩ | ⟨_, hok, hf⟩ := hrest
  · cases herr
  · cases hok
    exact hf

/-- **Reading** an object without a host. -/
theorem get_of_hostless (hl : (w.engine e).loan.allowsRead = true)
    (hg : (w.engine e).heap.get? h = some o) (ho : o.hostless = true) :
    (m.get e (.object h) name).run w = .ok (.ok (ownProperty o name)) w := by
  refine locked_of_ok (World.index_lt_of_get? hg) ?_
  refine (andThen_of_ok (x := Act.expectHandle (.object h)) (b := h) rfl).trans ?_
  refine (andThen_of_ok (object_of_get? (o := o) (by simpa using hl) (by simpa using hg))).trans ?_
  cases o with
  | host host expandos => cases ho
  | _ => rfl

/-- **Listing** an object without a host. -/
theorem names_of_hostless (hl : (w.engine e).loan.allowsRead = true)
    (hg : (w.engine e).heap.get? h = some o) (ho : o.hostless = true) :
    (m.names e (.object h)).run w = .ok (.ok (ownNames o)) w := by
  refine locked_of_ok (World.index_lt_of_get? hg) ?_
  refine (andThen_of_ok (x := Act.expectHandle (.object h)) (b := h) rfl).trans ?_
  refine (andThen_of_ok (object_of_get? (o := o) (by simpa using hl) (by simpa using hg))).trans ?_
  cases o with
  | host host expandos => cases ho
  | _ => rfl

/-- What is written to an object without a host. -/
theorem storeOwn_of_hostless {heap : Heap} (hg : heap.get? h = some o) (ho : o.hostless = true) :
    storeOwn h name v heap = match withProperty o name v with
      | .ok o' => (.ok none, heap.put h o')
      | .error fault => (.error (.typeError fault), heap) := by
  unfold storeOwn
  rw [Heap.get_eq_ok_iff.2 hg]
  cases o with
  | host host expandos => cases ho
  | _ => rfl

/-- **Writing** to an object without a host, which takes the property. -/
theorem set_of_hostless (hl : (w.engine e).loan = .none)
    (hg : (w.engine e).heap.get? h = some o) (ho : o.hostless = true)
    (hw : withProperty o name v = .ok o') :
    (m.set e (.object h) name v).run w = .ok (.ok ()) (w.storing e h o' v) := by
  refine locked_of_ok (World.index_lt_storing hg o' v) ?_
  refine (andThen_of_ok (x := Act.expectHandle (.object h)) (b := h) rfl).trans ?_
  have hstore := storeHeap_of_allowsWrite (e := e)
    (w := w.modifyEngine e fun s => { s with lock := s.lock.take })
    (by simp [hl, Loan.allowsWrite]) [v] storedOwn (storeOwn h name v)
  simp only [World.engine_modifyEngine_self, storeOwn_of_hostless name v hg ho, hw, storedOwn,
    if_true, World.recordStale_modifyEngine, World.modifyEngine_modifyEngine] at hstore
  refine (andThen_of_ok (b := none) hstore).trans ?_
  show EStateM.Result.ok _ _ = EStateM.Result.ok _ _
  rw [World.storing, World.modifyEngine_modifyEngine]
  congr 1
  refine World.modifyEngine_congr ?_
  rw [World.engine_recordStale]
  rfl

/-- **Writing** to an object without a host, which refuses the property. -/
theorem set_of_refusal (hl : (w.engine e).loan = .none)
    (hg : (w.engine e).heap.get? h = some o) (ho : o.hostless = true) {fault : TypeFault}
    (hw : withProperty o name v = .error fault) :
    (m.set e (.object h) name v).run w = .ok (.error (.typeError fault)) w := by
  refine locked_of_ok (World.index_lt_of_get? hg) ?_
  refine (andThen_of_ok (x := Act.expectHandle (.object h)) (b := h) rfl).trans ?_
  refine andThen_eq_error.2 (.inl ?_)
  show storeHeap e [v] storedOwn (storeOwn h name v) _ = _
  rw [storeHeap_of_isCurrent, writeHeap_of_allowsWrite]
  · simp only [World.engine_modifyEngine_self, storeOwn_of_hostless name v hg ho, hw,
      World.modifyEngine_modifyEngine]
    exact congrArg _ (World.modifyEngine_congr rfl)
  · simp [hl, Loan.allowsWrite]
  · simp [storeOwn_of_hostless name v hg ho, hw, storedOwn]

/-! ## Arrays -/

variable {els els' : Elements} {f : Elements → Except TypeFault (α × Elements)}

theorem changeArray_of_ok {heap : Heap} (hg : heap.get? h = some (.array els)) {a : α}
    (hf : f els = .ok (a, els')) :
    changeArray h f heap = (.ok a, heap.put h (.array els')) := by
  simp only [changeArray, Heap.get_eq_ok_iff.2 hg, hf]

theorem changeArray_of_error {heap : Heap} (hg : heap.get? h = some (.array els))
    {fault : TypeFault} (hf : f els = .error fault) :
    changeArray h f heap = (.error (.typeError fault), heap) := by
  simp only [changeArray, Heap.get_eq_ok_iff.2 hg, hf]

/-- **Looking at an array**, or taking an element away. -/
theorem withArray_of_ok (hl : (w.engine e).loan = .none)
    (hg : (w.engine e).heap.get? h = some (.array els)) {a : α} (hf : f els = .ok (a, els')) :
    (withArray e (.object h) f).run w = .ok (.ok a)
      (w.modifyEngine e fun s => { s with heap := s.heap.put h (.array els') }) := by
  refine (andThen_of_ok (x := Act.expectHandle (.object h)) (b := h) rfl).trans ?_
  show writeHeap e (changeArray h f) w = _
  rw [writeHeap_of_allowsWrite (by simp [hl, Loan.allowsWrite]), changeArray_of_ok hg hf]
  exact congrArg _ (World.modifyEngine_congr rfl)

/-- Looking at an array leaves the world as it is. -/
theorem withArray_of_read (hl : (w.engine e).loan = .none)
    (hg : (w.engine e).heap.get? h = some (.array els)) {a : α} (hf : f els = .ok (a, els)) :
    (withArray e (.object h) f).run w = .ok (.ok a) w := by
  rw [withArray_of_ok hl hg hf, World.modifyEngine_eq_self (World.index_lt_of_get? hg)]
  rw [Heap.put_of_get? hg]

/-- **Putting a value among the elements of an array.** -/
theorem storeElement_of_ok (hl : (w.engine e).loan = .none)
    (hg : (w.engine e).heap.get? h = some (.array els)) {a : α} (hf : f els = .ok (a, els')) :
    (storeElement e (.object h) v f).run w
      = .ok (.ok a) (w.storing e h (.array els') v) := by
  refine (andThen_of_ok (x := Act.expectHandle (.object h)) (b := h) rfl).trans ?_
  show storeHeap e [v] (·.isOk) (changeArray h f) w = _
  rw [storeHeap_of_allowsWrite (by simp [hl, Loan.allowsWrite]), changeArray_of_ok hg hf]
  refine congrArg _ (World.modifyEngine_congr ?_)
  rw [World.engine_recordStale]

/-- A value that the array refuses changes nothing. -/
theorem storeElement_of_error (hl : (w.engine e).loan = .none)
    (hg : (w.engine e).heap.get? h = some (.array els)) {fault : TypeFault}
    (hf : f els = .error fault) :
    (storeElement e (.object h) v f).run w = .ok (.error (.typeError fault)) w := by
  refine (andThen_of_ok (x := Act.expectHandle (.object h)) (b := h) rfl).trans ?_
  show storeHeap e [v] (·.isOk) (changeArray h f) w = _
  rw [storeHeap_of_isCurrent, writeHeap_of_allowsWrite (by simp [hl, Loan.allowsWrite]),
    changeArray_of_error hg hf]
  · exact congrArg _ (World.modifyEngine_eq_self (World.index_lt_of_get? hg) rfl)
  · intro hstored
    rw [changeArray_of_error hg hf] at hstored
    cases hstored

end Machine

/-! ## Making objects -/

namespace Machine

open Act

variable {m : Machine κ}

/-- An object is put into a heap that nobody has and that has room. -/
theorem allocate_of_room (hl : (w.engine e).loan = .none)
    (hr : (w.engine e).heap.refusal? = none) (o : HeapObject) :
    (m.allocate e o).run w = .ok (.ok (.object ((w.engine e).heap.place o).1))
      (w.modifyEngine e fun s => { s with heap := ((w.engine e).heap.place o).2 }) := by
  refine bind_eq_ok.2 ⟨.ok ((w.engine e).heap.place o).1, _, ?_, rfl⟩
  rw [writeHeap_of_allowsWrite (by rw [hl]; rfl), offer_of_room hr]

/-- **A refused object is dropped** while the heap is lent out. -/
theorem allocate_of_refusal {w' : World κ} (hl : (w.engine e).loan = .none) {err : EngineError}
    (hr : (w.engine e).heap.refusal? = some err) {o : HeapObject}
    (hd : m.releaseAll [o] (w.lend e .exclusive) = .ok () w') :
    (m.allocate e o).run w = .ok (.error err) (w'.lend e .none) := by
  refine bind_eq_ok.2 ⟨.error err, w.modifyEngine e fun s => { s with heap := (w.engine e).heap },
    ?_, bind_eq_ok.2 ⟨(), w'.lend e .none, ?_, rfl⟩⟩
  · rw [writeHeap_of_allowsWrite (by rw [hl]; rfl), offer_of_refusal hr]
  · refine within_eq_ok.2 ⟨w', ?_, rfl⟩
    rw [World.modifyEngine_modifyEngine, World.modifyEngine_congr (w := w) (e := e)
      (g := fun s => { s with loan := .exclusive }) rfl]
    exact hd

/-- An error is raised where there is room for one. -/
theorem raise_of_room (hl : (w.engine e).loan = .none)
    (hr : (w.engine e).heap.refusal? = none) (cls : ThrownClass) (message : String) :
    m.raise e cls message w
      = .ok (.exception (.object ((w.engine e).heap.place (errorObject cls message)).1))
          (w.modifyEngine e fun s =>
            { s with heap := ((w.engine e).heap.place (errorObject cls message)).2 }) :=
  bind_eq_ok.2 ⟨_, _, allocate_of_room hl hr _, rfl⟩

/-- Where there is none, that is the error. The error object owns no native, so nothing is let
go of with it. -/
theorem raise_of_refusal (hl : (w.engine e).loan = .none)
    {err : EngineError} (hr : (w.engine e).heap.refusal? = some err) (cls : ThrownClass)
    (message : String) :
    m.raise e cls message w = .ok err ((w.lend e .exclusive).lend e .none) :=
  bind_eq_ok.2 ⟨_, _, allocate_of_refusal hl hr rfl, rfl⟩

end Machine

end EmbeddedScript
