import EmbeddedScript.Heap.Elements
import EmbeddedScript.Proofs.Heap.Change

/-!
# What live objects hold

A heap object refers to others by handles, and a handle can go stale. In a heap that is
**intact** no object holds a stale handle. A collection keeps a heap intact, since it
frees nothing that a survivor holds; placing and storing keep it intact if what they put
into it is live at that moment. So a change of a heap is **backed** if every handle that
is held afterwards was held before or is live (`Heap.Backs`), and backed changes are all
that it takes: nothing that is held ever goes stale, or comes to denote another object
than it did when it was stored (`Heap.Change.identity?_of_held`).
-/

namespace EmbeddedScript

/-! ## Values that are put into objects -/

/-- A property that is set has the new value, and the others have theirs. -/
theorem Properties.mem_of_mem_setEntries {name : String} {a v : Value} {l : List (String × Value)}
    (h : v ∈ (setEntries name a l).map (·.2)) : v = a ∨ v ∈ l.map (·.2) := by
  induction l with
  | nil => simpa [setEntries] using h
  | cons entry l ih =>
    obtain ⟨other, b⟩ := entry
    unfold setEntries at h
    split at h
    · rw [List.map_cons, List.mem_cons] at h ⊢
      exact h.imp_right .inr
    · rw [List.map_cons, List.mem_cons] at h ⊢
      rcases h with rfl | h
      · exact .inr (.inl rfl)
      · exact (ih h).imp_right .inr

theorem Properties.mem_values_set {p : Properties Value} {name : String} {a v : Value}
    (h : v ∈ (p.set name a).values) : v = a ∨ v ∈ p.values :=
  mem_of_mem_setEntries h

namespace Elements

variable {els els' : Elements} {u v : Value} {i : Nat} {name : String}

theorem not_mem_holes (length : Nat) : some u ∉ holes length := by
  unfold holes
  simp

theorem not_mem_of_create {length : Nat} (hc : create length = .ok els) : some u ∉ els := by
  unfold create at hc
  split at hc
  · cases hc
  · cases hc
    exact not_mem_holes length

theorem mem_ofList {items : List Value} : some u ∈ ofList items ↔ u ∈ items := by
  simp [ofList]

theorem mem_of_mem_resize {length : Nat} (h : some u ∈ els.resize length) : some u ∈ els := by
  unfold resize at h
  rcases Array.mem_append.1 h with h | h
  · rw [Array.mem_def, Array.take, Array.toList_extract, List.extract_eq_take_drop] at h
    exact Array.mem_def.2 (List.mem_of_mem_drop (List.mem_of_mem_take h))
  · exact absurd h (not_mem_holes _)

theorem mem_of_mem_store (hs : els.store i v = .ok els') (h : some u ∈ els') :
    u = v ∨ some u ∈ els := by
  unfold store at hs
  split at hs
  · cases hs
    rcases Array.mem_or_eq_of_mem_setIfInBounds h with h | h
    · exact .inr h
    · exact .inl (Option.some.inj h)
  · split at hs
    · cases hs
    · cases hs
      rcases Array.mem_push.1 h with h | h
      · exact .inr (mem_of_mem_resize h)
      · exact .inl (Option.some.inj h)

theorem mem_of_mem_setProperty (hs : els.setProperty name v = .ok els') (h : some u ∈ els') :
    u = v ∨ some u ∈ els := by
  unfold setProperty at hs
  split at hs
  · split at hs
    · cases hs
      exact .inr (mem_of_mem_resize h)
    · cases hs
  · split at hs
    · exact mem_of_mem_store hs h
    · cases hs

end Elements

namespace HeapObject

variable {o : HeapObject} {v : Value} {k : Handle}

/-- The handles that an object holds are those of the objects among its values. -/
theorem mem_edges : k ∈ o.edges ↔ .object k ∈ o.references := by
  unfold edges
  rw [List.mem_filterMap]
  constructor
  · rintro ⟨v, hv, hk⟩
    rwa [← Value.handle?_eq_some_iff.1 hk]
  · intro h
    exact ⟨_, h, rfl⟩

theorem mem_references_array {els : Elements} :
    v ∈ (array els).references ↔ some v ∈ els := by
  unfold references
  rw [List.mem_filterMap, Array.mem_def]
  simp

end HeapObject

namespace Heap

variable {heap heap' : Heap} {h h' k : Handle} {o o' : HeapObject} {v : Value}
  {collects : Prop} {roots : RootSet}

/-! ## Backed changes -/

/-- **No object holds a stale handle.** -/
def Intact (heap : Heap) : Prop := ∀ h k, k ∈ heap.edgesAt h → heap.isLive k = true

/-- **What is held after the change was held before**, by the same object, or was live. -/
def Backs (heap heap' : Heap) : Prop :=
  ∀ h k, k ∈ heap'.edgesAt h → k ∈ heap.edgesAt h ∨ heap.isLive k = true

theorem Backs.refl (heap : Heap) : heap.Backs heap := fun _ _ hk => .inl hk

/-- What an object that is there holds. -/
theorem edgesAt_of_get? (hg : heap.get? h = some o) : heap.edgesAt h = o.edges := by
  rw [edgesAt, hg]
  rfl

/-- A collection empties the objects that it frees and no other. -/
theorem edgesAt_collect (heap : Heap) (roots : RootSet) (stats : GcStats) (h : Handle) :
    (heap.collect roots stats).2.1.edgesAt h =
      if heap.survives roots h then heap.edgesAt h else [] := by
  rw [edgesAt, get?, occupant?_collect]
  split <;> rfl

theorem edgesAt_place (hw : heap.WellFormed) (o : HeapObject) (h : Handle) :
    (heap.place o).2.edgesAt h =
      if h = (heap.place o).1 then o.edges else heap.edgesAt h := by
  rw [edgesAt, get?, occupant?_place hw]
  split <;> rfl

/-- What is put into an object is held by that object only. -/
theorem mem_edgesAt_put (hk : k ∈ (heap.put h o).edgesAt h') :
    (h' = h ∧ k ∈ o.edges) ∨ k ∈ heap.edgesAt h' := by
  by_cases hh : h' = h
  · subst hh
    rw [edgesAt, get?, occupant?_put_self] at hk
    cases ha : heap.occupant? h' with
    | none =>
      rw [ha] at hk
      exact absurd hk List.not_mem_nil
    | some a =>
      rw [ha] at hk
      exact .inl ⟨rfl, hk⟩
  · rw [edgesAt, get?, occupant?_put_of_ne heap o hh] at hk
    exact .inr hk

/-- A value is current when the object that it is, if it is one, is live. -/
theorem isCurrent_iff : heap.isCurrent v = true ↔ ∀ k, v = .object k → heap.isLive k = true := by
  cases v <;> simp [isCurrent, Value.handle?]

/-- None of the values is stale when all are current. -/
theorem staleAmong_eq_nil_iff {vs : List Value} :
    (heap.staleAmong vs).1 = [] ↔ ∀ v ∈ vs, heap.isCurrent v = true := by
  simp [staleAmong]

theorem isLive_of_mem_edges (ho : ∀ v ∈ o.references, heap.isCurrent v = true)
    (hk : k ∈ o.edges) : heap.isLive k = true :=
  isCurrent_iff.1 (ho _ (HeapObject.mem_edges.1 hk)) k rfl

/-- **Storing is backed** if the object holds what it held before and values that are
current. -/
theorem backs_put (hg : heap.get? h = some o)
    (ho : ∀ v ∈ o'.references, v ∈ o.references ∨ heap.isCurrent v = true) :
    heap.Backs (heap.put h o') := by
  intro h' k hk
  rcases mem_edgesAt_put hk with ⟨rfl, hnew⟩ | hold
  · rw [edgesAt_of_get? hg]
    exact (ho _ (HeapObject.mem_edges.1 hnew)).imp HeapObject.mem_edges.2
      fun hv => isCurrent_iff.1 hv k rfl
  · exact .inl hold

/-- **Placing is backed** if what the new object holds is current. -/
theorem backs_place (hw : heap.WellFormed) (ho : ∀ v ∈ o.references, heap.isCurrent v = true) :
    heap.Backs (heap.place o).2 := by
  intro h' k hk
  rw [edgesAt_place hw] at hk
  split at hk
  · exact .inr (isLive_of_mem_edges ho hk)
  · exact .inl hk

/-- **Collecting is backed.** -/
theorem backs_collect (heap : Heap) (roots : RootSet) (stats : GcStats) :
    heap.Backs (heap.collect roots stats).2.1 := by
  intro h' k hk
  rw [edgesAt_collect] at hk
  split at hk
  · exact .inl hk
  · exact absurd hk List.not_mem_nil

/-- A heap without slots holds nothing. -/
@[simp] theorem edgesAt_of_limit (limit : Nat) (h : Handle) :
    ({ limit := limit } : Heap).edgesAt h = [] := by
  simp [edgesAt, get?, occupant?, slot?]

theorem backs_limit (heap : Heap) (limit : Nat) : heap.Backs { limit := limit } := by
  intro h' k hk
  rw [edgesAt_of_limit] at hk
  exact absurd hk List.not_mem_nil

/-! ## Nothing that is held goes stale -/

/-- **What is held after a backed change** of an intact heap denotes the object that it
denoted before. A collection that frees what the object was frees what held it, too. -/
theorem Change.identity?_of_held (hc : Change collects roots heap heap') (hs : heap.Sound)
    (hi : heap.Intact) (hb : heap.Backs heap') (hk : k ∈ heap'.edgesAt h) :
    ∃ i, heap.identity? k = some i ∧ heap'.identity? k = some i := by
  have hlive : heap.isLive k = true := (hb h k hk).elim (hi h k) id
  obtain ⟨i, hid⟩ := isLive_iff_exists_identity?.1 hlive
  refine ⟨i, hid, ?_⟩
  cases hc with
  | placed _ _ => exact identity?_place_of_some hs.wellFormed _ hid
  | stored ho => rw [identity?_put ho, hid]
  | collected _ stats =>
    rw [edgesAt_collect] at hk
    split at hk
    case isTrue hsurvives => rw [identity?_collect, if_pos (survives_of_edge hsurvives hk hlive), hid]
    case isFalse => exact absurd hk List.not_mem_nil
  | opened limit _ =>
    rw [edgesAt_of_limit] at hk
    exact absurd hk List.not_mem_nil

/-- **What an object of an intact heap references** is current. -/
theorem Intact.isCurrent (hi : heap.Intact) (hg : heap.get? h = some o)
    (hv : v ∈ o.references) : heap.isCurrent v = true := by
  rw [isCurrent_iff]
  rintro k rfl
  exact hi h k (edgesAt_of_get? hg ▸ HeapObject.mem_edges.2 hv)

/-- A heap without slots is intact. -/
theorem intact_of_limit (limit : Nat) : ({ limit := limit } : Heap).Intact := by
  intro h k hk
  rw [edgesAt_of_limit] at hk
  exact absurd hk List.not_mem_nil

end Heap

end EmbeddedScript
