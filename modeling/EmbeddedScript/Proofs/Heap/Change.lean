import EmbeddedScript.Proofs.Heap.Survival

/-!
# Changes to a heap

The engine changes a heap in three ways: it places an object, it stores into one,
and it collects. `Heap.Change` lists them, with what the engine makes sure of
before it makes each. Everything that is said of all heaps an engine can have is
proved here once for each of the three.

**Which object** a handle denotes is its `Identity`: the birth of the occupant and
its shell, the object without its contents. Neither changes while the object
lives: storing keeps all identities (`Heap.identity?_put`), placing adds one, and a
collection drops those of the objects that it frees.
-/

namespace EmbeddedScript

/-- **An object without its contents**: its kind, the native it belongs to, and for
a host method all of it. -/
def HeapObject.shell : HeapObject → HeapObject
  | plain _ => plain .empty
  | array _ => array #[]
  | function name body _ => function name body .empty
  | hostMethod target name => hostMethod target name
  | host id _ => host id .empty

/-- What has the shell of a host method is that host method. -/
theorem HeapObject.eq_of_shell_eq_hostMethod {o : HeapObject} {target : Handle} {name : String}
    (hs : o.shell = .hostMethod target name) : o = .hostMethod target name := by
  cases o <;> simp_all [shell]

/-- **Which object it is.** -/
structure Identity where
  /-- The number of objects allocated in its heap before it. -/
  birth : Nat
  /-- The object without its contents. -/
  shell : HeapObject
deriving DecidableEq

/-- Which object an occupant is. -/
def Occupant.identity (a : Occupant) : Identity := ⟨a.birth, a.object.shell⟩

namespace Heap

variable {heap heap' : Heap} {h k t : Handle} {o : HeapObject} {i : Identity}
  {collects : Prop} {roots : RootSet} {name : String}

/-! ## Identities -/

/-- **Which object a handle denotes**, if it is not stale. -/
def identity? (heap : Heap) (h : Handle) : Option Identity :=
  (heap.occupant? h).map Occupant.identity

/-- A handle that denotes an object is live, and a live one denotes an object. -/
theorem isLive_iff_exists_identity? :
    heap.isLive h = true ↔ ∃ i, heap.identity? h = some i := by
  simp [isLive, identity?, Option.isSome_iff_exists]

/-- What a handle denotes has the shell of its identity. -/
theorem identity?_of_get? (ho : heap.get? h = some o) :
    ∃ b, heap.identity? h = some ⟨b, o.shell⟩ := by
  obtain ⟨a, ha, rfl⟩ := get?_eq_some_iff.1 ho
  exact ⟨a.birth, by rw [identity?, ha]; rfl⟩

/-- An identity is that of an object that is there. -/
theorem exists_get?_of_identity? (hi : heap.identity? h = some i) :
    ∃ o, heap.get? h = some o ∧ o.shell = i.shell := by
  obtain ⟨a, ha, rfl⟩ := Option.map_eq_some_iff.1 hi
  exact ⟨a.object, get?_eq_some_iff.2 ⟨a, ha, rfl⟩, rfl⟩

/-- **Storing keeps every identity**, as long as what is stored has the shell of
what it replaces. -/
theorem identity?_put (ho : ∀ a, heap.get? h = some a → o.shell = a.shell) (k : Handle) :
    (heap.put h o).identity? k = heap.identity? k := by
  by_cases hk : k = h
  · subst hk
    rw [identity?, occupant?_put_self, identity?]
    cases ha : heap.occupant? k with
    | none => rfl
    | some a =>
      have := ho a.object (get?_eq_some_iff.2 ⟨a, ha, rfl⟩)
      simp [Occupant.identity, this]
  · rw [identity?, occupant?_put_of_ne heap o hk, identity?]

/-- Placing adds the identity of the object placed. -/
theorem identity?_place (hw : heap.WellFormed) (o : HeapObject) (k : Handle) :
    (heap.place o).2.identity? k =
      if k = (heap.place o).1 then some ⟨heap.births, o.shell⟩ else heap.identity? k := by
  rw [identity?, occupant?_place hw, identity?]
  split <;> rfl

/-- Placing keeps every identity that there is. -/
theorem identity?_place_of_some (hw : heap.WellFormed) (o : HeapObject)
    (hi : heap.identity? k = some i) : (heap.place o).2.identity? k = some i := by
  obtain ⟨a, ha, rfl⟩ := Option.map_eq_some_iff.1 hi
  rw [identity?, occupant?_place_of_some hw o ha, Option.map_some]

/-- A heap refuses an object for want of room only. -/
theorem eq_heapLimit_of_refusal {err : EngineError} (hr : heap.refusal? = some err) :
    ∃ limit, err = .heapLimit limit := by
  unfold refusal? at hr
  split at hr
  · exact ⟨_, (Option.some.inj hr).symm⟩
  · split at hr
    · exact ⟨_, (Option.some.inj hr).symm⟩
    · cases hr

/-- A collection drops the identities of what it frees. -/
theorem identity?_collect (heap : Heap) (roots : RootSet) (stats : GcStats) (h : Handle) :
    (heap.collect roots stats).2.1.identity? h =
      if heap.survives roots h then heap.identity? h else none := by
  rw [identity?, occupant?_collect, identity?]
  split <;> rfl

/-! ## Host wrappers -/

/-- The handle denotes a host wrapper. -/
def IsHost (heap : Heap) (h : Handle) : Prop :=
  ∃ b id, heap.identity? h = some ⟨b, .host id .empty⟩

/-- What denotes a host wrapper is one with some properties of its own. -/
theorem get?_of_host {b : Nat} {id : NativeId}
    (hi : heap.identity? h = some ⟨b, .host id .empty⟩) :
    ∃ expandos, heap.get? h = some (.host id expandos) := by
  obtain ⟨o, ho, hs⟩ := exists_get?_of_identity? hi
  cases o with
  | host id' expandos =>
    obtain rfl : id' = id := by simpa [HeapObject.shell] using hs
    exact ⟨expandos, ho⟩
  | _ => simp [HeapObject.shell] at hs

/-- The handle denotes a host method of a wrapper. -/
def IsMethodOf (heap : Heap) (h wrapper : Handle) : Prop :=
  ∃ b name, heap.identity? h = some ⟨b, .hostMethod wrapper name⟩

/-- What denotes a host method is that host method. -/
theorem get?_of_hostMethod {b : Nat} {name : String}
    (hi : heap.identity? h = some ⟨b, .hostMethod t name⟩) :
    heap.get? h = some (.hostMethod t name) := by
  obtain ⟨o, ho, hs⟩ := exists_get?_of_identity? hi
  rw [ho, HeapObject.eq_of_shell_eq_hostMethod hs]

/-- A host method refers to its wrapper. -/
theorem IsMethodOf.mem_edgesAt (hm : heap.IsMethodOf h t) : t ∈ heap.edgesAt h := by
  obtain ⟨b, name, hi⟩ := hm
  simp [edgesAt, get?_of_hostMethod hi, HeapObject.edges, HeapObject.references]

/-- A host wrapper is live. -/
theorem IsHost.isLive (hh : heap.IsHost h) : heap.isLive h = true := by
  obtain ⟨b, id, hi⟩ := hh
  exact isLive_iff_exists_identity?.2 ⟨_, hi⟩

/-- Heaps with the same identities have the same host wrappers. -/
theorem IsHost.of_identity?_eq (he : heap'.identity? h = heap.identity? h)
    (hh : heap.IsHost h) : heap'.IsHost h := by
  obtain ⟨b, id, hi⟩ := hh
  exact ⟨b, id, he.trans hi⟩

/-- Heaps with the same identities have the same host methods. -/
theorem IsMethodOf.of_identity?_eq (he : heap'.identity? h = heap.identity? h)
    (hm : heap.IsMethodOf h t) : heap'.IsMethodOf h t := by
  obtain ⟨b, name, hi⟩ := hm
  exact ⟨b, name, he.trans hi⟩

/-! ## Sound heaps -/

/-- **What holds of every heap that an engine can have.** -/
structure Sound (heap : Heap) : Prop where
  /-- The free list is true to the slots. -/
  wellFormed : heap.WellFormed
  /-- Births lie in the past. -/
  birth_lt : ∀ h i, heap.identity? h = some i → i.birth < heap.births
  /-- Only one object has a given birth. -/
  birth_inj : ∀ h k i j, heap.identity? h = some i → heap.identity? k = some j →
    i.birth = j.birth → h = k
  /-- The wrapper of a host method is a host wrapper. -/
  isHost : ∀ h t, heap.IsMethodOf h t → heap.IsHost t

/-- In a heap without slots nothing is denoted. -/
@[simp] theorem identity?_of_limit (limit : Nat) (h : Handle) :
    ({ limit := limit } : Heap).identity? h = none := by
  simp [identity?, occupant?, slot?]

/-- A heap without slots is sound. -/
theorem Sound.of_limit (limit : Nat) : ({ limit := limit } : Heap).Sound := by
  refine ⟨.of_limit limit, fun h i hi => ?_, fun h k i j hi => ?_, fun h t hm => ?_⟩
  · simp at hi
  · simp at hi
  · obtain ⟨b, name, hi⟩ := hm
    simp at hi

/-- The object can be put into the heap: if it is a host method, its wrapper is
one. -/
def CanHold (heap : Heap) (o : HeapObject) : Prop :=
  ∀ t name, o = .hostMethod t name → heap.IsHost t

/-- **A change that the engine makes to a heap** while it stands with these roots; a
collection is one only where collections are allowed. -/
inductive Change (collects : Prop) (roots : RootSet) (heap : Heap) : Heap → Prop
  /-- An object is placed that the heap does not refuse. -/
  | placed {o : HeapObject} (hr : heap.refusal? = none) (ho : heap.CanHold o) :
      Change collects roots heap (heap.place o).2
  /-- The contents of an object are replaced. -/
  | stored {h : Handle} {o : HeapObject} (ho : ∀ a, heap.get? h = some a → o.shell = a.shell) :
      Change collects roots heap (heap.put h o)
  /-- The heap is collected. -/
  | collected (hc : collects) (stats : GcStats) :
      Change collects roots heap (heap.collect roots stats).2.1
  /-- A heap without slots gets its limit. -/
  | opened (limit : Nat) (he : heap = {}) : Change collects roots heap { limit := limit }

/-- A change other than a collection is one where collections are not allowed. -/
theorem Change.quiet_or_collected (hc : Change collects roots heap heap') :
    Change False roots heap heap' ∨ ∃ stats, heap' = (heap.collect roots stats).2.1 := by
  cases hc with
  | placed hr ho => exact .inl (.placed hr ho)
  | stored ho => exact .inl (.stored ho)
  | collected _ stats => exact .inr ⟨stats, rfl⟩
  | opened limit he => exact .inl (.opened limit he)

/-- What is a change where less is allowed is one where more is. -/
theorem Change.mono {collects' : Prop} (hm : collects → collects')
    (hc : Change collects roots heap heap') : Change collects' roots heap heap' := by
  cases hc with
  | placed hr ho => exact .placed hr ho
  | stored ho => exact .stored ho
  | collected hc stats => exact .collected (hm hc) stats
  | opened limit he => exact .opened limit he

/-- The births are a count, and a collection goes on with it. -/
@[simp] theorem births_collect (heap : Heap) (roots : RootSet) (stats : GcStats) :
    (heap.collect roots stats).2.1.births = heap.births := by
  have := congrArg Heap.births (unmarkAll_markFrom heap.unmarkAll roots.handles)
  exact this

/-- Storing allocates nothing. -/
@[simp] theorem births_put (heap : Heap) (h : Handle) (o : HeapObject) :
    (heap.put h o).births = heap.births := by
  unfold put
  split <;> rfl

/-- Placing is a birth. -/
@[simp] theorem births_place (heap : Heap) (o : HeapObject) :
    (heap.place o).2.births = heap.births + 1 := by
  unfold place
  split <;> rfl

/-- Storing keeps a heap sound, as it keeps all identities. -/
theorem Sound.put (hs : heap.Sound) (ho : ∀ a, heap.get? h = some a → o.shell = a.shell) :
    (heap.put h o).Sound := by
  have he := identity?_put ho
  refine ⟨hs.wellFormed.put h o, fun k i hi => ?_, fun k l i j hi hj => ?_, fun k t hm => ?_⟩
  · rw [births_put]
    exact hs.birth_lt k i ((he k).symm.trans hi)
  · exact hs.birth_inj k l i j ((he k).symm.trans hi) ((he l).symm.trans hj)
  · exact (hs.isHost k t (hm.of_identity?_eq (he k).symm)).of_identity?_eq (he t)

/-- Placing keeps a heap sound: the new object is the only one of its birth. -/
theorem Sound.place (hs : heap.Sound) (ho : heap.CanHold o) : (heap.place o).2.Sound := by
  have he := identity?_place hs.wellFormed o
  have hhost : ∀ t, heap.IsHost t → (heap.place o).2.IsHost t := fun t ⟨b, id, hi⟩ =>
    ⟨b, id, identity?_place_of_some hs.wellFormed o hi⟩
  refine ⟨hs.wellFormed.place o, fun k i hi => ?_, fun k l i j hi hj hb => ?_, fun k t hm => ?_⟩
  · rw [births_place]
    rw [he] at hi
    split at hi
    · obtain rfl := Option.some.inj hi
      exact Nat.lt_succ_self _
    · exact Nat.lt_succ_of_lt (hs.birth_lt k i hi)
  · rw [he] at hi hj
    split at hi <;> split at hj
    · simp_all
    · obtain rfl := Option.some.inj hi
      exact absurd hb (Nat.ne_of_gt (hs.birth_lt l j hj))
    · obtain rfl := Option.some.inj hj
      exact absurd hb (Nat.ne_of_lt (hs.birth_lt k i hi))
    · exact hs.birth_inj k l i j hi hj hb
  · obtain ⟨b, name, hi⟩ := hm
    rw [he] at hi
    split at hi
    · have hshell : o.shell = .hostMethod t name := congrArg Identity.shell (Option.some.inj hi)
      exact hhost t (ho t name (HeapObject.eq_of_shell_eq_hostMethod hshell))
    · exact hhost t (hs.isHost k t ⟨b, name, hi⟩)

/-- A collection keeps a heap sound: with a host method survives its wrapper. -/
theorem Sound.collect (hs : heap.Sound) (roots : RootSet) (stats : GcStats) :
    (heap.collect roots stats).2.1.Sound := by
  have he := identity?_collect heap roots stats
  have hback : ∀ k i, (heap.collect roots stats).2.1.identity? k = some i →
      heap.survives roots k = true ∧ heap.identity? k = some i := fun k i hi => by
    rw [he] at hi
    split at hi
    case isTrue hk => exact ⟨hk, hi⟩
    case isFalse => simp at hi
  refine ⟨hs.wellFormed.collect roots stats, fun k i hi => ?_, fun k l i j hi hj => ?_,
    fun k t hm => ?_⟩
  · rw [births_collect]
    exact hs.birth_lt k i (hback k i hi).2
  · exact hs.birth_inj k l i j (hback k i hi).2 (hback l j hj).2
  · obtain ⟨b, name, hi⟩ := hm
    obtain ⟨hk, hi⟩ := hback k _ hi
    have hm : heap.IsMethodOf k t := ⟨b, name, hi⟩
    have hhost := hs.isHost k t hm
    -- the wrapper is an edge of its host method, so it survives with it
    have ht := survives_of_edge hk hm.mem_edgesAt hhost.isLive
    exact hhost.of_identity?_eq (by rw [he, if_pos ht])

/-- **Every change keeps a heap sound.** -/
theorem Change.sound (hc : Change collects roots heap heap') (hs : heap.Sound) : heap'.Sound := by
  cases hc with
  | placed _ ho => exact hs.place ho
  | stored ho => exact hs.put ho
  | collected _ stats => exact hs.collect roots stats
  | opened limit _ => exact .of_limit limit

/-! ## What a change keeps -/

/-- **Only a collection frees.** -/
theorem Change.identity?_of_some (hc : Change False roots heap heap') (hs : heap.Sound)
    (hi : heap.identity? h = some i) : heap'.identity? h = some i := by
  cases hc with
  | @placed o _ _ => exact identity?_place_of_some hs.wellFormed o hi
  | stored ho => rw [identity?_put ho, hi]
  | collected hc _ => exact hc.elim
  | opened limit he => simp [he] at hi

/-- **What is reachable from the roots stays the object that it is.** -/
theorem Change.identity?_of_reaches (hc : Change collects roots heap heap') (hs : heap.Sound)
    (hr : heap.Reaches roots.handles h) : heap'.identity? h = heap.identity? h := by
  obtain ⟨i, hi⟩ := isLive_iff_exists_identity?.1 hr.isLive
  cases hc with
  | @placed o _ _ => rw [identity?_place_of_some hs.wellFormed o hi, hi]
  | stored ho => rw [identity?_put ho]
  | collected _ stats => rw [identity?_collect, if_pos hr.survives]
  | opened limit he => simp [he] at hi

end Heap

end EmbeddedScript
