import EmbeddedScript.Proofs.Machine.Tracking

/-!
# Engine operations go on excursions

Each operation of the engine can be followed in any regime that has something to say about
its pieces; this module says it for terrains, so each operation goes on an excursion
whenever natives do. Two kinds need more than that.

Reading a method of a host allocates a **host method**, and the heap takes one only for a
host wrapper. The wrapper was one before its host was asked. It still is, because the
operation has pinned it (`Terrain.identity?_of_pinned`).

An operation that **stores** must leave nothing stale behind that is not on record. What an
object holds afterwards it held before or was given, which is said of each way of storing
by the cases of what it may do (`storeOwn_cases`, `storeExpando_cases`,
`changeArray_cases`).
-/

namespace EmbeddedScript

open World (Move Step Excursion)

variable {κ α : Type}

namespace Machine

open Act

variable {T : Terrain κ} {m m' : Machine κ} {w : World κ} {e : EngineId}

/-! ## Creation and inspection -/

section Offer

variable {heap : Heap} {o : HeapObject}

theorem change_offer {collects : Prop} {roots : RootSet} (ho : heap.CanHold o) :
    (offer o heap).2 = heap ∨ Heap.Change collects roots heap (offer o heap).2 := by
  cases hr : heap.refusal? with
  | none => exact .inr (by rw [offer_of_room hr]; exact .placed hr ho)
  | some err => exact .inl (by rw [offer_of_refusal hr])

/-- A new object holds nothing stale if it is given nothing stale. -/
theorem backs_offer (hs : heap.Sound)
    (ho : (offer o heap).1.isOk = true → ∀ v ∈ o.references, heap.isCurrent v = true) :
    heap.Backs (offer o heap).2 := by
  cases hr : heap.refusal? with
  | none =>
    rw [offer_of_room hr] at ho ⊢
    exact Heap.backs_place hs.wellFormed (ho rfl)
  | some err =>
    rw [offer_of_refusal hr]
    exact .refl heap

end Offer

/-- A refused object is dropped while the heap is lent out, which it can be because nobody
had it. -/
theorem Tracks.taken (hm : Machine.Tracks T m m') (o : HeapObject)
    (hl : (w.engine e).loan = .none) (outcome : Except EngineError Handle) :
    Act.Tracks T (m.taken e o outcome) (m'.taken e o outcome) w := by
  cases outcome with
  | ok h => exact .pure _
  | error err =>
    exact (Act.Tracks.writing hl fun _ => hm.releaseAll [o]).bind fun _ _ _ _ _ => .pure _

/-- **Allocation** of an object that holds nothing stale. -/
theorem Tracks.allocate (hm : Machine.Tracks T m m') {o : HeapObject}
    (ho : (w.engine e).heap.CanHold o)
    (hb : ∀ v ∈ o.references, (w.engine e).heap.isCurrent v = true) :
    Act.Tracks T (m.allocate e o).run (m'.allocate e o).run w := by
  refine Act.Abides.bind (Act.Tracks.writeHeap (change_offer ho) fun hs =>
    backs_offer hs fun _ => hb) fun r w' hr _ hx => ?_
  exact hm.taken o ((hx.1.engine e).2.trans (loan_of_writeHeap hr)) r

/-- Anything but a host method can be put into a heap. -/
theorem canHold_of_ne {heap : Heap} {o : HeapObject}
    (ho : ∀ t name, o ≠ .hostMethod t name) : heap.CanHold o :=
  fun t name h => absurd h (ho t name)

theorem Tracks.createObject (hm : Machine.Tracks T m m') :
    Act.Tracks T (m.createObject e).run (m'.createObject e).run w :=
  hm.allocate (canHold_of_ne nofun) nofun

theorem Tracks.createArray (hm : Machine.Tracks T m m') (length : Nat) :
    Act.Tracks T (m.createArray e length).run (m'.createArray e length).run w := by
  unfold Machine.createArray
  cases hc : Elements.create length with
  | ok els =>
    refine hm.allocate (canHold_of_ne fun _ _ h => nomatch h) fun v hv => ?_
    exact absurd (HeapObject.mem_references_array.1 hv) (Elements.not_mem_of_create hc)
  | error fault => exact .fail _

/-- **An array of items** holds those and nothing else. -/
theorem Tracks.createArrayOf (hm : Machine.Tracks T m m') (items : List Value) :
    Act.Tracks T (m.createArrayOf e items).run (m'.createArrayOf e items).run w := by
  refine Act.Abides.bind (Act.Tracks.storeHeap (change_offer (canHold_of_ne nofun))
    fun hs hv => backs_offer hs fun hok v hmem => hv hok v ?_) fun r w' hr _ hx => ?_
  · rw [HeapObject.mem_references_array] at hmem
    exact Elements.mem_ofList.1 hmem
  · exact hm.taken _ ((hx.1.engine e).2.trans (eq_of_storeHeap hr).1) r

theorem Tracks.createFunction (hm : Machine.Tracks T m m') (name : String) (body : NativeId) :
    Act.Tracks T (m.createFunction e name body).run (m'.createFunction e name body).run w :=
  hm.allocate (canHold_of_ne nofun) nofun

theorem Tracks.createHost (hm : Machine.Tracks T m m') (host : NativeId) :
    Act.Tracks T (m.createHost e host).run (m'.createHost e host).run w :=
  hm.allocate (canHold_of_ne nofun) nofun

theorem Tracks.kind (hm : Machine.Tracks T m m') (v : Value) :
    Act.Tracks T (m.kind e v) (m'.kind e v) w :=
  hm.serves.kind v

theorem Tracks.host? (v : Value) :
    Act.Tracks T (Machine.host? e v) (Machine.host? e v) w :=
  abides_host? v

/-! ## Collection -/

/-- **A collection**, and what dropping the freed objects sets off. -/
theorem Tracks.collect (hm : Machine.Tracks T m m') (hc : T.Collects) :
    Act.Tracks T (m.collect e) (m'.collect e) w := by
  refine (Act.Abides.view _).bind fun r w' hr _ _ => ?_
  obtain ⟨rfl, rfl⟩ : ((w.engine e).roots, (w.engine e).stats) = r ∧ w = w' := by
    simpa [Act.view] using hr
  refine Act.Abides.bind (Act.Tracks.writeHeap (.inr (.collected hc (w.engine e).stats))
    fun _ => ?_) fun r _ _ _ _ => ?_
  · exact Heap.backs_collect _ _ (w.engine e).stats
  refine (Act.Abides.update (Terrain.Leads.kept rfl rfl rfl rfl)).bind fun _ _ _ _ _ => ?_
  exact (hm.releaseAll r.1).bind fun _ _ _ _ _ => .pure _

theorem Tracks.safepoint (hm : Machine.Tracks T m m') (hc : T.Collects) :
    Act.Tracks T (m.safepoint e) (m'.safepoint e) w :=
  abides_safepoint fun _ => hm.collect hc

/-! ## Arrays and properties -/

/-- Replacing an object by one with the same shell. -/
theorem change_put {collects : Prop} {roots : RootSet} {heap : Heap} {h : Handle}
    {o o' : HeapObject} (hg : heap.get h = .ok o) (hs : o'.shell = o.shell) :
    Heap.Change collects roots heap (heap.put h o') :=
  .stored fun a ha => by
    rw [Heap.get_eq_ok_iff.1 hg] at ha
    exact Option.some.inj ha ▸ hs

theorem change_changeArray {collects : Prop} {roots : RootSet} (h : Handle)
    (f : Elements → Except TypeFault (α × Elements)) (heap : Heap) :
    (changeArray h f heap).2 = heap
      ∨ Heap.Change collects roots heap (changeArray h f heap).2 := by
  rcases changeArray_cases h f heap with ⟨err, heq⟩ | ⟨els, a, els', hg, -, heq⟩
  · exact .inl (by rw [heq])
  · exact .inr (by rw [heq]; exact change_put hg rfl)

/-- **The elements come from the values that were given and the elements that there
were.** -/
def Draws (vs : List Value) (f : Elements → Except TypeFault (α × Elements)) : Prop :=
  ∀ els a els', f els = .ok (a, els') → ∀ u, some u ∈ els' → u ∈ vs ∨ some u ∈ els

theorem backs_changeArray {vs : List Value} {f : Elements → Except TypeFault (α × Elements)}
    (hf : Draws vs f) {h : Handle} {heap : Heap}
    (hv : (changeArray h f heap).1.isOk = true → ∀ v ∈ vs, heap.isCurrent v = true) :
    heap.Backs (changeArray h f heap).2 := by
  rcases changeArray_cases h f heap with ⟨err, heq⟩ | ⟨els, a, els', hg, hels, heq⟩
  · rw [heq]
    exact .refl heap
  · rw [heq] at hv ⊢
    refine Heap.backs_put (Heap.get_eq_ok_iff.1 hg) fun u hu => ?_
    rw [HeapObject.mem_references_array] at hu ⊢
    exact (hf els a els' hels u hu).symm.imp_right (hv rfl u)

/-- **Looking at an array**, or taking an element away. -/
theorem Tracks.withArray (v : Value) {f : Elements → Except TypeFault (α × Elements)}
    (hf : Draws [] f) :
    Act.Tracks T (Machine.withArray e v f : Attempt κ α).run (Machine.withArray e v f).run w :=
  (Act.Abides.expectHandle v).andThen fun h _ _ _ _ =>
    .mk (Act.Tracks.writeHeap (change_changeArray h f _) fun _ =>
      backs_changeArray hf nofun)

/-- **Putting a value among the elements of an array.** -/
theorem Tracks.storeElement (v value : Value)
    {f : Elements → Except TypeFault (α × Elements)} (hf : Draws [value] f) :
    Act.Tracks T (Machine.storeElement e v value f : Attempt κ α).run
      (Machine.storeElement e v value f).run w :=
  (Act.Abides.expectHandle v).andThen fun h _ _ _ _ =>
    .mk (Act.Tracks.storeHeap (change_changeArray h f _) fun _ hv => backs_changeArray hf hv)

/-- An element that is written is the value written or was there before. -/
theorem draws_store (i : Nat) (value : Value) :
    Draws [value] fun els => (Elements.store els i value).map fun els => ((), els) := by
  intro els a els' hels u hu
  cases hs : Elements.store els i value with
  | error fault => simp [hs, Except.map] at hels
  | ok els₁ =>
    obtain rfl : els₁ = els' := by simpa [hs, Except.map] using hels
    exact (Elements.mem_of_mem_store hs hu).imp_left (by simp)

theorem draws_push (value : Value) :
    Draws [value] fun els : Elements => .ok (els.size + 1, els.push (some value)) := by
  rintro els a els' hels u hu
  cases hels
  exact (Array.mem_push.1 hu).symm.imp_left (by simp)

/-- Reading leaves the elements that there were. -/
theorem draws_read (g : Elements → α) : Draws [] fun els => .ok (g els, els) := by
  rintro els a els' hels u hu
  cases hels
  exact .inr hu

theorem draws_pop : Draws [] fun els => .ok (Elements.pop els) := by
  rintro els a els' hels u hu
  cases hels
  refine .inr (Array.mem_def.2 (List.dropLast_subset _ ?_))
  rwa [← Array.toList_pop, ← Array.mem_def]

/-- **Reading a property.** The method of a host is a host method of a wrapper that is
one still. -/
theorem Tracks.get (hr : ∀ id w, Act.Tracks T (m.release id) (m'.release id) w)
    {target : Value} (hm : Machine.Tracks (T.pinned w e [target]) m m') (name : String) :
    Act.Tracks T (m.get e target name).run (m'.get e target name).run w := by
  refine abides_get (brackets_pinned T w e _) hr hm.serves
    fun h host expandos _ w' ht hg _ _ hw' => ?_
  subst ht
  -- the new host method is one of `h`, which its pin has kept the wrapper that it was
  obtain ⟨b, hi⟩ := Heap.identity?_of_get? hg
  have hid : w'.identity? e h = some ⟨b, .host host .empty⟩ :=
    Terrain.identity?_of_pinned hw' (by simp)
      (by simpa [World.identity?, HeapObject.shell] using hi)
  refine hm.allocate (fun t _ heq => ?_) fun v hv => ?_
  · obtain ⟨rfl, -⟩ : h = t ∧ _ := by simpa using heq
    exact ⟨b, host, hid⟩
  · obtain rfl : v = .object h := List.mem_singleton.1 hv
    exact Heap.isLive_iff_exists_identity?.2 ⟨_, hid⟩

/-- Writing a property keeps the shell of what it is written to. -/
theorem shell_of_withProperty {o o' : HeapObject} {name : String} {value : Value}
    (h : withProperty o name value = .ok o') : o'.shell = o.shell := by
  cases o with
  | array els =>
    obtain ⟨els', -, rfl⟩ := eq_array_of_withProperty h
    rfl
  | hostMethod _ _ => cases h
  | _ =>
    cases h
    rfl

/-- **Writing a property puts the value into the object**, and nothing else. -/
theorem mem_references_withProperty {o o' : HeapObject} {name : String} {u v : Value}
    (hs : withProperty o name v = .ok o') (h : u ∈ o'.references) :
    u = v ∨ u ∈ o.references := by
  cases o with
  | array els =>
    obtain ⟨els', hstore, rfl⟩ := eq_array_of_withProperty hs
    rw [HeapObject.mem_references_array] at h ⊢
    exact Elements.mem_of_mem_setProperty hstore h
  | hostMethod target name => cases hs
  | _ =>
    cases hs
    exact Properties.mem_values_set h

/-- Writing to an object without a host replaces it by one with the same shell. -/
theorem change_storeOwn {collects : Prop} {roots : RootSet} (heap : Heap) (h : Handle)
    (name : String) (value : Value) :
    (storeOwn h name value heap).2 = heap
      ∨ Heap.Change collects roots heap (storeOwn h name value heap).2 := by
  rcases storeOwn_cases h name value heap with
    ⟨err, heq⟩ | ⟨host, expandos, -, heq⟩ | ⟨o, o', hg, hp, heq⟩
  · exact .inl (by rw [heq])
  · exact .inl (by rw [heq])
  · exact .inr (by rw [heq]; exact change_put hg (shell_of_withProperty hp))

/-- The heap holds nothing new that is stale if what is written is current where it is
written. -/
theorem backs_storeOwn {heap : Heap} {h : Handle} {name : String} {value : Value}
    (hv : (storeOwn h name value heap).1 = .ok none → heap.isCurrent value = true) :
    heap.Backs (storeOwn h name value heap).2 := by
  rcases storeOwn_cases h name value heap with
    ⟨err, heq⟩ | ⟨host, expandos, -, heq⟩ | ⟨o, o', hg, hp, heq⟩
  · rw [heq]
    exact .refl heap
  · rw [heq]
    exact .refl heap
  · rw [heq] at hv ⊢
    refine Heap.backs_put (Heap.get_eq_ok_iff.1 hg) fun u hu => ?_
    rcases mem_references_withProperty hp hu with rfl | hold
    · exact .inr (hv rfl)
    · exact .inl hold

/-- Writing one of a wrapper's own properties keeps the wrapper's shell. -/
theorem change_storeExpando {collects : Prop} {roots : RootSet} (heap : Heap) (h : Handle)
    (name : String) (value : Value) :
    (storeExpando h name value heap).2 = heap
      ∨ Heap.Change collects roots heap (storeExpando h name value heap).2 := by
  rcases storeExpando_cases h name value heap with hsame | ⟨host, expandos, hg, heq⟩
  · exact .inl hsame
  · exact .inr (by rw [heq]; exact change_put hg rfl)

theorem backs_storeExpando {heap : Heap} {h : Handle} {name : String} {value : Value}
    (hv : (storeExpando h name value heap).1.isOk = true → heap.isCurrent value = true) :
    heap.Backs (storeExpando h name value heap).2 := by
  rcases storeExpando_cases h name value heap with hsame | ⟨host, expandos, hg, heq⟩
  · rw [hsame]
    exact .refl heap
  · rw [heq] at hv ⊢
    refine Heap.backs_put (Heap.get_eq_ok_iff.1 hg) fun u hu => ?_
    rcases Properties.mem_values_set hu with rfl | hold
    · exact .inr (hv rfl)
    · exact .inl hold

/-- Writing to what may be a wrapper, before its host is asked. -/
theorem tracks_storeOwn (h : Handle) (name : String) (value : Value) :
    Act.Tracks T
      (ExceptT.mk (Act.storeHeap e [value] storedOwn (storeOwn h name value)) :
        Attempt κ (Option NativeId)).run
      (ExceptT.mk (Act.storeHeap e [value] storedOwn (storeOwn h name value))).run w :=
  .mk (Act.Tracks.storeHeap (change_storeOwn _ h name value) fun _ hv =>
    backs_storeOwn fun hs => hv (by rw [hs]; rfl) value (List.mem_singleton.2 rfl))

/-- **Writing a property.** -/
theorem Tracks.set (hr : ∀ id w, Act.Tracks T (m.release id) (m'.release id) w)
    {target value : Value} (hm : Machine.Tracks (T.pinned w e [target, value]) m m')
    (name : String) :
    Act.Tracks T (m.set e target name value).run (m'.set e target name value).run w :=
  abides_set (brackets_pinned T w e _) hr hm.serves
    (fun h _ => tracks_storeOwn h name value) fun h _ =>
      .mk (Act.Tracks.storeHeap (change_storeExpando _ h name value)
        fun _ hv => backs_storeExpando fun hok => hv hok value (List.mem_singleton.2 rfl))

/-- **Listing the names.** -/
theorem Tracks.names (hr : ∀ id w, Act.Tracks T (m.release id) (m'.release id) w)
    {target : Value} (hm : Machine.Tracks (T.pinned w e [target]) m m') :
    Act.Tracks T (m.names e target).run (m'.names e target).run w :=
  abides_names (brackets_pinned T w e _) hr hm.serves

/-! ## String conversion and exceptions -/

theorem Tracks.display (hm : Machine.Tracks T m m') (v : Value) :
    Act.Tracks T (m.display e v) (m'.display e v) w :=
  hm.serves.display v

theorem Tracks.raise (hm : Machine.Tracks T m m') (cls : ThrownClass) (message : String) :
    Act.Tracks T (m.raise e cls message) (m'.raise e cls message) w := by
  refine abides_raise (hm.allocate (canHold_of_ne fun t name h => ?_) fun v hv => ?_)
  · simp [errorObject] at h
  · -- an error object holds two texts
    rcases Properties.mem_values_set hv with rfl | hv
    · rfl
    · rcases Properties.mem_values_set hv with rfl | hv
      · rfl
      · exact nomatch hv

theorem Tracks.describe (hm : Machine.Tracks T m m') (err : EngineError) :
    Act.Tracks T (m.describe e err) (m'.describe e err) w :=
  hm.serves.describe err

theorem Tracks.report (hm : Machine.Tracks T m m') (err : EngineError) :
    Act.Tracks T (m.report e err) (m'.report e err) w :=
  (hm.describe err).bind fun _ _ _ _ _ =>
    Act.Abides.update (Terrain.Leads.kept rfl rfl rfl rfl)

theorem Tracks.takeReported :
    Act.Tracks T (Machine.takeReported e : Act κ (List String)) (Machine.takeReported e) w :=
  .extract (Terrain.Leads.kept rfl rfl rfl rfl)

/-! ## Calls and primitive forms -/

theorem Tracks.callTarget (hm : Machine.Tracks T m m') (callee : Value) :
    Act.Tracks T (m.callTarget e callee).run (m'.callTarget e callee).run w :=
  hm.serves.callTarget callee

/-- **Calling a value.** -/
theorem Tracks.call {callee this : Value} {args : List Value}
    (hm : Machine.Tracks (T.pinned w e (callee :: this :: args)) m m') :
    Act.Tracks T (m.call e callee this args).run (m'.call e callee this args).run w :=
  abides_call (brackets_pinned T w e _) hm.serves fun cls message _ => hm.raise cls message

/-- **Converting to a primitive.** Only the host of a wrapper is asked with the wrapper
pinned; the string form of anything else is a conversion of its own. -/
theorem Tracks.toPrimitive (hr : ∀ id w, Act.Tracks T (m.release id) (m'.release id) w)
    {v : Value} (hm : Machine.Tracks (T.pinned w e [v]) m m')
    (hd : (∀ h, v = .object h → ¬ (w.engine e).heap.IsHost h) →
      ∀ w', Act.Tracks T (m.display e v) (m'.display e v) w')
    (hint : Hint) :
    Act.Tracks T (m.toPrimitive e v hint).run (m'.toPrimitive e v hint).run w :=
  abides_toPrimitive (brackets_pinned T w e _) hr hm.serves hd hint

end Machine

end EmbeddedScript
