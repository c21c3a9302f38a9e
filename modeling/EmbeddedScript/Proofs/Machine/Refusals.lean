import EmbeddedScript.Proofs.Machine.Objects

/-!
# Failing cleanly

An operation fails for its target, for an index, a length or a name, or because the heap is
full. It finds that out **before it writes anything**, so what it leaves behind is the world
that it found (`World.Unchanged`): every heap with its slots, its free list and its counters,
the roots, the statistics, the reported exceptions and the lock.

Two things are put right on the way. A property is looked for and written with a level of the
lock held, which is given back. And an object that the heap refuses is dropped, together with
the share that it owns of a native.
-/

namespace EmbeddedScript

open Act Machine

variable {κ α β : Type} {m : Machine κ} {w w' w₁ : World κ} {e : EngineId} {v : Value}
  {id : NativeId}

/-! ## Worlds that read the same -/

/-- **Nothing has changed**: every engine is as it was, and so is everything beside the
engines. An engine that has not been made stands as a new one, so it may have been put down as
one in the meantime. -/
structure World.Unchanged (w w' : World κ) : Prop where
  /-- Every engine is as it was. -/
  engine : ∀ e, w'.engine e = w.engine e
  /-- So is everything else. -/
  beside : w' = { w with engines := w'.engines }

namespace World.Unchanged

theorem refl (w : World κ) : w.Unchanged w := ⟨fun _ => rfl, rfl⟩

theorem trans (h : w.Unchanged w₁) (h₁ : w₁.Unchanged w') : w.Unchanged w' := by
  refine ⟨fun e => (h₁.engine e).trans (h.engine e), ?_⟩
  rw [h₁.beside, h.beside]

/-- An engine is put down as it was. -/
theorem modifyEngine {f : Engine → Engine} (hf : f (w.engine e) = w.engine e) :
    w.Unchanged (w.modifyEngine e f) := by
  refine ⟨fun e' => ?_, rfl⟩
  rw [World.engine_modifyEngine]
  split
  case isTrue he => rw [hf, he]
  case isFalse => rfl

/-- The lock is taken, nothing changes, and the lock is given back. -/
theorem unlock (h : (w.modifyEngine e fun s => { s with lock := s.lock.take }).Unchanged w₁) :
    w.Unchanged (w₁.modifyEngine e fun s => { s with lock := s.lock.undo .level }) := by
  refine ⟨fun e' => ?_, ?_⟩
  · have he' := h.engine e'
    rw [World.engine_modifyEngine] at he' ⊢
    split at he'
    case isTrue he =>
      subst he
      rw [if_pos rfl, he']
      rfl
    case isFalse he => rw [if_neg he, he']
  · have hbeside : w₁ = { w with engines := w₁.engines } := h.beside
    rw [hbeside]
    rfl

end World.Unchanged

/-! ## Actions that fail cleanly -/

/-- **The action changes nothing if it fails.** -/
def Act.FailsCleanly (a : Act κ (Except EngineError α)) (w : World κ) : Prop :=
  ∀ err w', a w = .ok (.error err) w' → w.Unchanged w'

namespace Act.FailsCleanly

/-- What succeeds does not fail. -/
theorem success (x : α) : FailsCleanly (Pure.pure x : Attempt κ α).run w :=
  fun _ _ h => nomatch (pure_eq_ok.1 h).1

/-- An error that is thrown is thrown in the same world. -/
theorem throw (err : EngineError) : FailsCleanly (MonadExcept.throw err : Attempt κ α).run w := by
  intro err' w' h
  obtain ⟨-, rfl⟩ := pure_eq_ok.1 h
  exact .refl _

/-- So is the fault of a value that is no object. -/
theorem expectHandle (v : Value) : FailsCleanly (Act.expectHandle v).run w := by
  cases v with
  | object h => exact .success h
  | _ => exact .throw _

/-- A stale handle is found out by reading. -/
theorem object (h : Handle) : FailsCleanly (Act.object e h).run w := by
  intro err w' hr
  obtain ⟨-, rfl⟩ := eq_of_readHeap (f := (Heap.get · h)) hr
  exact .refl _

/-- A change to the heap that fails leaves the heap as it is. -/
theorem writeHeap {f : Heap → Except EngineError α × Heap}
    (hf : ∀ heap err, (f heap).1 = .error err → (f heap).2 = heap) :
    FailsCleanly (Act.writeHeap e f) w := by
  intro err w' h
  obtain ⟨hr, rfl⟩ := eq_of_writeHeap h
  exact .modifyEngine (by rw [hf _ err hr.symm])

/-- So does one that would have stored something. -/
theorem storeHeap {vs : List Value} {stored : Except EngineError α → Bool}
    {f : Heap → Except EngineError α × Heap}
    (hs : ∀ err, stored (.error err) = false)
    (hf : ∀ heap err, (f heap).1 = .error err → (f heap).2 = heap) :
    FailsCleanly (Act.storeHeap e vs stored f) w := by
  intro err w' h
  obtain ⟨-, hr, hkept⟩ := eq_of_storeHeap h
  rw [hkept (hs err)]
  exact .modifyEngine (by rw [hf _ err hr.symm])

/-- **A sequence fails cleanly** if its first part does, and changes nothing when it succeeds. -/
theorem andThen {x : Attempt κ α} {f : α → Attempt κ β} (hx : FailsCleanly x.run w)
    (hf : ∀ b w₁, x.run w = .ok (.ok b) w₁ → w.Unchanged w₁ ∧ FailsCleanly (f b).run w₁) :
    FailsCleanly (x >>= f).run w := by
  intro err w' h
  rcases andThen_eq_error.1 h with hfail | ⟨b, w₁, hb, hrest⟩
  · exact hx err w' hfail
  · obtain ⟨hsame, hclean⟩ := hf b w₁ hb
    exact hsame.trans (hclean err w' hrest)

/-- **The lock does not matter**, since the level that was taken is given back. -/
theorem locked {a : Act κ (Except EngineError α)}
    (ha : FailsCleanly a (w.modifyEngine e fun s => { s with lock := s.lock.take })) :
    FailsCleanly (Act.locked e a) w := by
  intro err w' h
  obtain ⟨w₁, hr, rfl⟩ := locked_eq_ok.1 h
  exact (ha err w₁ hr).unlock

end Act.FailsCleanly

/-! ## The operations -/

namespace Machine

/-- What is done with the handle of a value is done in the world in which the handle was
asked for. -/
theorem failsCleanly_expectHandle {f : Handle → Attempt κ α}
    (hf : ∀ h, v = .object h → FailsCleanly (f h).run w) :
    FailsCleanly (Act.expectHandle v >>= f).run w :=
  (FailsCleanly.expectHandle v).andThen fun h w₁ hh => by
    obtain ⟨hv, rfl⟩ := eq_of_expectHandle hh
    exact ⟨.refl _, hf h hv⟩

/-- A change to the elements of an array that fails leaves the heap as it is. -/
theorem changeArray_eq_self {h : Handle} {f : Elements → Except TypeFault (α × Elements)}
    {heap : Heap} {err : EngineError} (hr : (changeArray h f heap).1 = .error err) :
    (changeArray h f heap).2 = heap := by
  rcases changeArray_cases h f heap with ⟨err', heq⟩ | ⟨els, a, els', -, -, heq⟩
  · rw [heq]
  · rw [heq] at hr
    cases hr

/-- A property that is not taken leaves the heap as it is. -/
theorem storeOwn_eq_self {h : Handle} {name : String} {value : Value} {heap : Heap}
    {err : EngineError} (hr : (storeOwn h name value heap).1 = .error err) :
    (storeOwn h name value heap).2 = heap := by
  rcases storeOwn_cases h name value heap with
    ⟨err', heq⟩ | ⟨host, expandos, -, heq⟩ | ⟨o, o', -, -, heq⟩
  · rw [heq]
  · rw [heq] at hr
    cases hr
  · rw [heq] at hr
    cases hr

theorem failsCleanly_withArray (f : Elements → Except TypeFault (α × Elements)) :
    FailsCleanly (withArray e v f : Attempt κ α).run w :=
  failsCleanly_expectHandle fun _ _ =>
    FailsCleanly.writeHeap fun _ _ hr => changeArray_eq_self hr

theorem failsCleanly_storeElement (value : Value)
    (f : Elements → Except TypeFault (α × Elements)) :
    FailsCleanly (storeElement e v value f : Attempt κ α).run w :=
  failsCleanly_expectHandle fun _ _ =>
    FailsCleanly.storeHeap (fun _ => rfl) fun _ _ hr => changeArray_eq_self hr

/-- What is there behind a value that is no wrapper has no host. -/
theorem hostless_of_host? {h : Handle} {o : HeapObject} (hv : w.host? e (.object h) = none)
    (hg : (w.engine e).heap.get? h = some o) : o.hostless = true := by
  cases o with
  | host host expandos =>
    rw [World.host?_of_get? hg] at hv
    cases hv
  | _ => rfl

/-- A value has a host if it is a wrapper of it. -/
theorem exists_get?_of_host? {host : NativeId} (hh : w.host? e v = some host) :
    ∃ h expandos, v = .object h ∧ (w.engine e).heap.get? h = some (.host host expandos) := by
  cases v with
  | object h =>
    unfold World.host? at hh
    simp only [Value.handle?_object] at hh
    cases hg : (w.engine e).heap.get? h with
    | none =>
      rw [hg] at hh
      cases hh
    | some o =>
      rw [hg] at hh
      cases o with
      | host id expandos =>
        obtain rfl := Option.some.inj hh
        exact ⟨h, expandos, rfl, hg⟩
      | _ => cases hh
  | _ => cases hh

/-- The lock has no part in who the host of a value is. -/
theorem host?_take (hv : w.host? e v = none) :
    (w.modifyEngine e fun s => { s with lock := s.lock.take }).host? e v = none := by
  unfold World.host? at hv ⊢
  rwa [World.engine_modifyEngine_self]

/-- **Looking at a value that is no wrapper.** -/
theorem failsCleanly_look (hv : w.host? e v = none) {f : Handle → HeapObject → Attempt κ α}
    (hf : ∀ h o w, o.hostless = true → FailsCleanly (f h o).run w) :
    FailsCleanly (do
      let h ← Act.expectHandle v
      let o ← Act.object e h
      f h o : Attempt κ α).run w :=
  failsCleanly_expectHandle fun h hobj => (FailsCleanly.object h).andThen fun o w₁ ho => by
    subst hobj
    obtain ⟨hg, rfl⟩ := eq_of_object ho
    exact ⟨.refl _, hf h o _ (hostless_of_host? hv hg)⟩

theorem failsCleanly_get (m : Machine κ) (hv : w.host? e v = none) (name : String) :
    FailsCleanly (m.get e v name).run w := by
  refine FailsCleanly.locked (failsCleanly_look (host?_take hv) fun h o w₁ ho => ?_)
  cases o with
  | host host expandos => cases ho
  | _ => exact .success _

theorem failsCleanly_names (m : Machine κ) (hv : w.host? e v = none) :
    FailsCleanly (m.names e v).run w := by
  refine FailsCleanly.locked (failsCleanly_look (host?_take hv) fun h o w₁ ho => ?_)
  cases o with
  | host host expandos => cases ho
  | _ => exact .success _

/-- **Writing to a value that is no wrapper.** -/
theorem failsCleanly_set (m : Machine κ) (hv : w.host? e v = none) (name : String)
    (value : Value) : FailsCleanly (m.set e v name value).run w := by
  refine FailsCleanly.locked (failsCleanly_expectHandle fun h hobj => ?_)
  subst hobj
  intro err w' hr
  rcases andThen_eq_error.1 hr with hfail | ⟨r, w₁, hstore, hrest⟩
  · exact FailsCleanly.storeHeap (fun _ => rfl) (fun _ _ hr => storeOwn_eq_self hr) err w' hfail
  · -- only a wrapper makes the operation go on
    obtain ⟨-, hr, -⟩ := eq_of_storeHeap hstore
    cases r with
    | none => exact nomatch (pure_eq_ok.1 hrest).1
    | some host =>
      obtain ⟨expandos, hg⟩ := (storeOwn_of_host hr.symm).2
      exact nomatch (hostless_of_host? (host?_take hv) hg)

/-! ## Objects that are refused -/

variable {o : HeapObject} {err : EngineError}

/-- **A refused object is dropped**, in the world that it was offered in. -/
theorem writing_of_taken {outcome : Except EngineError Handle}
    (ho : outcome = (offer o (w.engine e).heap).1)
    (hw : outcome.isOk = false →
      w₁ = w.modifyEngine e fun s => { s with heap := (offer o (w.engine e).heap).2 })
    (ht : m.taken e o outcome w₁ = .ok (.error err) w') :
    Act.writing e (m.releaseAll [o]) w = .ok () w' := by
  cases outcome with
  | ok k => exact nomatch (pure_eq_ok.1 ht).1
  | error err' =>
    obtain ⟨_, w₂, hdrop, hfail⟩ := bind_eq_ok.1 ht
    obtain ⟨-, rfl⟩ := pure_eq_ok.1 hfail
    obtain ⟨w₃, hrelease, rfl⟩ := within_eq_ok.1 hdrop
    refine within_eq_ok.2 ⟨w₃, ?_, rfl⟩
    rw [hw rfl, World.modifyEngine_modifyEngine] at hrelease
    rw [offer_of_refusal (refusal?_of_offer ho.symm)] at hrelease
    rw [← hrelease]
    exact congrArg _ (World.modifyEngine_congr rfl)

theorem writing_of_allocate (ha : (m.allocate e o).run w = .ok (.error err) w') :
    (w.engine e).loan = .none ∧ Act.writing e (m.releaseAll [o]) w = .ok () w' := by
  obtain ⟨outcome, w₁, hoffer, ht⟩ := bind_eq_ok.1 ha
  obtain ⟨ho, hw⟩ := eq_of_writeHeap hoffer
  exact ⟨loan_of_writeHeap hoffer, writing_of_taken ho (fun _ => hw) ht⟩

/-- An object that owns no native is dropped without further ado. -/
theorem unchanged_of_writing (hl : (w.engine e).loan = .none) (ho : o.native? = none)
    (hd : Act.writing e (m.releaseAll [o]) w = .ok () w') : w.Unchanged w' := by
  obtain ⟨w₁, hrelease, rfl⟩ := within_eq_ok.1 hd
  simp only [releaseAll, ho] at hrelease
  obtain ⟨-, rfl⟩ := pure_eq_ok.1 hrelease
  rw [World.modifyEngine_modifyEngine]
  exact .modifyEngine (by rw [Function.comp_apply, ← hl])

/-- An object that owns a native is dropped by letting go of that. -/
theorem writing_release (ho : o.native? = some id)
    (hd : Act.writing e (m.releaseAll [o]) w = .ok () w') :
    Act.writing e (m.release id) w = .ok () w' := by
  obtain ⟨w₁, hrelease, rfl⟩ := within_eq_ok.1 hd
  simp only [releaseAll, ho] at hrelease
  obtain ⟨_, w₂, hnative, hrest⟩ := bind_eq_ok.1 hrelease
  obtain ⟨-, rfl⟩ := pure_eq_ok.1 hrest
  exact within_eq_ok.2 ⟨_, hnative, rfl⟩

theorem failsCleanly_allocate (ho : o.native? = none) : FailsCleanly (m.allocate e o).run w := by
  intro err w' ha
  obtain ⟨hl, hd⟩ := writing_of_allocate ha
  exact unchanged_of_writing hl ho hd

theorem failsCleanly_createArray (m : Machine κ) (length : Nat) :
    FailsCleanly (m.createArray e length).run w := by
  unfold createArray
  cases Elements.create length with
  | ok els => exact failsCleanly_allocate rfl
  | error fault => exact .throw _

theorem failsCleanly_createArrayOf (m : Machine κ) (items : List Value) :
    FailsCleanly (m.createArrayOf e items).run w := by
  intro err w' hc
  obtain ⟨outcome, w₁, hstore, ht⟩ := bind_eq_ok.1 hc
  obtain ⟨hl, ho, hw⟩ := eq_of_storeHeap hstore
  exact unchanged_of_writing hl rfl (writing_of_taken ho hw ht)

/-- Whose share is not the last just has one owner fewer. -/
theorem release_of_owners_ne_one (m : Machine κ) (ho : w.owners id ≠ 1) :
    m.release id w = .ok () (w.modifyOwners id (· - 1)) := by
  cases hn : w.natives[id.index]? with
  | none =>
    have hsame : w.natives.modify id.index (fun n => { n with owners := n.owners - 1 })
        = w.natives := by
      refine Array.ext_getElem? fun i => ?_
      rw [Array.getElem?_modify]
      split
      case isTrue hi => rw [← hi, hn, Option.map_none]
      case isFalse => rfl
    rw [release_of_none m hn, World.modifyOwners, hsame]
  | some entry =>
    refine release_of_ne_one m hn ?_
    simpa [World.owners, hn] using ho

/-- **A share that is not the last** is all that is let go of. -/
theorem unchanged_of_release (hl : (w.engine e).loan = .none) (ho : w.owners id ≠ 1)
    (hd : Act.writing e (m.release id) w = .ok () w') :
    (w.modifyOwners id (· - 1)).Unchanged w' := by
  obtain ⟨w₁, hrelease, rfl⟩ := within_eq_ok.1 hd
  have hgone := release_of_owners_ne_one m
    (w := w.modifyEngine e fun s => { s with loan := .exclusive }) ho
  obtain ⟨-, rfl⟩ := EStateM.Result.ok.inj (hgone.symm.trans hrelease)
  show (w.modifyOwners id (· - 1)).Unchanged (((w.modifyOwners id (· - 1)).modifyEngine e
    fun s => { s with loan := .exclusive }).modifyEngine e fun s => { s with loan := .none })
  rw [World.modifyEngine_modifyEngine]
  exact .modifyEngine (by rw [Function.comp_apply, World.engine_modifyOwners, ← hl])

end Machine

end EmbeddedScript
