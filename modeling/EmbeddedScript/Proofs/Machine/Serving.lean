import EmbeddedScript.Machine.Call
import EmbeddedScript.Proofs.Machine.Regime

/-!
# Operations in a regime

An operation of the engine reads heaps and changes them, asks natives, and opens brackets
while it does: it takes a level of the lock, pins its operands, lends out the heap, owns a
share of a host. Which operation does what, and in which order, is the same for every
regime that it may be followed in. So it is gone through once, here, and a regime only has
to say what it makes of the pieces: of natives (`Machine.Serves`), of the brackets around
them (`Regime.Brackets`), and of the heap changes of the operation in question.

The brackets may lead from one regime into a narrower one. Inside, the operands are pinned,
which is worth knowing where a host has just been asked.
-/

namespace EmbeddedScript

variable {κ α β : Type}

/-! ## What an operation reads -/

/-- An object that was read denotes what has its shell. -/
theorem World.identity?_of_object {w w' : World κ} {e : EngineId} {h : Handle} {o : HeapObject}
    (hr : (Act.object e h).run w = .ok (.ok o) w') :
    w' = w ∧ ∃ b, w.identity? e h = some ⟨b, o.shell⟩ := by
  obtain ⟨ho, rfl⟩ := Act.eq_of_readHeap (f := (Heap.get · h)) hr
  refine ⟨rfl, Heap.identity?_of_get? ?_⟩
  cases hg : (w'.engine e).heap.get? h with
  | none => simp [Heap.get, hg] at ho
  | some o' => simpa [Heap.get, hg] using ho.symm

/-- Reading the error of a handle and reading the object agree. -/
theorem Heap.get_eq_ok_iff {heap : Heap} {h : Handle} {o : HeapObject} :
    heap.get h = .ok o ↔ heap.get? h = some o := by
  cases hg : heap.get? h <;> simp [Heap.get, hg]

/-- The host behind a value, if the value is a wrapper. -/
def World.host? (w : World κ) (e : EngineId) (v : Value) : Option NativeId :=
  match v.handle? with
  | none => none
  | some h =>
    match (w.engine e).heap.get? h with
    | some (.host host _) => some host
    | _ => none

theorem World.host?_of_get? {w : World κ} {e : EngineId} {h : Handle} {host : NativeId}
    {expandos : Properties Value} (hg : (w.engine e).heap.get? h = some (.host host expandos)) :
    w.host? e (.object h) = some host := by
  unfold World.host?
  simp only [Value.handle?_object, hg]

/-- The handle of an object is the object's. -/
theorem Act.eq_of_expectHandle {w w' : World κ} {v : Value} {h : Handle}
    (hr : (Act.expectHandle v).run w = .ok (.ok h) w') : v = .object h ∧ w' = w := by
  cases v with
  | object k =>
    have hk : (.ok (.ok k) w : EStateM.Result Abort (World κ) (Except EngineError Handle))
        = .ok (.ok h) w' := hr
    cases hk
    exact ⟨rfl, rfl⟩
  | _ => exact nomatch hr

namespace Machine

open Act

variable {R R' : Regime κ} {m m' : Machine κ} {a a' : Act κ α} {w : World κ} {e : EngineId}
  {id : NativeId}

/-! ## What an operation does to a heap -/

section Offer

variable {heap : Heap} {o : HeapObject} {err : EngineError} {k : Handle}

theorem offer_of_refusal (hr : heap.refusal? = some err) (o : HeapObject) :
    offer o heap = (.error err, heap) := by
  unfold offer
  rw [hr]

theorem offer_of_room (hr : heap.refusal? = none) (o : HeapObject) :
    offer o heap = (.ok (heap.place o).1, (heap.place o).2) := by
  unfold offer
  rw [hr]

/-- An object is refused for the reason that the heap has. -/
theorem refusal?_of_offer (h : (offer o heap).1 = .error err) : heap.refusal? = some err := by
  cases hr : heap.refusal? with
  | none => simp [offer_of_room hr] at h
  | some err' => simpa [offer_of_refusal hr] using h

/-- An object that was not refused was placed. -/
theorem place_of_offer (h : (offer o heap).1 = .ok k) :
    heap.refusal? = none ∧ (heap.place o).1 = k := by
  cases hr : heap.refusal? with
  | none => simpa [offer_of_room hr] using h
  | some err => simp [offer_of_refusal hr] at h

end Offer

/-- An array is replaced by another, and otherwise nothing changes. -/
theorem changeArray_cases (h : Handle) (f : Elements → Except TypeFault (α × Elements))
    (heap : Heap) :
    (∃ err, changeArray h f heap = (.error err, heap))
      ∨ ∃ els a els', heap.get h = .ok (.array els) ∧ f els = .ok (a, els')
          ∧ changeArray h f heap = (.ok a, heap.put h (.array els')) := by
  unfold changeArray
  cases hg : heap.get h with
  | error err => exact .inl ⟨err, rfl⟩
  | ok o =>
    cases o with
    | array els =>
      cases hf : f els with
      | ok r => exact .inr ⟨els, r.1, r.2, rfl, hf, by simp only [hf]⟩
      | error fault => exact .inl ⟨.typeError fault, by simp only [hf]⟩
    | _ => exact .inl ⟨_, rfl⟩

/-- An array that a property is written to is another array. -/
theorem eq_array_of_withProperty {els : Elements} {o' : HeapObject} {name : String}
    {value : Value} (h : withProperty (.array els) name value = .ok o') :
    ∃ els', Elements.setProperty els name value = .ok els' ∧ o' = .array els' := by
  change Except.map HeapObject.array (Elements.setProperty els name value) = .ok o' at h
  cases hs : Elements.setProperty els name value with
  | ok els' =>
    rw [hs] at h
    cases h
    exact ⟨els', rfl, rfl⟩
  | error fault =>
    rw [hs] at h
    cases h

/-- **What writing to an object may do**: fail, hand back the host of a wrapper, or replace
the object by one that has the property. -/
theorem storeOwn_cases (h : Handle) (name : String) (value : Value) (heap : Heap) :
    (∃ err, storeOwn h name value heap = (.error err, heap))
      ∨ (∃ host expandos, heap.get? h = some (.host host expandos)
          ∧ storeOwn h name value heap = (.ok (some host), heap))
      ∨ ∃ o o', heap.get h = .ok o ∧ withProperty o name value = .ok o'
          ∧ storeOwn h name value heap = (.ok none, heap.put h o') := by
  unfold storeOwn
  cases hg : heap.get h with
  | error err => exact .inl ⟨err, rfl⟩
  | ok o =>
    cases o with
    | host host expandos =>
      exact .inr (.inl ⟨host, expandos, Heap.get_eq_ok_iff.1 hg, rfl⟩)
    | _ =>
      simp only
      split
      · next hp => exact .inr (.inr ⟨_, _, rfl, hp, rfl⟩)
      · exact .inl ⟨_, rfl⟩

/-- **To a wrapper nothing is written before its host was asked.** -/
theorem storeOwn_of_host {heap : Heap} {h : Handle} {name : String} {value : Value}
    {host : NativeId} (hs : (storeOwn h name value heap).1 = .ok (some host)) :
    (storeOwn h name value heap).2 = heap
      ∧ ∃ expandos, heap.get? h = some (.host host expandos) := by
  rcases storeOwn_cases h name value heap with
    ⟨err, heq⟩ | ⟨host', expandos, hg, heq⟩ | ⟨o, o', -, -, heq⟩
  · simp [heq] at hs
  · obtain rfl : host' = host := by simpa [heq] using hs
    exact ⟨by rw [heq], expandos, hg⟩
  · simp [heq] at hs

/-- The host of a wrapper is handed back. -/
theorem storeOwn_host {heap : Heap} {h : Handle} {host : NativeId} {expandos : Properties Value}
    (hg : heap.get? h = some (.host host expandos)) (name : String) (value : Value) :
    storeOwn h name value heap = (.ok (some host), heap) := by
  simp only [storeOwn, Heap.get_eq_ok_iff.2 hg]

/-- A wrapper takes a property of its own. -/
theorem storeExpando_host {heap : Heap} {h : Handle} {host : NativeId}
    {expandos : Properties Value} (hg : heap.get? h = some (.host host expandos)) (name : String)
    (value : Value) :
    storeExpando h name value heap
      = (.ok (), heap.put h (.host host (expandos.set name value))) := by
  simp only [storeExpando, Heap.get_eq_ok_iff.2 hg]

/-- **What writing one of a wrapper's own properties may do**: nothing, or that. -/
theorem storeExpando_cases (h : Handle) (name : String) (value : Value) (heap : Heap) :
    (storeExpando h name value heap).2 = heap
      ∨ ∃ host expandos, heap.get h = .ok (.host host expandos)
          ∧ storeExpando h name value heap
            = (.ok (), heap.put h (.host host (expandos.set name value))) := by
  unfold storeExpando
  cases hg : heap.get h with
  | error err => exact .inl rfl
  | ok o =>
    cases o with
    | host host expandos => exact .inr ⟨host, expandos, rfl, rfl⟩
    | _ => exact .inl rfl

/-! ## Looking for hosts -/

/-- Looking for a host finds the host behind the value. -/
theorem host?_eq (hl : (w.engine e).loan.allowsRead = true) (v : Value) :
    host? e v w = .ok (w.host? e v) w := by
  unfold Machine.host? World.host?
  cases v.handle? with
  | none => rfl
  | some h =>
    refine bind_eq_ok.2 ⟨_, w, readHeap_of_allowsRead hl _, ?_⟩
    dsimp only
    cases (w.engine e).heap.get? h with
    | none => rfl
    | some o => cases o <;> rfl

/-- Looking for a host changes nothing, and finds the host of every wrapper. -/
theorem eq_of_host? {v : Value} {r : Option NativeId} {w' : World κ}
    (hr : Machine.host? e v w = .ok r w') :
    w' = w ∧ (r = none → ∀ h, v = .object h → ¬ (w.engine e).heap.IsHost h) := by
  cases v with
  | object h =>
    obtain ⟨o, w₁, ho, hf⟩ := bind_eq_ok.1 hr
    obtain ⟨rfl, rfl⟩ := eq_of_readHeap ho
    cases hg : (w₁.engine e).heap.get? h with
    | none =>
      rw [hg] at hf
      refine ⟨(pure_eq_ok.1 hf).2.symm, fun _ k hk => ?_⟩
      obtain rfl := Value.object.inj hk
      rintro ⟨b, id, hi⟩
      obtain ⟨o, ho, -⟩ := Heap.exists_get?_of_identity? hi
      simp [hg] at ho
    | some o =>
      rw [hg] at hf
      have hne : (∀ id expandos, o ≠ .host id expandos) → ∀ k, Value.object h = .object k →
          ¬ (w₁.engine e).heap.IsHost k := fun hne k hk => by
        obtain rfl := Value.object.inj hk
        rintro ⟨b, id, hi⟩
        obtain ⟨o', ho', hs⟩ := Heap.exists_get?_of_identity? hi
        obtain rfl : o = o' := by simpa [hg] using ho'
        cases o <;> simp_all [HeapObject.shell]
      cases o with
      | host id expandos =>
        obtain ⟨rfl, hw⟩ := pure_eq_ok.1 hf
        exact ⟨hw.symm, by simp⟩
      | _ => exact ⟨(pure_eq_ok.1 hf).2.symm, fun _ => hne (by simp)⟩
  | _ => exact ⟨(pure_eq_ok.1 hr).2.symm, by simp⟩

theorem abides_host? (v : Value) : Act.Abides R (Machine.host? e v) (Machine.host? e v) w := by
  unfold Machine.host?
  cases v.handle? with
  | none => exact .pure _
  | some h =>
    refine (Act.Abides.readHeap _).bind fun o _ _ _ _ => ?_
    rcases o with - | o
    · exact .pure _
    · cases o <;> exact .pure _

theorem abides_hostOf (hown : ∀ w id f, R.Rel w (w.modifyOwners id f)) (v : Value) :
    Act.Abides R (Machine.hostOf e v) (Machine.hostOf e v) w := by
  refine (abides_host? v).bind fun r _ _ _ _ => ?_
  cases r with
  | none => exact .pure _
  | some id => exact (Act.Abides.update (hown _ _ _)).bind fun _ _ _ _ _ => .pure _

theorem abides_boundOf (hown : ∀ w id f, R.Rel w (w.modifyOwners id f)) (v : Value) :
    Act.Abides R (Machine.boundOf e v) (Machine.boundOf e v) w := by
  refine (abides_host? v).bind fun r _ _ _ _ => ?_
  cases r with
  | none => exact .pure _
  | some id =>
    refine (Act.Abides.view _).bind fun n _ _ _ _ => ?_
    rcases n with - | n
    · exact .pure _
    · cases n with
      | adapter a => exact (Act.Abides.update (hown _ _ _)).bind fun _ _ _ _ _ => .pure _
      | _ => exact .pure _

theorem abides_isLive (v : Value) :
    Act.Abides R (Machine.isLive e v : Act κ Bool) (Machine.isLive e v) w := by
  unfold Machine.isLive
  cases v.handle? with
  | none => exact .pure _
  | some h => exact .readHeap _

/-! ## Shares of natives -/

/-- **Letting go of a share** may finalise the native. -/
theorem abides_release (hown : ∀ f, R.Rel w (w.modifyOwners id f))
    (hrec : ∀ w postures, R.Rel w (w.record (.finalised id postures)))
    (hf : ∀ n w, Act.Abides R (m.finalise n) (m'.finalise n) w) :
    Act.Abides R (m.release id) (m'.release id) w := by
  intro hw
  cases hn : w.natives[id.index]? with
  | none =>
    rw [release_of_none m hn, release_of_none m' hn, after_of_ok (release_of_none m hn)]
    exact ⟨rfl, R.refl w⟩
  | some entry =>
    obtain ⟨n, k⟩ := entry
    by_cases hk : k = 1
    · -- the last owner
      subst hk
      have hrel := R.trans (hown (· - 1))
        (hrec (w.modifyOwners id (· - 1)) (w.modifyOwners id (· - 1)).postures)
      obtain ⟨he, hx⟩ := hf n _ (R.after hw hrel)
      unfold after
      rw [release_of_last m hn, release_of_last m' hn]
      exact ⟨he, R.trans hrel hx⟩
    · have hr := release_of_ne_one m hn hk
      rw [hr, release_of_ne_one m' hn hk, after_of_ok hr]
      exact ⟨rfl, hown (· - 1)⟩

/-- **With a share of a native.** -/
theorem abides_sharing (hown : R.Rel w (w.modifyOwners id (· + 1)))
    (hr : ∀ w, Act.Abides R (m.release id) (m'.release id) w)
    (ha : Act.Abides R a a' (w.modifyOwners id (· + 1))) :
    Act.Abides R (m.sharing id a) (m'.sharing id a') w := by
  intro hw
  obtain ⟨he, hx⟩ := Act.Abides.ensuring ha (fun _ _ _ => hr _) (R.after hw hown)
  exact ⟨he, R.trans hown hx⟩

/-- Letting go of what some objects own. -/
theorem abides_releaseAll (hr : ∀ id w, Act.Abides R (m.release id) (m'.release id) w)
    (os : List HeapObject) : Act.Abides R (m.releaseAll os) (m'.releaseAll os) w := by
  induction os generalizing w with
  | nil => exact .pure _
  | cons o os ih =>
    simp only [Machine.releaseAll]
    cases o.native? with
    | some id => exact (hr id _).bind fun _ _ _ _ _ => ih
    | none => exact (Act.Abides.pure ()).bind fun _ _ _ _ _ => ih

end Machine

/-! ## What a regime must allow -/

/-- **Natives are followed in the regime**, whatever they are asked. -/
structure Machine.Follows (R : Regime κ) (m m' : Machine κ) : Prop where
  /-- When they are asked. -/
  ask : ∀ id r w, Act.Abides R (m.ask id r) (m'.ask id r) w
  /-- When they are finalised. -/
  finalise : ∀ n w, Act.Abides R (m.finalise n) (m'.finalise n) w

/-- **Natives serve operations in the regime**: they are followed wherever an operation asks
them or lets go of them. -/
structure Machine.Serves (R : Regime κ) (m m' : Machine κ) : Prop where
  /-- When a host is asked. -/
  askHost : ∀ e id r w, Act.Abides R (m.askHost e id r) (m'.askHost e id r) w
  /-- When the body of a function is run. -/
  runBody : ∀ e id this args w,
    Act.Abides R (m.request id (.run e this args)) (m'.request id (.run e this args)) w
  /-- When a share is let go. -/
  release : ∀ id w, Act.Abides R (m.release id) (m'.release id) w
  /-- It does not matter how many owners a native has. -/
  owners : ∀ w id f, R.Rel w (w.modifyOwners id f)
  /-- Nor does it that the heap is being read. -/
  reading : ∀ {α : Type} {e : EngineId} {a a' : Act κ α} {w : World κ},
    (∀ w', Act.Abides R a a' w') → Act.Abides R (Act.reading e a) (Act.reading e a') w

/-- **The brackets of an operation lead from one regime into another**, in which its
operands are pinned. -/
structure Regime.Brackets (R R' : Regime κ) (w : World κ) (e : EngineId) (vs : List Value) :
    Prop where
  /-- The lock is taken, and the level given back. -/
  locked : ∀ {α : Type} {a a' : Act κ α},
    Act.Abides R a a' (w.modifyEngine e fun s => { s with lock := s.lock.take }) →
      Act.Abides R (Act.locked e a) (Act.locked e a') w
  /-- The operands are pinned in the heap of the beginning. -/
  pinning : ∀ {α : Type} {a a' : Act κ α} {w₁ : World κ},
    (w₁.engine e).heap = (w.engine e).heap ∧ (w₁.engine e).roots = (w.engine e).roots →
      Act.Abides R' a a' (w₁.push e vs) →
        Act.Abides R (Act.pinning e vs a) (Act.pinning e vs a') w₁
  /-- It does not matter how many owners a native has. -/
  owners : ∀ w id f, R.Rel w (w.modifyOwners id f)

namespace Machine

open Act

variable {R R' : Regime κ} {m m' : Machine κ} {w : World κ} {e : EngineId}

/-! ## Operations that ask while they read -/

theorem Serves.sharing (hm : Serves R m m') {id : NativeId} {a a' : Act κ α}
    (ha : Act.Abides R a a' (w.modifyOwners id (· + 1))) :
    Act.Abides R (m.sharing id a) (m'.sharing id a') w :=
  abides_sharing (hm.owners _ _ _) (hm.release id) ha

theorem Serves.kind (hm : Serves R m m') (v : Value) :
    Act.Abides R (m.kind e v) (m'.kind e v) w := by
  unfold Machine.kind
  cases v.handle? with
  | none => exact .pure _
  | some h =>
    refine (Act.Abides.readHeap _).bind fun o _ _ _ _ => ?_
    rcases o with - | o
    · exact .pure _
    · cases o with
      | host id _ =>
        exact (hm.reading fun _ => hm.askHost _ _ _ _).bind fun _ _ _ _ _ => .pure _
      | _ => exact .pure _

/-- **The string form.** A host is asked with a share of it owned. -/
theorem Serves.displayAt (hm : Serves R m m') (levels : Nat) (v : Value) :
    Act.Abides R (m.displayAt e levels v) (m'.displayAt e levels v) w := by
  induction levels generalizing v w with
  | zero =>
    unfold Machine.displayAt
    cases v.display? with
    | some text => exact .pure _
    | none => exact .pure _
  | succ levels ih =>
    unfold Machine.displayAt
    cases v.display? with
    | some text => exact .pure _
    | none =>
      cases v.handle? with
      | none => exact .pure _
      | some h =>
        refine (Act.Abides.readHeap _).bind fun o _ _ _ _ => ?_
        rcases o with - | o
        · exact .pure _
        · cases o with
          | array els =>
            refine Act.Abides.bind (.mapM (fun element w => ?_) _) fun _ _ _ _ _ => .pure _
            split
            · exact .pure _
            · exact ih _
          | host host expandos =>
            refine hm.sharing ((hm.askHost _ _ _ _).bind fun r _ _ _ _ => ?_)
            cases r with
            | error err => exact .pure _
            | ok primitive =>
              simp only
              split
              · exact .pure _
              · exact ih _
          | _ => exact .pure _

theorem Serves.display (hm : Serves R m m') (v : Value) :
    Act.Abides R (m.display e v) (m'.display e v) w :=
  hm.displayAt _ v

theorem Serves.describe (hm : Serves R m m') (err : EngineError) :
    Act.Abides R (m.describe e err) (m'.describe e err) w := by
  unfold Machine.describe
  cases err with
  | exception thrown =>
    have hdisplay : ∀ w, Act.Abides R
        (do let text ← m.display e thrown; pure s!"Uncaught {text}")
        (do let text ← m'.display e thrown; pure s!"Uncaught {text}") w := fun _ =>
      (hm.display thrown).bind fun _ _ _ _ _ => .pure _
    dsimp only
    cases thrown.handle? with
    | some h =>
      refine (Act.Abides.readHeap _).bind fun own w _ _ _ => ?_
      cases own with
      | some text => exact .pure _
      | none => exact hdisplay w
    | none => exact (Act.Abides.pure none).bind fun _ w hr _ _ =>
        (pure_eq_ok.1 hr).1 ▸ hdisplay w
  | _ => exact .pure _

theorem Serves.callTarget (hm : Serves R m m') (callee : Value) :
    Act.Abides R (m.callTarget e callee).run (m'.callTarget e callee).run w := by
  unfold Machine.callTarget
  cases callee.handle? with
  | none => exact .return _
  | some h =>
    refine (Act.Abides.object h).andThen fun o _ _ _ _ => ?_
    cases o with
    | host id _ =>
      exact (Act.Abides.attempt (hm.reading fun _ => hm.askHost _ _ _ _)).andThen
        fun _ _ _ _ _ => .return _
    | _ => exact .return _

/-! ## Operations made of others -/

/-- A thrown error, if its object can be allocated in the regime. -/
theorem abides_raise {cls : ThrownClass} {message : String}
    (ha : Act.Abides R (m.allocate e (errorObject cls message)).run
      (m'.allocate e (errorObject cls message)).run w) :
    Act.Abides R (m.raise e cls message) (m'.raise e cls message) w := by
  refine ha.bind fun r _ _ _ _ => ?_
  cases r <;> exact .pure _

theorem abides_safepoint (hc : ∀ w, Act.Abides R (m.collect e) (m'.collect e) w) :
    Act.Abides R (m.safepoint e) (m'.safepoint e) w := by
  refine (Act.Abides.view _).bind fun threshold _ _ _ _ => ?_
  split
  · exact .pure _
  · refine (Act.Abides.readHeap _).bind fun since _ _ _ _ => ?_
    split
    · exact .pure _
    · exact (hc _).map.bind fun _ _ _ _ _ => .pure _

/-! ## Operations in brackets -/

/-- **Reading a property.** The method of a host is a host method of the wrapper that was
read from, and is allocated when the host has answered. -/
theorem abides_get {target : Value} (hb : R.Brackets R' w e [target])
    (hr : ∀ id w, Act.Abides R (m.release id) (m'.release id) w) (hm : Serves R' m m')
    {name : String}
    (ha : ∀ h host expandos w₁ w', target = .object h →
      (w.engine e).heap.get? h = some (.host host expandos) →
      m.askHost e host (.getProperty name) (w.entered e host [target]) = .ok (.ok none) w₁ →
      m.askHost e host (.hasMethod name) w₁ = .ok true w' → R'.Holds w' →
        Act.Abides R' (m.allocate e (.hostMethod h name)).run
          (m'.allocate e (.hostMethod h name)).run w') :
    Act.Abides R (m.get e target name).run (m'.get e target name).run w := by
  refine .mk (hb.locked ?_)
  refine (Act.Abides.expectHandle target).andThen fun h w₁ hh _ _ => ?_
  obtain ⟨rfl, rfl⟩ := eq_of_expectHandle hh
  refine (Act.Abides.object h).andThen fun o w₂ hw₂ _ _ => ?_
  obtain ⟨ho, rfl⟩ := eq_of_readHeap (f := (Heap.get · h)) hw₂
  rw [World.engine_modifyEngine_self] at ho
  cases o with
  | host host expandos =>
    refine .mk (abides_sharing (hb.owners _ _ _) (hr host) (hb.pinning (by simp) ?_))
    refine (Act.Abides.mk (hm.askHost _ _ _ _)).andThen fun r w₃ hget _ _ => ?_
    rcases r with - | v
    · refine (Act.Abides.attempt (hm.askHost _ _ _ _)).andThen fun isMethod w₄ hhas hw₄ _ => ?_
      obtain ⟨_, hhas, hok⟩ := attempt_eq_ok.1 hhas
      obtain rfl := Except.ok.inj hok
      split
      next hyes =>
        subst hyes
        exact ha h host expandos w₃ w₄ rfl (Heap.get_eq_ok_iff.1 ho.symm) hget hhas hw₄
      · refine (Act.Abides.object h).andThen fun o _ _ _ _ => ?_
        cases o <;> exact .return _
    · exact .return _
  | _ => exact .return _

/-- **Writing a property.** -/
theorem abides_set {target value : Value} (hb : R.Brackets R' w e [target, value])
    (hr : ∀ id w, Act.Abides R (m.release id) (m'.release id) w) (hm : Serves R' m m')
    {name : String}
    (hown : ∀ h w, Act.Abides R
      (ExceptT.mk (Act.storeHeap e [value] storedOwn (storeOwn h name value)) :
        Attempt κ (Option NativeId)).run
      (ExceptT.mk (Act.storeHeap e [value] storedOwn (storeOwn h name value))).run w)
    (hexpando : ∀ h w, Act.Abides R'
      (ExceptT.mk (Act.storeHeap e [value] (·.isOk) (storeExpando h name value)) :
        Attempt κ Unit).run
      (ExceptT.mk (Act.storeHeap e [value] (·.isOk) (storeExpando h name value))).run w) :
    Act.Abides R (m.set e target name value).run (m'.set e target name value).run w := by
  refine .mk (hb.locked ?_)
  refine (Act.Abides.expectHandle target).andThen fun h w₁ hh _ _ => ?_
  obtain ⟨rfl, rfl⟩ := eq_of_expectHandle hh
  refine (hown h _).andThen fun r w₂ hw₂ _ _ => ?_
  obtain ⟨-, hs, hnot⟩ := eq_of_storeHeap (f := storeOwn h name value) hw₂
  cases r with
  | none => exact .return _
  | some host =>
    -- nothing was stored yet, so the operands are pinned in the heap of the beginning
    obtain rfl := hnot rfl
    have hheap := (storeOwn_of_host hs.symm).1
    rw [World.engine_modifyEngine_self] at hheap
    refine .mk (abides_sharing (hb.owners _ _ _) (hr host) (hb.pinning (by simp [hheap]) ?_))
    refine (Act.Abides.mk (hm.askHost _ _ _ _)).andThen fun taken w₃ _ _ _ => ?_
    split
    · exact .return _
    · exact hexpando h w₃

/-- **Listing the names.** -/
theorem abides_names {target : Value} (hb : R.Brackets R' w e [target])
    (hr : ∀ id w, Act.Abides R (m.release id) (m'.release id) w) (hm : Serves R' m m') :
    Act.Abides R (m.names e target).run (m'.names e target).run w := by
  refine .mk (hb.locked ?_)
  refine (Act.Abides.expectHandle target).andThen fun h w₁ hh _ _ => ?_
  obtain ⟨rfl, rfl⟩ := eq_of_expectHandle hh
  refine (Act.Abides.object h).andThen fun o w₂ ho _ _ => ?_
  obtain ⟨-, rfl⟩ := eq_of_readHeap (f := (Heap.get · h)) ho
  cases o with
  | host host expandos =>
    refine .mk (abides_sharing (hb.owners _ _ _) (hr host) (hb.pinning (by simp) ?_))
    refine (Act.Abides.attempt (hm.askHost _ _ _ _)).andThen fun contributed _ _ _ _ => ?_
    refine (Act.Abides.object h).andThen fun o _ _ _ _ => ?_
    cases o <;> exact .return _
  | _ => exact .return _

/-- **Calling a value.** -/
theorem abides_call {callee this : Value} {args : List Value}
    (hb : R.Brackets R' w e (callee :: this :: args)) (hm : Serves R' m m')
    (hraise : ∀ cls message w,
      Act.Abides R' (m.raise e cls message) (m'.raise e cls message) w) :
    Act.Abides R (m.call e callee this args).run (m'.call e callee this args).run w := by
  refine .mk (hb.locked (hb.pinning ⟨by simp, by simp⟩ ?_))
  refine (hm.callTarget callee).andThen fun target _ _ _ _ => ?_
  cases target with
  | body id => exact .mk (hm.sharing (hm.runBody _ _ _ _ _))
  | hostMethod wrapper name =>
    refine (Act.Abides.attempt (abides_host? _)).andThen fun r _ _ _ _ => ?_
    cases r with
    | none => exact .fail _
    | some id => exact .mk (hm.sharing (hm.askHost _ _ _ _))
  | host id => exact .mk (hm.sharing (hm.askHost _ _ _ _))
  | notCallable =>
    exact (Act.Abides.attempt (hraise _ _ _)).andThen fun _ _ _ _ _ => .fail _

/-- **Converting to a primitive.** Only the host of a wrapper is asked with the wrapper
pinned; the string form of anything else is a conversion of its own. -/
theorem abides_toPrimitive {v : Value} (hb : R.Brackets R' w e [v])
    (hr : ∀ id w, Act.Abides R (m.release id) (m'.release id) w) (hm : Serves R' m m')
    (hd : (∀ h, v = .object h → ¬ (w.engine e).heap.IsHost h) →
      ∀ w', Act.Abides R (m.display e v) (m'.display e v) w')
    (hint : Hint) :
    Act.Abides R (m.toPrimitive e v hint).run (m'.toPrimitive e v hint).run w := by
  unfold Machine.toPrimitive
  split
  · exact .return _
  · refine .mk (hb.locked ?_)
    refine (Act.Abides.attempt (abides_host? v)).andThen fun r w₁ hr₁ _ _ => ?_
    obtain ⟨r, hr₁, hok⟩ := attempt_eq_ok.1 hr₁
    obtain rfl := Except.ok.inj hok
    obtain ⟨rfl, hnone⟩ := eq_of_host? hr₁
    cases r with
    | some id =>
      exact .mk (abides_sharing (hb.owners _ _ _) (hr id)
        (hb.pinning (by simp) (hm.askHost _ _ _ _)))
    | none =>
      have hd := hd (by simpa using hnone rfl)
      cases hint with
      | number => exact .return _
      | _ => exact (Act.Abides.attempt (hd _)).andThen fun _ _ _ _ _ => .return _

end Machine

end EmbeddedScript
