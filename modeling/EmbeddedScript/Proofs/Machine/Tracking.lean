import EmbeddedScript.Proofs.Machine.Serving

/-!
# Actions that go on excursions

Every engine operation is an excursion if the natives that it asks go on excursions.
That is shown here for the ways in which actions are put together; the operations
follow.

The worlds in which actions are followed are those of a **terrain**, a property that
excursions keep, and an action leads where an excursion does. A terrain may ask for more:
that nothing is collected, that certain locks are left as they were, or that natives are
followed at some requests only. So `Act.Tracks` says of an action where it leads and, of
every moment at which it runs foreign code, what holds then.
-/

namespace EmbeddedScript

open World (Move Step Excursion Aside)

variable {κ α β : Type}

/-- **The request runs with the lock released** when an adapter makes it: what answers it
may take long or come back to the engine. -/
def Request.IsWindowed : Request → Prop
  | bound (.invoke _) | bound (.invokeMethod _ _) | bound .properties => True
  | _ => False

/-- **Where excursions go**: a property of sound worlds that excursions keep, also
from within, and what is asked of them besides. -/
structure Terrain (κ : Type) where
  /-- The property. -/
  Holds : World κ → Prop
  /-- It holds of sound worlds only. -/
  sound : ∀ {w}, Holds w → w.Sound
  /-- An excursion keeps it. -/
  excursion : ∀ {w w'}, Holds w → Excursion True w w' → Holds w'
  /-- It is kept when values are pinned. -/
  pushed : ∀ {w}, Holds w → ∀ e vs, Holds (w.push e vs)
  /-- It is kept when a heap is lent out. -/
  lent : ∀ {w}, Holds w → ∀ e loan, Holds (w.lend e loan)
  /-- Whether heaps may be collected. -/
  Collects : Prop
  /-- The engines whose lock must be left as it was. -/
  Watched : EngineId → Prop
  /-- Whether natives are followed also when they answer such requests. -/
  Windows : Prop

/-- **What any native does is allowed.** -/
structure Terrain.Free (T : Terrain κ) : Prop where
  /-- It may collect. -/
  collects : T.Collects
  /-- It may leave a lock behind. -/
  unwatched : ∀ e, ¬ T.Watched e
  /-- It is followed whatever it answers. -/
  windows : T.Windows

namespace Terrain

variable {w w' : World κ} {collects : Prop}

/-- An excursion does not leave its terrain. -/
theorem after (T : Terrain κ) (hw : T.Holds w) (hx : Excursion collects w w') : T.Holds w' :=
  T.excursion hw (hx.mono fun _ => trivial)

/-- A move does not leave the terrain. -/
theorem move (T : Terrain κ) (hw : T.Holds w) (hm : Move collects w w') : T.Holds w' :=
  T.after hw (.move hm)

/-- Another number of owners of a native does not matter. -/
theorem modifyOwners (T : Terrain κ) (hw : T.Holds w) (id : NativeId) (f : Nat → Nat) :
    T.Holds (w.modifyOwners id f) :=
  T.excursion hw (.move (.aside (.modifyOwners w id f)))

/-- Nor does the lock. -/
theorem take (T : Terrain κ) (hw : T.Holds w) (e : EngineId) :
    T.Holds (w.modifyEngine e fun s => { s with lock := s.lock.take }) :=
  T.excursion hw (.move (.relocked True w e Lock.take))

/-- What every step keeps. -/
def ofStep (Holds : World κ → Prop) (sound : ∀ {w}, Holds w → w.Sound)
    (step : ∀ {w w'}, Holds w → Step w w' → Holds w') (collects : Prop) : Terrain κ where
  Holds := Holds
  sound := sound
  excursion hw hx := by
    have hr := hx.reaches
    clear hx
    induction hr with
    | refl => exact hw
    | tail _ hs ih => exact step ih hs
  pushed hw e vs := step hw (.pushed e vs)
  lent hw e loan := step hw (.lent e loan)
  Collects := collects
  Watched _ := False
  Windows := True

/-- All sound worlds. -/
def everywhere (κ : Type) : Terrain κ := ofStep World.Sound id World.Sound.step True

/-- All sound worlds, but nothing is collected. -/
def quiet (κ : Type) : Terrain κ := ofStep World.Sound id World.Sound.step False

/-- Worlds that were reached from a sound one. -/
def reachedFrom (w : World κ) (hw : w.Sound) : Terrain κ :=
  ofStep w.Reaches hw.reaches (fun hr hs => hr.tail hs) True

/-- **Worlds in which operands are pinned**: the values that were about to be pushed
onto a stack are on it, and are the objects that they were. So are the wrappers of the
host methods among them. -/
def pinned (T : Terrain κ) (w₀ : World κ) (e : EngineId) (vs : List Value) : Terrain κ where
  Holds w := T.Holds w ∧ ∀ h, (w₀.push e vs).Pinned e h →
    w.Pinned e h ∧ ∀ i, w₀.identity? e h = some i → w.identity? e h = some i
  sound hw := T.sound hw.1
  excursion hw hx := by
    refine ⟨T.excursion hw.1 hx, fun h hp => ?_⟩
    obtain ⟨hp, hi⟩ := hw.2 h hp
    exact ⟨hp.excursion hx (T.sound hw.1), fun i h₀ =>
      hx.identity?_of_pinned (T.sound hw.1) hp (hi i h₀)⟩
  pushed hw e' vs' := by
    refine ⟨T.pushed hw.1 e' vs', fun h hp => ?_⟩
    obtain ⟨hp, hi⟩ := hw.2 h hp
    exact ⟨hp.push e' vs', fun i h₀ => by rw [World.identity?, World.heap_push]; exact hi i h₀⟩
  lent hw e' loan := by
    refine ⟨T.lent hw.1 e' loan, fun h hp => ?_⟩
    obtain ⟨hp, hi⟩ := hw.2 h hp
    exact ⟨hp.lend e' loan, fun i h₀ => by rw [World.identity?, World.heap_lend]; exact hi i h₀⟩
  Collects := T.Collects
  Watched := T.Watched
  Windows := T.Windows

theorem Free.everywhere : (everywhere κ).Free := ⟨trivial, fun _ => id, trivial⟩

theorem Free.reachedFrom (w : World κ) (hw : w.Sound) : (reachedFrom w hw).Free :=
  ⟨trivial, fun _ => id, trivial⟩

/-- What is free stays free with operands pinned. -/
theorem Free.pinned {T : Terrain κ} (hT : T.Free) (w : World κ) (e : EngineId)
    (vs : List Value) : (T.pinned w e vs).Free :=
  ⟨hT.collects, hT.unwatched, hT.windows⟩

/-- Right after operands were pushed they are pinned. -/
theorem holds_pinned_push {T : Terrain κ} {w₀ : World κ} {e : EngineId} (vs : List Value)
    (hw : T.Holds w) (he : (w.engine e).heap = (w₀.engine e).heap
      ∧ (w.engine e).roots = (w₀.engine e).roots) :
    (T.pinned w₀ e vs).Holds (w.push e vs) := by
  refine ⟨T.pushed hw e vs, fun h hp => ⟨?_, fun i hi => ?_⟩⟩
  · simpa [World.Pinned, World.push, he] using hp
  · rwa [World.identity?, World.heap_push, he.1]

/-- They are pinned when an operation asks a host. -/
theorem holds_entered {T : Terrain κ} (hw : T.Holds w) (e : EngineId) (host : NativeId)
    (vs : List Value) : (T.pinned w e vs).Holds (w.entered e host vs) :=
  holds_pinned_push vs (T.modifyOwners (T.take hw e) host _) ⟨by simp, by simp⟩

/-- An operand is the object that it was. -/
theorem identity?_of_pinned {T : Terrain κ} {w₀ : World κ} {e : EngineId} {vs : List Value}
    (hw : (T.pinned w₀ e vs).Holds w) {h : Handle} (hv : Value.object h ∈ vs) {i : Identity}
    (hi : w₀.identity? e h = some i) : w.identity? e h = some i :=
  (hw.2 h (World.pinned_push hv)).2 i hi

end Terrain

/-- **An action may lead there**: on an excursion, and with every watched lock as it
was. -/
def Terrain.Leads (T : Terrain κ) (w w' : World κ) : Prop :=
  Excursion T.Collects w w' ∧ ∀ e, T.Watched e → (w'.engine e).lock = (w.engine e).lock

namespace Terrain.Leads

variable {T : Terrain κ} {w w' w'' : World κ} {e : EngineId}

theorem refl (T : Terrain κ) (w : World κ) : T.Leads w w := ⟨.refl w, fun _ _ => rfl⟩

theorem trans (hx : T.Leads w w') (hx' : T.Leads w' w'') : T.Leads w w'' :=
  ⟨hx.1.trans hx'.1, fun e he => (hx'.2 e he).trans (hx.2 e he)⟩

/-- A move that leaves locks alone. -/
theorem move (hm : Move T.Collects w w')
    (hl : ∀ e, (w'.engine e).lock = (w.engine e).lock) : T.Leads w w' :=
  ⟨.move hm, fun e _ => hl e⟩

/-- What happens beside the engines. -/
theorem aside (ha : Aside w w') : T.Leads w w' :=
  .move (.aside ha) fun e => by rw [World.engine, ha.engines, World.engine]

/-- Something goes on record. -/
theorem recorded {event : Event} (hn : event.IsNoPin) : T.Leads w (w.record event) :=
  .move (.recorded hn) fun _ => rfl

theorem modifyOwners (T : Terrain κ) (w : World κ) (id : NativeId) (f : Nat → Nat) :
    T.Leads w (w.modifyOwners id f) :=
  .aside (.modifyOwners w id f)

/-- Something stale goes on record. -/
theorem recordStale (T : Terrain κ) (w : World κ) (e : EngineId) (vs : List Value) :
    T.Leads w (w.recordStale e vs) := by
  unfold World.recordStale
  split
  · exact .refl T w
  · exact .recorded (show (Event.storedStale e vs).IsNoPin from trivial)

/-- A change to an engine that keeps its roots, its loan and its lock. -/
theorem tended {f : Engine → Engine} (hf : (w.engine e).Tended T.Collects (f (w.engine e)))
    (hb : w.StoresCurrent → (w.engine e).heap.Backs (f (w.engine e)).heap)
    (hl : (f (w.engine e)).lock = (w.engine e).lock) : T.Leads w (w.modifyEngine e f) :=
  .move (.tended e f hf hb) (World.lock_modifyEngine hl)

/-- A change to an engine's bookkeeping. -/
theorem kept {f : Engine → Engine} (hh : (f (w.engine e)).heap = (w.engine e).heap)
    (hr : (f (w.engine e)).roots = (w.engine e).roots)
    (hl : (f (w.engine e)).loan = (w.engine e).loan)
    (hk : (f (w.engine e)).lock = (w.engine e).lock) : T.Leads w (w.modifyEngine e f) :=
  .tended ⟨.inl hh, hr, hl⟩ (fun _ => hh ▸ .refl _) hk

/-- The lock of an engine that is not watched changes. -/
theorem relocked {f : Lock → Lock} (he : ¬ T.Watched e) :
    T.Leads w (w.modifyEngine e fun s => { s with lock := f s.lock }) := by
  refine ⟨.move (.relocked _ w e f), fun e' he' => ?_⟩
  refine (World.lock_relock w e e' f).trans (if_neg ?_)
  rintro rfl
  exact he he'

end Terrain.Leads

/-- Excursions on a terrain, as a regime. -/
@[reducible] def Terrain.regime (T : Terrain κ) : Regime κ where
  Holds := T.Holds
  Rel := T.Leads
  refl := .refl T
  trans := .trans
  after hw hx := T.after hw hx.1

/-- **The first action goes on an excursion, and the second does the same**, in a world
of the terrain. -/
abbrev Act.Tracks (T : Terrain κ) (a a' : Act κ α) (w : World κ) : Prop :=
  Act.Abides T.regime a a' w

/-- Natives go on excursions, and do the same on both machines, in the worlds of the
terrain. -/
structure Machine.Tracks (T : Terrain κ) (m m' : Machine κ) : Prop where
  /-- When they are asked. -/
  ask : ∀ id r w, (r.IsWindowed → T.Windows) → Act.Tracks T (m.ask id r) (m'.ask id r) w
  /-- When they are finalised. -/
  finalise : ∀ n w, Act.Tracks T (m.finalise n) (m'.finalise n) w

/-- What tracks on a terrain tracks where operands are pinned besides. -/
theorem Machine.Tracks.pinned {T : Terrain κ} {m m' : Machine κ} (hm : Machine.Tracks T m m')
    (w : World κ) (e : EngineId) (vs : List Value) : Machine.Tracks (T.pinned w e vs) m m' :=
  ⟨fun id r w' hr hw => hm.ask id r w' hr hw.1, fun n w' hw => hm.finalise n w' hw.1⟩

namespace Act

variable {T : Terrain κ} {a a' : Act κ α} {w w' : World κ} {e : EngineId}

/-! ## Brackets -/

/-- **With the lock held.** -/
theorem Tracks.locked
    (ha : Tracks T a a' (w.modifyEngine e fun s => { s with lock := s.lock.take })) :
    Tracks T (Act.locked e a) (Act.locked e a') w := by
  have hm := Move.relocked T.Collects w e Lock.take
  refine Abides.within (fun hw => T.move hw hm) ha fun hx => ⟨?_, fun e' he' => ?_⟩
  · exact ((Excursion.move hm).trans hx.1).trans (.move (.relocked _ _ e (Lock.undo · .level)))
  · -- the level is given back to the lock that it was taken of
    have hl := (hx.2 e' he').trans (World.lock_relock w e e' Lock.take)
    refine (World.lock_relock _ e e' (Lock.undo · .level)).trans ?_
    by_cases he : e = e'
    · subst he
      rw [if_pos rfl] at hl ⊢
      exact congrArg (Lock.undo · .level) hl
    · rwa [if_neg he] at hl ⊢

/-- **With values pinned.** -/
theorem Tracks.pinning {vs : List Value} (ha : Tracks T a a' (w.push e vs)) :
    Tracks T (Act.pinning e vs a) (Act.pinning e vs a') w := by
  refine @Abides.within κ α T.regime a a' w (fun w' => w'.push e vs)
    (fun w' => w'.truncate e (w.engine e).roots.height) (fun hw => T.pushed hw e vs) ha
    fun hx => ⟨.pinning e vs hx.1, fun e' he' => ?_⟩
  rw [World.lock_truncate, hx.2 e' he', World.lock_push]

/-- **With operands pinned**: inside, they are the objects that they were. -/
theorem Tracks.pinningOperands (w₀ : World κ) {vs : List Value}
    (he : (w.engine e).heap = (w₀.engine e).heap ∧ (w.engine e).roots = (w₀.engine e).roots)
    (ha : Tracks (T.pinned w₀ e vs) a a' (w.push e vs)) :
    Tracks T (Act.pinning e vs a) (Act.pinning e vs a') w := fun hw =>
  Tracks.pinning (fun _ => ha (T.holds_pinned_push vs hw he)) hw

/-- One more reader is a loan of its own. -/
theorem modifyEngine_withReader (w : World κ) (e : EngineId) :
    (w.modifyEngine e fun s => { s with loan := s.loan.withReader })
      = w.lend e (w.engine e).loan.withReader :=
  World.modifyEngine_congr rfl

/-- Without the reader that was added, the heap is lent out as it was before. -/
theorem modifyEngine_withoutReader {l : Loan} (hl : (w.engine e).loan = l.withReader) :
    (w.modifyEngine e fun s => { s with loan := s.loan.withoutReader }) = w.lend e l := by
  refine World.modifyEngine_congr ?_
  simp only [hl]
  cases l <;> rfl

/-- **With the heap lent to one more reader.** -/
theorem Tracks.reading (ha : ∀ w', Tracks T a a' w') :
    Tracks T (Act.reading e a) (Act.reading e a') w := by
  refine @Abides.within κ α T.regime a a' w (fun w' => w'.modifyEngine e fun s =>
      { s with loan := s.loan.withReader }) _ (fun hw => ?_) (ha _) (fun hx => ?_)
  · rw [modifyEngine_withReader]
    exact T.lent hw e _
  · -- what is given back is the loan that was found, since an excursion keeps loans
    rw [modifyEngine_withReader] at hx ⊢
    rw [modifyEngine_withoutReader (l := (w.engine e).loan)
      ((hx.1.engine e).2.trans (by simp [World.lend]))]
    refine ⟨hx.1.lending e _, fun e' he' => ?_⟩
    rw [World.lock_lend, hx.2 e' he', World.lock_lend]

/-- **With the heap lent to a writer**, if nobody had it. -/
theorem Tracks.writing (hl : (w.engine e).loan = .none) (ha : ∀ w', Tracks T a a' w') :
    Tracks T (Act.writing e a) (Act.writing e a') w := by
  refine @Abides.within κ α T.regime a a' w (fun w' => w'.lend e .exclusive)
    (fun w' => w'.lend e .none) (fun hw => T.lent hw e .exclusive) (ha _)
    fun hx => ⟨hl ▸ Excursion.lending e .exclusive hx.1, fun e' he' => ?_⟩
  rw [World.lock_lend, hx.2 e' he', World.lock_lend]

/-- **The brackets of an operation** lead to where its operands are pinned. -/
theorem brackets_pinned (T : Terrain κ) (w : World κ) (e : EngineId) (vs : List Value) :
    T.regime.Brackets (T.pinned w e vs).regime w e vs where
  locked ha := Tracks.locked ha
  pinning he ha := Tracks.pinningOperands w he ha
  owners w id f := Terrain.Leads.modifyOwners T w id f

/-! ## The heap -/

/-- **A change of the heap** as the engine changes heaps. -/
theorem Tracks.writeHeap {f : Heap → α × Heap}
    (hf : (f (w.engine e).heap).2 = (w.engine e).heap
      ∨ Heap.Change T.Collects (w.engine e).roots (w.engine e).heap (f (w.engine e).heap).2)
    (hb : (w.engine e).heap.Sound → (w.engine e).heap.Backs (f (w.engine e).heap).2) :
    Tracks T (Act.writeHeap e f) (Act.writeHeap e f) w := by
  refine .of_rel fun hw => ?_
  cases hl : (w.engine e).loan.allowsWrite with
  | true =>
    rw [after_of_ok (writeHeap_of_allowsWrite hl f)]
    exact .tended ⟨hf, rfl, rfl⟩ (fun _ => hb (T.sound hw e)) rfl
  | false =>
    rw [after_of_error (writeHeap_of_lent hl f)]
    exact .refl T w

/-- **A change that puts values into an object.** The heap holds something stale
afterwards only if that is on record. -/
theorem Tracks.storeHeap {vs : List Value} {stored : α → Bool} {f : Heap → α × Heap}
    (hf : (f (w.engine e).heap).2 = (w.engine e).heap
      ∨ Heap.Change T.Collects (w.engine e).roots (w.engine e).heap (f (w.engine e).heap).2)
    (hb : (w.engine e).heap.Sound →
      (stored (f (w.engine e).heap).1 = true → ∀ v ∈ vs, (w.engine e).heap.isCurrent v = true) →
        (w.engine e).heap.Backs (f (w.engine e).heap).2) :
    Tracks T (Act.storeHeap e vs stored f) (Act.storeHeap e vs stored f) w := by
  refine .of_rel fun hw => ?_
  cases hl : (w.engine e).loan.allowsWrite with
  | true =>
    rw [after_of_ok (storeHeap_of_allowsWrite hl vs stored f)]
    refine (Terrain.Leads.recordStale T w e _).trans (.tended ?_ (fun hstores => ?_) rfl)
    · rw [World.engine_recordStale]
      exact ⟨hf, rfl, rfl⟩
    · rw [World.engine_recordStale]
      refine hb (T.sound hw e) fun hstored => Heap.staleAmong_eq_nil_iff.1 ?_
      have hnil := hstores.eq_nil
      rwa [if_pos hstored] at hnil
  | false =>
    rw [after_of_error (storeHeap_of_lent hl vs stored f)]
    exact .refl T w

end Act

namespace Machine

open Act

variable {T : Terrain κ} {m m' : Machine κ} {a a' : Act κ α} {w : World κ}
  {e : EngineId} {id : NativeId}

/-! ## Natives -/

/-- Asking a native goes on record and is then up to the native. -/
theorem Tracks.request (hm : Machine.Tracks T m m') (r : Request)
    (hr : r.IsWindowed → T.Windows) :
    Act.Tracks T (m.request id r) (m'.request id r) w :=
  (Act.Abides.update (R := T.regime) (Terrain.Leads.recorded
    (show (Event.asked id r w.postures).IsNoPin from trivial))).bind
    fun _ _ _ _ _ => hm.ask id r _ hr

theorem Tracks.askHost (hm : Machine.Tracks T m m') (r : HostRequest) :
    Act.Tracks T (m.askHost e id r) (m'.askHost e id r) w :=
  hm.request (.host e r) False.elim

/-- Letting go of a share may finalise the native. -/
theorem tracks_release (hf : ∀ n w, Act.Tracks T (m.finalise n) (m'.finalise n) w) :
    Act.Tracks T (m.release id) (m'.release id) w :=
  abides_release (Terrain.Leads.modifyOwners T w id)
    (fun _ _ => Terrain.Leads.recorded (show (Event.finalised _ _).IsNoPin from trivial)) hf

theorem Tracks.release (hm : Machine.Tracks T m m') :
    Act.Tracks T (m.release id) (m'.release id) w :=
  tracks_release hm.finalise

theorem Tracks.releaseAll (hm : Machine.Tracks T m m') (os : List HeapObject) :
    Act.Tracks T (m.releaseAll os) (m'.releaseAll os) w :=
  abides_releaseAll (fun _ _ => hm.release) os

/-- Natives that track are followed wherever operations ask them or let go of them. -/
theorem Tracks.serves (hm : Machine.Tracks T m m') : Serves T.regime m m' where
  askHost _ _ r _ := hm.askHost r
  runBody _ _ _ _ _ := hm.request _ False.elim
  release _ _ := hm.release
  owners w id f := Terrain.Leads.modifyOwners T w id f
  reading ha := Act.Tracks.reading ha

end Machine

end EmbeddedScript
