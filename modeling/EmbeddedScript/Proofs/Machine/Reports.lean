import EmbeddedScript.Proofs.Machine.Running

/-!
# What changes the list of reports

An engine keeps the descriptions of the exceptions that were reported. Two operations write
to that list: one adds to it, the other takes it. **Every other operation leaves it to
natives** (`Machine.ReportsWithin.perform`).

What natives do to the list is given by a preorder, so that what is said here can be read
for natives that leave the list alone, for natives that only add to it, or for any others.
-/

namespace EmbeddedScript

variable {κ α β : Type}

/-- **The operation writes to the reports** of an engine: it adds one, or takes them. -/
def Op.Reports (e : EngineId) : Op κ → Prop
  | .report e' _ | .takeReported e' => e' = e
  | _ => False

namespace World

variable {w : World κ} {e : EngineId}

/-- The descriptions of the exceptions that were reported to an engine. -/
def reported (w : World κ) (e : EngineId) : List String := (w.engine e).reported

/-- Add a description to them. -/
def addReport (w : World κ) (e : EngineId) (text : String) : World κ :=
  w.modifyEngine e fun s => { s with reported := s.reported ++ [text] }

theorem reported_addReport (w : World κ) (e : EngineId) (text : String) :
    (w.addReport e text).reported e = w.reported e ++ [text] := by
  rw [reported, addReport, engine_modifyEngine_self, reported]

theorem reported_modifyEngine {e' : EngineId} {f : Engine → Engine}
    (hf : (f (w.engine e')).reported = (w.engine e').reported) :
    (w.modifyEngine e' f).reported e = w.reported e :=
  rel_modifyEngine (R := fun s s' => s'.reported = s.reported) (fun _ => rfl) hf e

theorem reported_modifyEngine_of_ne {e' : EngineId} {f : Engine → Engine} (he : e' ≠ e) :
    (w.modifyEngine e' f).reported e = w.reported e := by
  rw [reported, engine_modifyEngine, if_neg he, reported]

theorem reported_of_engines_eq {w' : World κ} (he : w'.engines = w.engines) :
    w'.reported e = w.reported e := by
  rw [reported, engine, he, ← engine, reported]

theorem reported_addEngine (options : Options) :
    (w.addEngine options).2.reported e = w.reported e := by
  rw [reported, engine_addEngine]
  split
  case isTrue he =>
    have hnew : w.engine e = default := by simp [World.engine, he]
    rw [reported, hnew]
    rfl
  case isFalse => rfl

theorem reported_dropRoot (r : Root) : (w.dropRoot r).reported e = w.reported e := by
  rw [reported, engine_dropRoot]
  split <;> rfl

theorem reported_addRoot (e' : EngineId) (v : Value) :
    (w.addRoot e' v).2.reported e = w.reported e :=
  reported_modifyEngine (f := fun s => { s with roots := s.roots.protect v }) rfl

theorem reported_recordStale (e' : EngineId) (vs : List Value) :
    (w.recordStale e' vs).reported e = w.reported e := by
  rw [reported, engine_recordStale, reported]

end World

namespace Machine

open Act

/-! ## Natives and the list -/

/-- **What natives may do to the reports of an engine**, whenever they are run. -/
structure ReportsWithin (m : Machine κ) (e : EngineId)
    (R : List String → List String → Prop) : Prop where
  /-- They may do nothing. -/
  refl : ∀ l, R l l
  /-- They may do one thing after another. -/
  trans : ∀ {l l' l''}, R l l' → R l' l'' → R l l''
  /-- When they are asked. -/
  ask : ∀ id r w, R (w.reported e) (((m.ask id r).after w).reported e)
  /-- When they are finalised. -/
  finalise : ∀ n w, R (w.reported e) (((m.finalise n).after w).reported e)

variable {m : Machine κ} {e : EngineId} {R : List String → List String → Prop}

/-- The regime in which only natives write to the list. -/
@[reducible] def ReportsWithin.regime (hm : m.ReportsWithin e R) : Regime κ where
  Holds _ := True
  Rel w w' := R (w.reported e) (w'.reported e)
  refl _ := hm.refl _
  trans h h' := hm.trans h h'
  after _ _ := trivial

namespace ReportsWithin

variable (hm : m.ReportsWithin e R) {a a' : Act κ α} {w : World κ} {e' : EngineId}

include hm

/-- What leaves the list alone is what natives may do. -/
theorem rel_of_eq {w' : World κ} (h : w'.reported e = w.reported e) :
    R (w.reported e) (w'.reported e) :=
  h ▸ hm.refl _

theorem update {f : World κ → World κ} (h : (f w).reported e = w.reported e) :
    Act.Abides hm.regime (Act.update f) (Act.update f) w :=
  .update (hm.rel_of_eq h)

theorem extract {f : World κ → α × World κ} (h : (f w).2.reported e = w.reported e) :
    Act.Abides hm.regime (Act.extract f) (Act.extract f) w :=
  .extract (hm.rel_of_eq h)

/-! ### Brackets -/

/-- A bracket that leaves the list alone. -/
theorem around {enter exit : World κ → World κ} (henter : (enter w).reported e = w.reported e)
    (hexit : ∀ w, (exit w).reported e = w.reported e)
    (ha : Act.Abides hm.regime a a' (enter w)) :
    Act.Abides hm.regime (Act.within enter exit a) (Act.within enter exit a') w := by
  refine Act.Abides.within id ha fun hx => ?_
  show R (w.reported e) ((exit _).reported e)
  rw [hexit, ← henter]
  exact hx

theorem brackets (w : World κ) (e' : EngineId) (vs : List Value) :
    hm.regime.Brackets hm.regime w e' vs where
  locked ha := by
    refine hm.around ?_ (fun _ => ?_) ha
    · exact World.reported_modifyEngine rfl
    · exact World.reported_modifyEngine rfl
  pinning {_ a a' w₁} _ ha := by
    show Act.Abides hm.regime
      (Act.within (·.push e' vs) (·.truncate e' (w₁.engine e').roots.height) a)
      (Act.within (·.push e' vs) (·.truncate e' (w₁.engine e').roots.height) a') w₁
    refine hm.around ?_ (fun _ => ?_) ha
    · exact World.reported_modifyEngine rfl
    · exact World.reported_modifyEngine rfl
  owners _ _ _ := hm.refl _

theorem follows : Follows hm.regime m m where
  ask id r w := .of_rel fun _ => hm.ask id r w
  finalise n w := .of_rel fun _ => hm.finalise n w

theorem request (id : NativeId) (r : Request) :
    Act.Abides hm.regime (m.request id r) (m.request id r) w :=
  (hm.update rfl).bind fun _ _ _ _ _ => hm.follows.ask id r _

theorem serves : Serves hm.regime m m where
  askHost _ id _ _ := hm.request id _
  runBody _ id _ _ _ := hm.request id _
  release _ _ := abides_release (fun _ => hm.refl _) (fun _ _ => hm.refl _) hm.follows.finalise
  owners _ _ _ := hm.refl _
  reading ha := hm.around (World.reported_modifyEngine rfl)
    (fun _ => World.reported_modifyEngine rfl) (ha _)

/-! ### Operations -/

theorem writeHeap (f : Heap → α × Heap) :
    Act.Abides hm.regime (Act.writeHeap e' f) (Act.writeHeap e' f) w := by
  refine .of_rel fun _ => hm.rel_of_eq ?_
  cases hl : (w.engine e').loan.allowsWrite with
  | true =>
    rw [after_of_ok (writeHeap_of_allowsWrite hl f)]
    exact World.reported_modifyEngine rfl
  | false => rw [after_of_error (writeHeap_of_lent hl f)]

theorem storeHeap (vs : List Value) (stored : α → Bool) (f : Heap → α × Heap) :
    Act.Abides hm.regime (Act.storeHeap e' vs stored f) (Act.storeHeap e' vs stored f) w := by
  refine .of_rel fun _ => hm.rel_of_eq ?_
  cases hl : (w.engine e').loan.allowsWrite with
  | true =>
    rw [after_of_ok (storeHeap_of_allowsWrite hl vs stored f)]
    exact (World.reported_modifyEngine rfl).trans (World.reported_recordStale e' _)
  | false => rw [after_of_error (storeHeap_of_lent hl vs stored f)]

theorem taken (o : HeapObject) (outcome : Except EngineError Handle) :
    Act.Abides hm.regime (m.taken e' o outcome) (m.taken e' o outcome) w := by
  cases outcome with
  | ok h => exact .pure _
  | error err =>
    exact (hm.around (World.reported_modifyEngine rfl) (fun _ => World.reported_modifyEngine rfl)
      (abides_releaseAll hm.serves.release [o])).bind fun _ _ _ _ _ => .pure _

theorem allocate (o : HeapObject) :
    Act.Abides hm.regime (m.allocate e' o).run (m.allocate e' o).run w :=
  Act.Abides.bind (hm.writeHeap _) fun _ _ _ _ _ => hm.taken o _

theorem createArray (length : Nat) :
    Act.Abides hm.regime (m.createArray e' length).run (m.createArray e' length).run w := by
  unfold Machine.createArray
  cases Elements.create length with
  | ok els => exact hm.allocate _
  | error fault => exact .fail _

theorem raise (cls : ThrownClass) (message : String) :
    Act.Abides hm.regime (m.raise e' cls message) (m.raise e' cls message) w :=
  abides_raise (hm.allocate _)

theorem withArray (v : Value) (f : Elements → Except TypeFault (α × Elements)) :
    Act.Abides hm.regime (Machine.withArray e' v f : Attempt κ α).run
      (Machine.withArray e' v f).run w :=
  (Act.Abides.expectHandle v).andThen fun _ _ _ _ _ => .mk (hm.writeHeap _)

theorem storeElement (v value : Value) (f : Elements → Except TypeFault (α × Elements)) :
    Act.Abides hm.regime (Machine.storeElement e' v value f : Attempt κ α).run
      (Machine.storeElement e' v value f).run w :=
  (Act.Abides.expectHandle v).andThen fun _ _ _ _ _ => .mk (hm.storeHeap _ _ _)

theorem collect : Act.Abides hm.regime (m.collect e') (m.collect e') w :=
  (Act.Abides.view _).bind fun _ _ _ _ _ => (hm.writeHeap _).bind fun _ _ _ _ _ =>
    (hm.update (World.reported_modifyEngine rfl)).bind fun _ _ _ _ _ =>
      (abides_releaseAll hm.serves.release _).bind fun _ _ _ _ _ => .pure _

/-- **Every other operation leaves the list to natives.** -/
theorem perform {o : Op κ} (ho : ¬ o.Reports e) :
    Act.Abides hm.regime (m.perform o) (m.perform o) w := by
  have hs := hm.serves
  cases o with
  | newEngine options =>
    simp only [Machine.perform]
    exact hm.extract (World.reported_addEngine options)
  | createObject e => exact hm.allocate _
  | createArray e length => exact hm.createArray length
  | createArrayOf e items =>
    exact Act.Abides.bind (hm.storeHeap _ _ _) fun _ _ _ _ _ => hm.taken _ _
  | createFunction e name body => exact hm.allocate _
  | createHost e host => exact hm.allocate _
  | get e target name =>
    exact abides_get (hm.brackets w e _) hs.release hs fun _ _ _ _ _ _ _ _ _ _ => hm.allocate _
  | set e target name value =>
    exact abides_set (hm.brackets w e _) hs.release hs (fun _ _ => .mk (hm.storeHeap _ _ _))
      fun _ _ => .mk (hm.storeHeap _ _ _)
  | names e target => exact abides_names (hm.brackets w e _) hs.release hs
  | arrayLength e v => exact hm.withArray v _
  | arrayGet e v i => exact hm.withArray v _
  | arraySet e v i value => exact hm.storeElement v value _
  | arrayPush e v value => exact hm.storeElement v value _
  | arrayPop e v => exact hm.withArray v _
  | call e callee this args =>
    exact abides_call (hm.brackets w e _) hs fun cls message _ => hm.raise cls message
  | toPrimitive e v hint =>
    exact abides_toPrimitive (hm.brackets w e _) hs.release hs (fun _ _ => hs.display v) hint
  | display e v => exact hs.display v
  | kind e v => exact hs.kind v
  | hostOf e v => exact abides_hostOf hs.owners v
  | boundOf e v => exact abides_boundOf hs.owners v
  | isLive e v => exact abides_isLive v
  | liveObjects e => exact .readHeap _
  | protect e v =>
    exact hm.update (World.reported_modifyEngine
      (f := fun s => { s with roots := s.roots.protect v }) rfl)
  | unprotect e v =>
    exact hm.update (World.reported_modifyEngine
      (f := fun s => { s with roots := s.roots.unprotect v }) rfl)
  | root e v =>
    simp only [Machine.perform]
    exact hm.extract (World.reported_addRoot e v)
  | unroot r => exact hm.update (World.reported_dropRoot r)
  | collect e => exact hm.collect
  | safepoint e => exact abides_safepoint fun _ => hm.collect
  | raise e cls message => exact hm.raise cls message
  | describe e err => exact hs.describe err
  | report e' err =>
    exact (hs.describe err).bind fun _ _ _ _ _ =>
      hm.update (World.reported_modifyEngine_of_ne ho)
  | takeReported e' =>
    simp only [Machine.perform]
    exact hm.extract (World.reported_modifyEngine_of_ne ho)
  | lock e => exact hm.update (World.reported_modifyEngine rfl)
  | releaseLock e =>
    simp only [Machine.perform]
    exact hm.extract (World.reported_modifyEngine rfl)
  | spawn n =>
    simp only [Machine.perform]
    exact hm.extract rfl
  | retain id => exact hm.update rfl
  | release id => exact hs.release id w
  | ask id r => exact hm.request id r
  | become id state =>
    exact hm.update (World.reported_of_engines_eq (aside_become w id state).engines)
  | newRegistry room =>
    simp only [Machine.perform]
    exact hm.extract rfl
  | classFor r bound =>
    simp only [Machine.perform]
    exact hm.extract (World.reported_of_engines_eq (aside_classFor w r bound).engines)
  | finalizeRegistry r => exact hm.update rfl
  | newClass =>
    simp only [Machine.perform]
    exact hm.extract rfl
  | adapterClass id =>
    refine (Act.Abides.view _).bind fun n w₁ hn _ _ => ?_
    obtain ⟨rfl, rfl⟩ : w.native? id = n ∧ w = w₁ := by simpa [Act.view] using hn
    cases hn' : w.native? id with
    | none => exact .panic _
    | some n =>
      cases n with
      | adapter a =>
        exact hm.extract (World.reported_of_engines_eq (aside_adapterClass hn').engines)
      | _ => exact .panic _
  | intern c kind name =>
    simp only [Machine.perform]
    exact hm.extract rfl
  | note n => exact hm.update rfl
  | takeNotes =>
    simp only [Machine.perform]
    exact hm.extract rfl
  | _ => exact .view _

/-- What a frame drops leaves the list to natives. -/
theorem dropLocal (l : Local) :
    Act.Abides hm.regime (m.dropLocal l) (m.dropLocal l) w := by
  cases l with
  | guard e g => exact hm.update (World.reported_modifyEngine rfl)
  | root r => exact hm.update (World.reported_dropRoot r)
  | native id => exact hm.serves.release id w

theorem unwind (owned : List Local) :
    Act.Abides hm.regime (m.unwind owned) (m.unwind owned) w :=
  abides_unwind (fun l _ => hm.dropLocal l) owned

theorem rel_perform {o : Op κ} (ho : ¬ o.Reports e) {r : o.Reply} {w' : World κ}
    (hr : m.perform o w = .ok r w') : R (w.reported e) (w'.reported e) := by
  have hrel := (hm.perform ho (w := w) trivial).2
  rwa [after_of_ok hr] at hrel

theorem rel_dropLocal {l : Local} {u : Unit} {w' : World κ}
    (hl : m.dropLocal l w = .ok u w') : R (w.reported e) (w'.reported e) := by
  have hrel := (hm.dropLocal l (w := w) trivial).2
  rwa [after_of_ok hl] at hrel

end ReportsWithin

end Machine

end EmbeddedScript
