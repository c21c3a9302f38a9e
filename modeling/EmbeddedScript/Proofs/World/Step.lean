import Mathlib.Logic.Relation
import EmbeddedScript.Proofs.World.Classes
import EmbeddedScript.Proofs.World.Adapters
import EmbeddedScript.Proofs.Heap.Contents

/-!
# Steps of the world

Whatever engines, natives and native code do, the world changes in few ways. A
`Move` changes a heap, an engine's bookkeeping, the persistent roots, or what lies
beside the engines; a `Step` may also push or truncate the stack roots of an engine
and lend or take back its heap.

The last two come in pairs: an operation that pins its operands truncates the stack
to the height it found, and a heap that is lent is given back. An `Excursion` is a
run in which they do. **An excursion leaves every stack as it found it**, and with it
**every object that was pinned when it set out**: whatever was collected on the way
was collected from a stack that still had those pins on it.
-/

namespace EmbeddedScript

open Relation

variable {κ : Type}

/-! ## What a step does -/

/-- **What may happen to an engine** without its roots or its loan taking part. -/
structure Engine.Tended (collects : Prop) (s s' : Engine) : Prop where
  /-- The heap is left alone, or changed as the engine changes heaps. -/
  heap : s'.heap = s.heap ∨ Heap.Change collects s.roots s.heap s'.heap
  /-- The roots are left alone. -/
  roots : s'.roots = s.roots
  /-- The heap is lent out as it was. -/
  loan : s'.loan = s.loan

/-- **What every change to an engine leaves of it** that neither pins nor lends. -/
structure Engine.Steady (collects : Prop) (s s' : Engine) : Prop where
  /-- The heap is left alone, or changed as the engine changes heaps. -/
  heap : s'.heap = s.heap ∨ Heap.Change collects s.roots s.heap s'.heap
  /-- The stack of roots is left alone. -/
  stack : s'.roots.stack = s.roots.stack
  /-- The heap is lent out as it was. -/
  loan : s'.loan = s.loan

/-- An engine that is left alone is steady. -/
theorem Engine.Steady.refl (collects : Prop) (s : Engine) : s.Steady collects s :=
  ⟨.inl rfl, rfl, rfl⟩

/-- An engine that only its persistent roots change in is steady. -/
theorem Engine.Steady.of_stack_eq (collects : Prop) {s : Engine} {roots : RootSet}
    (hr : roots.stack = s.roots.stack) : s.Steady collects { s with roots := roots } :=
  ⟨.inl rfl, hr, rfl⟩

/-- The event is no protection and no end of one. -/
def Event.IsNoPin : Event → Prop
  | asked .. | finalised .. | storedStale .. => True
  | pinned .. | unpinned .. => False

instance : DecidablePred Event.IsNoPin
  | .asked .. | .finalised .. | .storedStale .. => isTrue trivial
  | .pinned .. | .unpinned .. => isFalse not_false

namespace World

/-- Protect a value without a root. -/
def protect (w : World κ) (e : EngineId) (v : Value) : World κ :=
  (w.modifyEngine e fun s => { s with roots := s.roots.protect v }).record (.pinned e v)

/-- Take away the protection of a value. -/
def unprotect (w : World κ) (e : EngineId) (v : Value) : World κ :=
  (w.modifyEngine e fun s => { s with roots := s.roots.unprotect v }).record (.unpinned e v)

/-- Push values onto an engine's stack of roots. -/
def push (w : World κ) (e : EngineId) (vs : List Value) : World κ :=
  w.modifyEngine e fun s => { s with roots := s.roots.push vs }

/-- Truncate an engine's stack of roots. -/
def truncate (w : World κ) (e : EngineId) (height : Nat) : World κ :=
  w.modifyEngine e fun s => { s with roots := s.roots.truncate height }

/-- Lend an engine's heap out in this way. -/
def lend (w : World κ) (e : EngineId) (loan : Loan) : World κ :=
  w.modifyEngine e fun s => { s with loan := loan }

/-- Change an engine's lock. -/
def relock (w : World κ) (e : EngineId) (f : Lock → Lock) : World κ :=
  w.modifyEngine e fun s => { s with lock := f s.lock }

/-- **The world in which an operation asks a host**: the lock is held, a share of the
host is owned, and the operands are pinned. -/
def entered (w : World κ) (e : EngineId) (host : NativeId) (vs : List Value) : World κ :=
  ((w.modifyEngine e fun s => { s with lock := s.lock.take }).modifyOwners host (· + 1)).push e vs

/-- **No stale value was ever stored**: whatever was put into an object was a primitive or
live at that moment, since `Act.storeHeap` records what was not. -/
def StoresCurrent (w : World κ) : Prop := ∀ e vs, .storedStale e vs ∉ w.journal

/-- **The worlds differ beside the engines only**: in natives and their owners, in
registries, classes and notes. -/
structure Aside (w w' : World κ) : Prop where
  /-- The engines are the same. -/
  engines : w'.engines = w.engines
  /-- The live roots are the same. -/
  roots : w'.roots = w.roots
  /-- As many roots were made. -/
  rootsMade : w'.rootsMade = w.rootsMade
  /-- The same happened. -/
  journal : w'.journal = w.journal
  /-- Names denote the natives that they denoted. -/
  natives : w.Retains w'
  /-- Classes change as classes do. -/
  classes : w.Learns w'
  /-- Adapters adhere to their classes. -/
  adapters : w.Adheres w'

/-- Only what no table holds may differ. -/
theorem Aside.of_tables {w w' : World κ} (he : w'.engines = w.engines) (hr : w'.roots = w.roots)
    (hm : w'.rootsMade = w.rootsMade) (hj : w'.journal = w.journal)
    (hn : w'.natives = w.natives) (hg : w'.registries = w.registries)
    (hc : w'.classes = w.classes) : Aside w w' :=
  ⟨he, hr, hm, hj, .of_natives hn, .of_classes hc, .of_tables hn hg (Nat.le_of_eq (by rw [hc]))⟩

/-- Nothing happens. -/
theorem Aside.refl (w : World κ) : Aside w w := .of_tables rfl rfl rfl rfl rfl rfl rfl

/-- A native gets another number of owners. -/
theorem Aside.modifyOwners (w : World κ) (id : NativeId) (f : Nat → Nat) :
    Aside w (w.modifyOwners id f) :=
  ⟨rfl, rfl, rfl, rfl, retains_modifyOwners w id f, .of_classes rfl, adheres_modifyOwners w id f⟩

/-- A native is added. -/
theorem Aside.addNative (w : World κ) (n : Native κ) : Aside w (w.addNative n).2 :=
  ⟨rfl, rfl, rfl, rfl, retains_addNative w n, .of_classes rfl, adheres_addNative w n⟩

/-- **A change of the world** that leaves stacks and loans alone. -/
inductive Move (collects : Prop) (w : World κ) : World κ → Prop
  /-- An engine's heap or its bookkeeping changes. Unless it is on record that something
  stale was stored, the heap holds nothing new that is stale. -/
  | tended (e : EngineId) (f : Engine → Engine)
      (hf : (w.engine e).Tended collects (f (w.engine e)))
      (hb : w.StoresCurrent → (w.engine e).heap.Backs (f (w.engine e)).heap) :
      Move collects w (w.modifyEngine e f)
  /-- An engine is made. -/
  | opened (options : Options) : Move collects w (w.addEngine options).2
  /-- A value is rooted. -/
  | rooted (e : EngineId) (v : Value) : Move collects w (w.addRoot e v).2
  /-- A root is dropped. -/
  | unrooted (r : Root) : Move collects w (w.dropRoot r)
  /-- A value is protected without a root. -/
  | pinned (e : EngineId) (v : Value) : Move collects w (w.protect e v)
  /-- The protection of a value is taken away. -/
  | unpinned (e : EngineId) (v : Value) : Move collects w (w.unprotect e v)
  /-- Something else is put on record. -/
  | recorded {event : Event} (hn : event.IsNoPin) : Move collects w (w.record event)
  /-- Nothing happens to the engines. -/
  | aside {w' : World κ} (ha : Aside w w') : Move collects w w'

/-- A lock may change in any way. -/
theorem Move.relocked (collects : Prop) (w : World κ) (e : EngineId) (f : Lock → Lock) :
    Move collects w (w.relock e f) :=
  .tended e _ ⟨.inl rfl, rfl, rfl⟩ fun _ => .refl _

/-- **A step of the world.** -/
inductive Step (w : World κ) : World κ → Prop
  /-- A change that leaves stacks and loans alone. -/
  | move {w' : World κ} (hm : Move True w w') : Step w w'
  /-- Values are pushed onto a stack. -/
  | pushed (e : EngineId) (vs : List Value) : Step w (w.push e vs)
  /-- A stack is truncated. -/
  | truncated (e : EngineId) (height : Nat) : Step w (w.truncate e height)
  /-- A heap is lent out in another way. -/
  | lent (e : EngineId) (loan : Loan) : Step w (w.lend e loan)

/-- **The later world is reached** from the earlier one, in any number of steps. -/
abbrev Reaches : World κ → World κ → Prop := ReflTransGen Step

/-- **The world can come about.** -/
def Reachable (w : World κ) : Prop := Reaches {} w

/-- **A run that puts stacks and loans back.** -/
inductive Excursion (collects : Prop) : World κ → World κ → Prop
  /-- Nothing happens. -/
  | refl (w : World κ) : Excursion collects w w
  /-- Stacks and loans are left alone. -/
  | move {w w' : World κ} (hm : Move collects w w') : Excursion collects w w'
  /-- One excursion after another. -/
  | trans {w w' w'' : World κ} :
      Excursion collects w w' → Excursion collects w' w'' → Excursion collects w w''
  /-- Values are pinned, and their pins are taken off the stack afterwards. -/
  | pinning {w w' : World κ} (e : EngineId) (vs : List Value) :
      Excursion collects (w.push e vs) w' →
        Excursion collects w (w'.truncate e (w.engine e).roots.height)
  /-- A heap is lent out, and given back afterwards. -/
  | lending {w w' : World κ} (e : EngineId) (loan : Loan) :
      Excursion collects (w.lend e loan) w' → Excursion collects w (w'.lend e (w.engine e).loan)

variable {collects collects' : Prop}

/-- What is a move where less is allowed is one where more is. -/
theorem Move.mono {w w' : World κ} (hc : collects → collects') (hm : Move collects w w') :
    Move collects' w w' := by
  cases hm with
  | tended e f hf hb =>
    exact .tended e f ⟨hf.heap.imp_right (Heap.Change.mono hc), hf.roots, hf.loan⟩ hb
  | opened options => exact .opened options
  | rooted e v => exact .rooted e v
  | unrooted r => exact .unrooted r
  | pinned e v => exact .pinned e v
  | unpinned e v => exact .unpinned e v
  | recorded hn => exact .recorded hn
  | aside ha => exact .aside ha

/-- What is an excursion where less is allowed is one where more is. -/
theorem Excursion.mono {w w' : World κ} (hc : collects → collects')
    (hx : Excursion collects w w') : Excursion collects' w w' := by
  induction hx with
  | refl w => exact .refl w
  | move hm => exact .move (hm.mono hc)
  | trans _ _ ih ih' => exact ih.trans ih'
  | pinning e vs _ ih => exact .pinning e vs ih
  | lending e loan _ ih => exact .lending e loan ih

/-- An excursion is a run of steps. -/
theorem Excursion.reaches {w w' : World κ} (hx : Excursion collects w w') : Reaches w w' := by
  induction hx with
  | refl => exact .refl
  | move hm => exact .single (.move (hm.mono fun _ => trivial))
  | trans _ _ ih ih' => exact ih.trans ih'
  | pinning e vs _ ih =>
    exact .head (.pushed e vs) (ih.tail (.truncated e _))
  | lending e loan _ ih =>
    exact .head (.lent e loan) (ih.tail (.lent e _))

/-! ## The engines after a step -/

variable {w w' : World κ} {e : EngineId} {h : Handle}

/-- Of a change to an engine it only matters what becomes of the engine as it is. -/
theorem modifyEngine_congr {f g : Engine → Engine} (h : f (w.engine e) = g (w.engine e)) :
    w.modifyEngine e f = w.modifyEngine e g := by
  have key : ∀ (l : List Engine) (i : Nat), f (l.getD i default) = g (l.getD i default) →
      alter f l i = alter g l i := by
    intro l i
    induction l, i using alter.induct with
    | case1 => simp [alter]
    | case2 i ih => simpa [alter] using ih
    | case3 s l => simp [alter]
    | case4 s l i ih => simpa [alter] using ih
  simp only [modifyEngine, key w.engines e.index h]

@[simp] theorem roots_modifyEngine (w : World κ) (e : EngineId) (f : Engine → Engine) :
    (w.modifyEngine e f).roots = w.roots := rfl

@[simp] theorem journal_modifyEngine (w : World κ) (e : EngineId) (f : Engine → Engine) :
    (w.modifyEngine e f).journal = w.journal := rfl

@[simp] theorem engine_record (w : World κ) (event : Event) (e : EngineId) :
    (w.record event).engine e = w.engine e := rfl

@[simp] theorem engine_recordStale (w : World κ) (e e' : EngineId) (vs : List Value) :
    (w.recordStale e vs).engine e' = w.engine e' := by
  unfold recordStale
  split <;> rfl

@[simp] theorem owners_recordStale (w : World κ) (e : EngineId) (vs : List Value)
    (id : NativeId) : (w.recordStale e vs).owners id = w.owners id := by
  unfold recordStale
  split <;> rfl

/-- It makes no difference whether the record or the change comes first. -/
theorem recordStale_modifyEngine (w : World κ) (e e' : EngineId) (f : Engine → Engine)
    (vs : List Value) :
    (w.modifyEngine e f).recordStale e' vs = (w.recordStale e' vs).modifyEngine e f := by
  unfold recordStale
  split <;> rfl

/-- Where nothing stale is on record, nothing was recorded. -/
theorem StoresCurrent.eq_nil {vs : List Value} (hw : (w.recordStale e vs).StoresCurrent) :
    vs = [] := by
  cases vs with
  | nil => rfl
  | cons v vs => exact absurd List.mem_cons_self (hw e (v :: vs))

@[simp] theorem engine_modifyOwners (w : World κ) (id : NativeId) (f : Nat → Nat)
    (e : EngineId) : (w.modifyOwners id f).engine e = w.engine e := rfl

/-- **A change to one engine is related to what was there at every engine**, by a
relation that holds of it there and where nothing happens. -/
theorem rel_modifyEngine {R : Engine → Engine → Prop} {f : Engine → Engine}
    (hrefl : ∀ s, R s s) (hf : R (w.engine e) (f (w.engine e))) (e' : EngineId) :
    R (w.engine e') ((w.modifyEngine e f).engine e') := by
  rw [engine_modifyEngine]
  split
  case isTrue he => exact he ▸ hf
  case isFalse => exact hrefl _

@[simp] theorem heap_push (w : World κ) (e e' : EngineId) (vs : List Value) :
    ((w.push e vs).engine e').heap = (w.engine e').heap :=
  rel_modifyEngine (R := fun s s' => s'.heap = s.heap) (fun _ => rfl) rfl e'

@[simp] theorem heap_truncate (w : World κ) (e e' : EngineId) (height : Nat) :
    ((w.truncate e height).engine e').heap = (w.engine e').heap :=
  rel_modifyEngine (R := fun s s' => s'.heap = s.heap) (fun _ => rfl) rfl e'

@[simp] theorem heap_lend (w : World κ) (e e' : EngineId) (loan : Loan) :
    ((w.lend e loan).engine e').heap = (w.engine e').heap :=
  rel_modifyEngine (R := fun s s' => s'.heap = s.heap) (fun _ => rfl) rfl e'

@[simp] theorem heap_protect (w : World κ) (e e' : EngineId) (v : Value) :
    ((w.protect e v).engine e').heap = (w.engine e').heap :=
  rel_modifyEngine (R := fun s s' => s'.heap = s.heap) (fun _ => rfl) rfl e'

@[simp] theorem heap_unprotect (w : World κ) (e e' : EngineId) (v : Value) :
    ((w.unprotect e v).engine e').heap = (w.engine e').heap :=
  rel_modifyEngine (R := fun s s' => s'.heap = s.heap) (fun _ => rfl) rfl e'

@[simp] theorem heap_addRoot (w : World κ) (e e' : EngineId) (v : Value) :
    ((w.addRoot e v).2.engine e').heap = (w.engine e').heap :=
  rel_modifyEngine (R := fun s s' => s'.heap = s.heap) (fun _ => rfl) rfl e'

@[simp] theorem roots_lend (w : World κ) (e e' : EngineId) (loan : Loan) :
    ((w.lend e loan).engine e').roots = (w.engine e').roots :=
  rel_modifyEngine (R := fun s s' => s'.roots = s.roots) (fun _ => rfl) rfl e'

/-- Pushing onto a stack takes nothing off any. -/
theorem mem_stack_push {k : Handle} (e' : EngineId) (vs : List Value)
    (hk : k ∈ (w.engine e).roots.stack) : k ∈ ((w.push e' vs).engine e).roots.stack := by
  rw [push, engine_modifyEngine]
  split <;> simp_all [RootSet.push]

/-- A new engine stands in the place of one that was never made. -/
theorem engine_addEngine (w : World κ) (options : Options) (e : EngineId) :
    (w.addEngine options).2.engine e =
      if e.index = w.engines.length then .new options else w.engine e := by
  obtain ⟨i⟩ := e
  by_cases hi : i = w.engines.length
  · simp [engine, addEngine, hi]
  · rcases Nat.lt_or_gt_of_ne hi with hlt | hgt
    · simp [engine, addEngine, hi, List.getElem?_append_left hlt]
    · have h1 : (w.engines ++ [Engine.new options])[i]? = none := by
        rw [List.getElem?_eq_none]
        simp only [List.length_append, List.length_cons, List.length_nil]
        omega
      have h2 : w.engines[i]? = none := List.getElem?_eq_none (Nat.le_of_lt hgt)
      simp [engine, addEngine, hi, h1, h2]

/-- Rooting a value changes the persistent roots of its engine. -/
theorem engine_addRoot (w : World κ) (e e' : EngineId) (v : Value) :
    (w.addRoot e v).2.engine e' =
      if e = e' then { w.engine e with roots := (w.engine e).roots.protect v }
      else w.engine e' :=
  engine_modifyEngine w e e' _

/-- Dropping a live root changes the persistent roots of its engine. -/
theorem engine_dropRoot (w : World κ) (r : Root) (e : EngineId) :
    (w.dropRoot r).engine e =
      if r ∈ w.roots ∧ r.engine = e then
        { w.engine e with roots := (w.engine e).roots.unprotect r.value }
      else w.engine e := by
  unfold dropRoot
  by_cases hr : r ∈ w.roots
  · rw [if_pos hr]
    refine (engine_modifyEngine w r.engine e _).trans ?_
    by_cases he : r.engine = e
    · simp [hr, he]
    · simp [he]
  · simp [hr]

/-! ### Locks -/

/-- Locks are as they were where the one engine that changes keeps its own. -/
theorem lock_modifyEngine {f : Engine → Engine} (hf : (f (w.engine e)).lock = (w.engine e).lock)
    (e' : EngineId) : ((w.modifyEngine e f).engine e').lock = (w.engine e').lock :=
  rel_modifyEngine (R := fun s s' => s'.lock = s.lock) (fun _ => rfl) hf e'

/-- A change to one lock shows there and nowhere else. -/
theorem lock_relock (w : World κ) (e e' : EngineId) (f : Lock → Lock) :
    ((w.relock e f).engine e').lock =
      if e = e' then f (w.engine e').lock else (w.engine e').lock := by
  rw [relock, engine_modifyEngine]
  by_cases he : e = e'
  · subst he
    rw [if_pos rfl, if_pos rfl]
  · rw [if_neg he, if_neg he]

@[simp] theorem lock_relock_self (w : World κ) (e : EngineId) (f : Lock → Lock) :
    ((w.relock e f).engine e).lock = f (w.engine e).lock := by
  rw [lock_relock, if_pos rfl]

theorem lock_push (w : World κ) (e e' : EngineId) (vs : List Value) :
    ((w.push e vs).engine e').lock = (w.engine e').lock :=
  lock_modifyEngine rfl e'

theorem lock_truncate (w : World κ) (e e' : EngineId) (height : Nat) :
    ((w.truncate e height).engine e').lock = (w.engine e').lock :=
  lock_modifyEngine rfl e'

theorem lock_lend (w : World κ) (e e' : EngineId) (loan : Loan) :
    ((w.lend e loan).engine e').lock = (w.engine e').lock :=
  lock_modifyEngine rfl e'

theorem lock_addEngine (w : World κ) (options : Options) (e : EngineId) :
    ((w.addEngine options).2.engine e).lock = (w.engine e).lock := by
  rw [engine_addEngine]
  split
  case isTrue he =>
    have hnew : w.engine e = default := by simp [World.engine, he]
    rw [hnew]
    rfl
  case isFalse => rfl

theorem lock_addRoot (w : World κ) (e e' : EngineId) (v : Value) :
    ((w.addRoot e v).2.engine e').lock = (w.engine e').lock :=
  lock_modifyEngine rfl e'

theorem lock_dropRoot (w : World κ) (r : Root) (e : EngineId) :
    ((w.dropRoot r).engine e).lock = (w.engine e).lock := by
  rw [engine_dropRoot]
  split <;> rfl

/-! ### Moves -/

/-- **No move touches a stack or a loan**, and each changes a heap as engines change
heaps, if at all. -/
theorem Move.engine (hm : Move collects w w') (e : EngineId) :
    (w.engine e).Steady collects (w'.engine e) := by
  cases hm with
  | tended e' f hf _ =>
    exact rel_modifyEngine (Engine.Steady.refl collects)
      ⟨hf.heap, by rw [hf.roots], hf.loan⟩ e
  | opened options =>
    rw [engine_addEngine]
    split
    case isTrue he =>
      -- the engine was not there before, and stood as a new one without a limit
      have hnew : w.engine e = default := by simp [World.engine, he]
      rw [hnew]
      exact ⟨.inr (.opened options.maxHeapObjects rfl), rfl, rfl⟩
    case isFalse => exact .refl collects _
  | rooted e' v =>
    exact rel_modifyEngine (Engine.Steady.refl collects)
      (.of_stack_eq collects (RootSet.stack_protect _ v)) e
  | unrooted r =>
    rw [engine_dropRoot]
    split
    case isTrue => exact .of_stack_eq collects (RootSet.stack_unprotect _ _)
    case isFalse => exact .refl collects _
  | pinned e' v =>
    exact rel_modifyEngine (Engine.Steady.refl collects)
      (.of_stack_eq collects (RootSet.stack_protect _ v)) e
  | unpinned e' v =>
    exact rel_modifyEngine (Engine.Steady.refl collects)
      (.of_stack_eq collects (RootSet.stack_unprotect _ v)) e
  | recorded hn => exact .refl collects _
  | aside ha =>
    have he : w'.engine e = w.engine e := by rw [World.engine, ha.engines, ← World.engine]
    rw [he]
    exact .refl collects _

/-- **No move makes a name denote another native.** -/
theorem Move.retains (hm : Move collects w w') : w.Retains w' := by
  cases hm with
  | unrooted r => exact .of_natives (natives_dropRoot w r)
  | aside ha => exact ha.natives
  | _ => exact .of_natives rfl

theorem Step.retains (hs : Step w w') : w.Retains w' := by
  cases hs with
  | move hm => exact hm.retains
  | _ => exact .of_natives rfl

/-- **No move makes a class forget.** -/
theorem Move.learns (hm : Move collects w w') : w.Learns w' := by
  cases hm with
  | unrooted r => exact .of_classes (classes_dropRoot w r)
  | aside ha => exact ha.classes
  | _ => exact .of_classes rfl

theorem Step.learns (hs : Step w w') : w.Learns w' := by
  cases hs with
  | move hm => exact hm.learns
  | _ => exact .of_classes rfl

/-- **No move makes an adapter look its class up again.** -/
theorem Move.adheres (hm : Move collects w w') : w.Adheres w' := by
  cases hm with
  | unrooted r =>
    exact .of_tables (natives_dropRoot w r) (registries_dropRoot w r)
      (Nat.le_of_eq (by rw [classes_dropRoot]))
  | aside ha => exact ha.adapters
  | _ => exact .of_tables rfl rfl (Nat.le_refl _)

theorem Step.adheres (hs : Step w w') : w.Adheres w' := by
  cases hs with
  | move hm => exact hm.adheres
  | _ => exact .of_tables rfl rfl (Nat.le_refl _)

/-- **A step changes a heap as engines change heaps**, if at all. -/
theorem Step.heap (hs : Step w w') (e : EngineId) :
    (w'.engine e).heap = (w.engine e).heap
      ∨ Heap.Change True (w.engine e).roots (w.engine e).heap (w'.engine e).heap := by
  cases hs with
  | move hm => exact (hm.engine e).heap
  | pushed e' vs => exact .inl (heap_push w e' e vs)
  | truncated e' height => exact .inl (heap_truncate w e' e height)
  | lent e' loan => exact .inl (heap_lend w e' e loan)

/-! ## Soundness -/

/-- **Every heap is sound.** -/
def Sound (w : World κ) : Prop := ∀ e, (w.engine e).heap.Sound

/-- In the first world every engine is new. -/
theorem engine_init (e : EngineId) : ({} : World κ).engine e = default := by
  obtain ⟨i⟩ := e
  cases i <;> simp [World.engine]

/-- The first world is sound. -/
theorem Sound.init : ({} : World κ).Sound := fun e => by
  rw [engine_init]
  exact .of_limit 0

/-- A step keeps every heap sound. -/
theorem Sound.step (hw : w.Sound) (hs : Step w w') : w'.Sound := fun e => by
  rcases hs.heap e with he | hc
  · exact he ▸ hw e
  · exact hc.sound (hw e)

/-- A run of steps keeps every heap sound. -/
theorem Sound.reaches (hw : w.Sound) (hr : Reaches w w') : w'.Sound := by
  induction hr with
  | refl => exact hw
  | tail _ hs ih => exact ih.step hs

/-- **Every heap of a world that can come about is sound.** -/
theorem Reachable.sound (hw : w.Reachable) : w.Sound := Sound.init.reaches hw

/-! ## Identities -/

/-- Which object a handle denotes in an engine. -/
def identity? (w : World κ) (e : EngineId) (h : Handle) : Option Identity :=
  (w.engine e).heap.identity? h

/-- **A step keeps what is reachable from the roots** the object that it is. -/
theorem Step.identity?_of_reaches (hs : Step w w') (hw : w.Sound)
    (hr : (w.engine e).heap.Reaches (w.engine e).roots.handles h) :
    w'.identity? e h = w.identity? e h := by
  rcases hs.heap e with he | hc
  · rw [identity?, he, identity?]
  · exact hc.identity?_of_reaches (hw e) hr

/-! ## Excursions -/

/-- An excursion keeps every heap sound. -/
theorem Sound.excursion (hw : w.Sound) (hx : Excursion collects w w') : w'.Sound :=
  hw.reaches hx.reaches

/-- Taking the pins off again leaves the stack that there was. -/
theorem stack_truncate_push {s : RootSet} {vs : List Value} {height : Nat} {r : RootSet}
    (hr : r.stack = (s.push vs).stack) (hh : height = s.height) :
    (r.truncate height).stack = s.stack := by
  subst hh
  rw [RootSet.truncate, hr]
  simp [RootSet.push, RootSet.height]

/-- **An excursion leaves stacks and loans as it found them.** -/
theorem Excursion.engine (hx : Excursion collects w w') (e : EngineId) :
    (w'.engine e).roots.stack = (w.engine e).roots.stack
      ∧ (w'.engine e).loan = (w.engine e).loan := by
  induction hx with
  | refl => exact ⟨rfl, rfl⟩
  | move hm => exact ⟨(hm.engine e).stack, (hm.engine e).loan⟩
  | trans _ _ ih ih' => exact ⟨ih'.1.trans ih.1, ih'.2.trans ih.2⟩
  | @pinning w w' e' vs _ ih =>
    rw [push, engine_modifyEngine] at ih
    rw [truncate, engine_modifyEngine]
    split
    case isTrue he =>
      subst he
      rw [if_pos rfl] at ih
      exact ⟨stack_truncate_push ih.1 rfl, ih.2⟩
    case isFalse he => simpa [he] using ih
  | @lending w w' e' loan _ ih =>
    rw [lend, engine_modifyEngine] at ih
    rw [lend, engine_modifyEngine]
    split
    case isTrue he =>
      subst he
      rw [if_pos rfl] at ih
      exact ⟨ih.1, rfl⟩
    case isFalse he => simpa [he] using ih

/-- **The object is pinned**: it is on the engine's stack of roots, or is the wrapper
of a host method that is. -/
def Pinned (w : World κ) (e : EngineId) (h : Handle) : Prop :=
  h ∈ (w.engine e).roots.stack
    ∨ ∃ k ∈ (w.engine e).roots.stack, (w.engine e).heap.IsMethodOf k h

/-- What is pinned stays pinned when more is. -/
theorem Pinned.push (hp : w.Pinned e h) (e' : EngineId) (vs : List Value) :
    (w.push e' vs).Pinned e h := by
  rcases hp with hp | ⟨k, hk, hm⟩
  · exact .inl (mem_stack_push e' vs hp)
  · exact .inr ⟨k, mem_stack_push e' vs hk, by rwa [heap_push]⟩

/-- What is pinned stays pinned when a heap is lent out. -/
theorem Pinned.lend (hp : w.Pinned e h) (e' : EngineId) (loan : Loan) :
    (w.lend e' loan).Pinned e h := by
  rwa [Pinned, heap_lend, roots_lend]

/-- Among values that are pushed, each object is pinned. -/
theorem pinned_push {vs : List Value} (hv : Value.object h ∈ vs) :
    (w.push e vs).Pinned e h := by
  refine .inl ?_
  rw [World.push, World.engine_modifyEngine_self]
  simp only [RootSet.push, Array.mem_append, List.mem_toArray, List.mem_filterMap]
  exact .inr ⟨_, hv, rfl⟩

/-- A live object that is pinned is reachable from the roots. -/
theorem Pinned.reaches (hp : w.Pinned e h) (hl : (w.engine e).heap.isLive h = true) :
    (w.engine e).heap.Reaches (w.engine e).roots.handles h := by
  have hstart : ∀ k ∈ (w.engine e).roots.stack, k ∈ (w.engine e).roots.handles := fun k hk =>
    RootSet.mem_handles.2 (.inr hk)
  rcases hp with hp | ⟨k, hk, hm⟩
  · exact .start (hstart h hp) hl
  · have hlk : (w.engine e).heap.isLive k = true := by
      obtain ⟨b, name, hi⟩ := hm
      exact Heap.isLive_iff_exists_identity?.2 ⟨_, hi⟩
    exact .edge (.start (hstart k hk) hlk) hm.mem_edgesAt hl

/-- What is pinned stays pinned where the stack is the same and what is on it stays
the object that it is. -/
theorem Pinned.keep (hp : w.Pinned e h)
    (hs : (w'.engine e).roots.stack = (w.engine e).roots.stack)
    (hk : ∀ k i, k ∈ (w.engine e).roots.stack → w.identity? e k = some i →
      w'.identity? e k = some i) : w'.Pinned e h := by
  rcases hp with hp | ⟨k, hmem, b, name, hm⟩
  · exact .inl (hs ▸ hp)
  · exact .inr ⟨k, hs ▸ hmem, b, name, hk k _ hmem hm⟩

/-- **What was pinned when an excursion set out is the same object when it comes
back**, whatever was collected on the way. -/
theorem Excursion.identity?_of_pinned (hx : Excursion collects w w') (hw : w.Sound) {i : Identity}
    (hp : w.Pinned e h) (hi : w.identity? e h = some i) : w'.identity? e h = some i := by
  induction hx generalizing h i with
  | refl => exact hi
  | move hm =>
    have hl := Heap.isLive_iff_exists_identity?.2 ⟨i, hi⟩
    rw [Step.identity?_of_reaches (.move (hm.mono fun _ => trivial)) hw (hp.reaches hl), hi]
  | @trans w w' w'' hx _ ih ih' =>
    -- the second excursion sets out with the same pins, on the objects that they were
    refine ih' (hw.excursion hx) ?_ (ih hw hp hi)
    exact hp.keep (hx.engine e).1 fun k i hk hi => ih hw (.inl hk) hi
  | @pinning w w' e' vs _ ih =>
    have hback : (w'.truncate e' (w.engine e').roots.height).identity? e h
        = w'.identity? e h := by
      rw [identity?, heap_truncate, identity?]
    rw [hback]
    exact ih (hw.step (.pushed e' vs)) (hp.push e' vs) (by rwa [identity?, heap_push])
  | @lending w w' e' loan _ ih =>
    have hback : (w'.lend e' (w.engine e').loan).identity? e h = w'.identity? e h := by
      rw [identity?, heap_lend, identity?]
    rw [hback]
    exact ih (hw.step (.lent e' loan)) (hp.lend e' loan) (by rwa [identity?, heap_lend])

/-- What is pinned when an excursion sets out is pinned when it comes back. -/
theorem Pinned.excursion (hp : w.Pinned e h) (hx : Excursion collects w w') (hw : w.Sound) :
    w'.Pinned e h :=
  hp.keep (hx.engine e).1 fun _ _ hk hi => hx.identity?_of_pinned hw (.inl hk) hi

/-- **Where no heap is collected, nothing is freed.** -/
theorem Excursion.identity?_of_quiet (hx : Excursion False w w') (hw : w.Sound) {i : Identity}
    (hi : w.identity? e h = some i) : w'.identity? e h = some i := by
  induction hx with
  | refl => exact hi
  | move hm =>
    rcases (hm.engine e).heap with he | hc
    · rwa [identity?, he]
    · exact hc.identity?_of_some (hw e) hi
  | trans hx _ ih ih' => exact ih' (hw.excursion hx) (ih hw hi)
  | @pinning w w' e' vs _ ih =>
    rw [identity?, heap_truncate]
    exact ih (hw.step (.pushed e' vs)) (by rwa [identity?, heap_push])
  | @lending w w' e' loan _ ih =>
    rw [identity?, heap_lend]
    exact ih (hw.step (.lent e' loan)) (by rwa [identity?, heap_lend])

end World

end EmbeddedScript
