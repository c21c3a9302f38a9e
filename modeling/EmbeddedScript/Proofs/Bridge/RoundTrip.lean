import EmbeddedScript.Proofs.Machine.Evaluation
import EmbeddedScript.Proofs.Machine.Objects
import EmbeddedScript.Proofs.Roots.Books
import EmbeddedScript.Proofs.Roots.Lifetime

/-!
# Round trips through native code

Out of script a value becomes a native value, and on the way back the native value
becomes a value again. **A value that has no bound object behind it comes back as
itself**, a stale handle included, and nothing is allocated: a proxy stands for it in
the meantime. A wrapper around a bound object comes back as the bound object does, since
it is the bound object that makes the trip: a proxy comes back as the value it stands
for, and **any other bound object comes back in a wrapper of its own** that is made
anew, as no bound object knows the wrappers around it.
-/

namespace EmbeddedScript

open Act

variable {κ : Type} {m : Machine κ} {w : World κ} {e : EngineId}

/-- **A value goes through native code**: out of script, and back by the same registry. -/
def Program.roundTrip (e : EngineId) (registry : RegistryId) (v : Value) :
    Program κ (Except EngineError Value) := do
  let n ← toNative e registry v
  toScript e registry n

namespace World

/-- **The bound object behind a value**, if the value is a wrapper of an adapter. -/
def bound? (w : World κ) (e : EngineId) (v : Value) : Option NativeId :=
  match w.host? e v with
  | none => none
  | some host =>
    match w.native? host with
    | some (.adapter a) => some a.bound
    | _ => none

/-- The world in which another share of a bound object is owned. -/
def sharing (w : World κ) : Option NativeId → World κ
  | some bound => w.modifyOwners bound (· + 1)
  | none => w

/-- The world with a new adapter of a bound object. -/
def withAdapter (w : World κ) (bound : NativeId) (registry : RegistryId) : NativeId × World κ :=
  (w.modifyOwners bound (· + 1)).addNative (.adapter { bound := bound, registry := registry })

/-- **A new wrapper of a bound object**, around a new adapter, and the world with it. -/
def wrapping (w : World κ) (e : EngineId) (bound : NativeId) (registry : RegistryId) :
    Handle × World κ :=
  let host : HeapObject := .host (w.withAdapter bound registry).1 .empty
  (((w.engine e).heap.place host).1, (w.withAdapter bound registry).2.modifyEngine e fun s =>
    { s with heap := ((w.engine e).heap.place host).2 })

theorem heap_wrapping (w : World κ) (e : EngineId) (bound : NativeId) (registry : RegistryId) :
    ((w.wrapping e bound registry).2.engine e).heap
      = ((w.engine e).heap.place (.host (w.withAdapter bound registry).1 .empty)).2 :=
  congrArg Engine.heap (engine_modifyEngine_self _ e _)

theorem native?_wrapping (w : World κ) (e : EngineId) (bound : NativeId)
    (registry : RegistryId) :
    (w.wrapping e bound registry).2.native? (w.withAdapter bound registry).1
      = some (.adapter { bound := bound, registry := registry }) :=
  native?_addNative _ _

end World

namespace Machine

/-! ## Out of script -/

/-- Looking behind a value takes a share of the bound object that is found. -/
theorem boundOf_eq (hl : (w.engine e).loan.allowsRead = true) (v : Value) :
    boundOf e v w = .ok (w.bound? e v) (w.sharing (w.bound? e v)) := by
  refine bind_eq_ok.2 ⟨_, w, host?_eq hl v, ?_⟩
  unfold World.bound?
  cases w.host? e v with
  | none => rfl
  | some host =>
    refine bind_eq_ok.2 ⟨w.native? host, w, rfl, ?_⟩
    dsimp only
    cases w.native? host with
    | none => rfl
    | some n => cases n <;> rfl

/-- **A wrapper of an adapter is unwrapped.** -/
theorem toNative_of_bound (hl : (w.engine e).loan.allowsRead = true) {v : Value}
    {bound : NativeId} (hb : w.bound? e v = some bound) (registry : RegistryId)
    (owned : List Local) :
    m.eval (Program.toNative e registry v) owned w
      = .ok (.object bound, owned) (w.modifyOwners bound (· + 1)) := by
  cases v with
  | object h =>
    refine eval_bind_eq_ok.2 ⟨some bound, owned, _, eval_op_eq_ok.2 ⟨rfl, ?_⟩, rfl⟩
    show boundOf e (.object h) w = _
    rw [boundOf_eq hl, hb]
    rfl
  | _ => cases hb

/-- **Any other object is stood for by a proxy.** -/
theorem toNative_of_object (hl : (w.engine e).loan.allowsRead = true) {h : Handle}
    (hb : w.bound? e (.object h) = none) (registry : RegistryId) (owned : List Local) :
    m.eval (Program.toNative e registry (.object h)) owned w
      = .ok (.object ((w.addRoot e (.object h)).2.addNative
            (.proxy ⟨(w.addRoot e (.object h)).1, registry⟩)).1, owned)
          ((w.addRoot e (.object h)).2.addNative
            (.proxy ⟨(w.addRoot e (.object h)).1, registry⟩)).2 := by
  refine eval_bind_eq_ok.2 ⟨none, owned, w, eval_op_eq_ok.2 ⟨rfl, ?_⟩, rfl⟩
  show boundOf e (.object h) w = _
  rw [boundOf_eq hl, hb]
  rfl

/-! ## Into script -/

/-- **A proxy is the value that it stands for.** -/
theorem toScript_of_proxy {id : NativeId} {p : Proxy} (hp : w.native? id = some (.proxy p))
    (registry : RegistryId) (owned : List Local) :
    m.eval (Program.toScript e registry (.object id)) owned w
      = .ok (.ok p.root.value, owned) w := by
  refine eval_bind_eq_ok.2 ⟨some (.proxy p), owned, w, eval_op_eq_ok.2 ⟨rfl, ?_⟩, rfl⟩
  show (.ok (w.native? id) w : EStateM.Result Abort (World κ) _) = _
  rw [hp]

/-- **Any other bound object gets an adapter**, and what comes of it is what comes of
making the wrapper. -/
theorem toScript_of_createHost {bound : NativeId} (hp : ∀ p, w.native? bound ≠ some (.proxy p))
    {registry : RegistryId} {r : Except EngineError Value} {w' : World κ}
    (hc : (m.createHost e (w.withAdapter bound registry).1).run
      (w.withAdapter bound registry).2 = .ok r w') (owned : List Local) :
    m.eval (Program.toScript e registry (.object bound)) owned w = .ok (r, owned) w' := by
  have hwrap : m.eval (do
      Program.op (.retain bound)
      let adapter ← Program.op (.spawn (.adapter { bound := bound, registry := registry }))
      Program.op (.createHost e adapter)) owned w = .ok (r, owned) w' :=
    eval_bind_eq_ok.2 ⟨_, owned, _, eval_op_eq_ok.2 ⟨rfl, rfl⟩,
      eval_bind_eq_ok.2 ⟨_, owned, _, eval_op_eq_ok.2 ⟨rfl, rfl⟩,
        eval_op_eq_ok.2 ⟨rfl, hc⟩⟩⟩
  have hlook : m.eval (Program.op (.look bound)) owned w = .ok (w.native? bound, owned) w :=
    eval_op_eq_ok.2 ⟨rfl, rfl⟩
  refine eval_bind_eq_ok.2 ⟨w.native? bound, owned, w, hlook, ?_⟩
  cases hn : w.native? bound with
  | none => exact hwrap
  | some n =>
    cases n with
    | proxy p => exact absurd hn (hp p)
    | adapter a => exact hwrap
    | custom state => exact hwrap

/-- **If there is room, it gets a new wrapper.** -/
theorem toScript_of_bound (hl : (w.engine e).loan = .none)
    (hr : (w.engine e).heap.refusal? = none) {bound : NativeId}
    (hp : ∀ p, w.native? bound ≠ some (.proxy p)) (registry : RegistryId)
    (owned : List Local) :
    m.eval (Program.toScript e registry (.object bound)) owned w
      = .ok (.ok (.object (w.wrapping e bound registry).1), owned)
          (w.wrapping e bound registry).2 :=
  toScript_of_createHost hp
    (allocate_of_room (w := (w.withAdapter bound registry).2) hl hr _) owned

end Machine

/-! ## The trip -/

/-- Behind a wrapper of an adapter is its bound object. -/
theorem World.bound?_of_host {h : Handle} {host : NativeId} {expandos : Properties Value}
    {a : Adapter} (hg : (w.engine e).heap.get? h = some (.host host expandos))
    (hn : w.native? host = some (.adapter a)) : w.bound? e (.object h) = some a.bound := by
  unfold World.bound?
  simp only [World.host?_of_get? hg, hn]

namespace Machine

variable {registry : RegistryId} {v : Value} {bound : NativeId}

theorem run_roundTrip_of_eval {n : NativeValue} {x : Except EngineError Value} {w₁ w₂ : World κ}
    (hout : m.eval (Program.toNative e registry v) [] w = .ok (n, []) w₁)
    (hin : m.eval (Program.toScript e registry n) [] w₁ = .ok (x, []) w₂) :
    m.run (Program.roundTrip e registry v) [] w = .ok x w₂ :=
  run_eq_ok.2 ⟨[], w₂, eval_bind_eq_ok.2 ⟨n, [], w₁, hout, hin⟩, rfl⟩

theorem run_roundTrip_of_none (hl : (w.engine e).loan.allowsRead = true)
    (hb : w.bound? e v = none) :
    ∃ w', m.run (Program.roundTrip e registry v) [] w = .ok (.ok v) w'
      ∧ ∀ e', (w'.engine e').heap = (w.engine e').heap := by
  cases v with
  | object h =>
    have hin := toScript_of_proxy (m := m) (e := e)
      (World.native?_addNative (w.addRoot e (.object h)).2
        (.proxy ⟨(w.addRoot e (.object h)).1, registry⟩)) registry []
    refine ⟨_, run_roundTrip_of_eval (toNative_of_object hl hb registry []) hin, fun e' => ?_⟩
    show ((w.addRoot e (.object h)).2.engine e').heap = _
    rw [World.engine_addRoot]
    split
    case isTrue he => rw [he]
    case isFalse => rfl
  | _ => exact ⟨w, rfl, fun _ => rfl⟩

theorem run_roundTrip_of_proxy (hl : (w.engine e).loan.allowsRead = true)
    (hb : w.bound? e v = some bound) {p : Proxy} (hp : w.native? bound = some (.proxy p)) :
    ∃ w', m.run (Program.roundTrip e registry v) [] w = .ok (.ok p.root.value) w'
      ∧ ∀ e', (w'.engine e').heap = (w.engine e').heap := by
  have hp' : (w.modifyOwners bound (· + 1)).native? bound = some (.proxy p) := by
    rw [World.native?_modifyOwners, hp]
  exact ⟨_, run_roundTrip_of_eval (toNative_of_bound hl hb registry [])
    (toScript_of_proxy hp' registry []), fun _ => rfl⟩

theorem run_roundTrip_of_bound (hw : (w.engine e).heap.WellFormed)
    (hl : (w.engine e).loan = .none) (hb : w.bound? e v = some bound)
    (hp : ∀ p, w.native? bound ≠ some (.proxy p)) (hr : (w.engine e).heap.refusal? = none) :
    ∃ (k : Handle) (adapter : NativeId) (w' : World κ),
      m.run (Program.roundTrip e registry v) [] w = .ok (.ok (.object k)) w'
        ∧ w'.native? adapter = some (.adapter { bound := bound, registry := registry })
        ∧ w'.bound? e (.object k) = some bound
        ∧ (w.engine e).heap.get? k = none
        ∧ (w'.engine e).heap.live = (w.engine e).heap.live + 1
        ∧ ∀ h, (w'.engine e).heap.get? h =
          if h = k then some (.host adapter .empty) else (w.engine e).heap.get? h := by
  have hp' : ∀ p, (w.modifyOwners bound (· + 1)).native? bound ≠ some (.proxy p) := by
    intro p
    rw [World.native?_modifyOwners]
    exact hp p
  have hin := toScript_of_bound (m := m) (w := w.modifyOwners bound (· + 1)) (e := e) hl hr hp'
    registry []
  have hnative := (w.modifyOwners bound (· + 1)).native?_wrapping e bound registry
  have hheap := (w.modifyOwners bound (· + 1)).heap_wrapping e bound registry
  have hget : ∀ h, (((w.modifyOwners bound (· + 1)).wrapping e bound registry).2.engine e).heap.get?
      h = if h = ((w.modifyOwners bound (· + 1)).wrapping e bound registry).1 then _
      else (w.engine e).heap.get? h := fun h => hheap ▸ Heap.get?_place hw _ h
  refine ⟨_, _, _, run_roundTrip_of_eval
    (toNative_of_bound (by rw [hl]; rfl) hb registry []) hin, hnative, ?_,
    Heap.get?_place_fst hw _, ?_, hget⟩
  · exact World.bound?_of_host ((hget _).trans (if_pos rfl)) hnative
  · rw [hheap]
    exact Heap.live_place _ _

end Machine

/-- **What comes back from a trip through native code**, if nobody has the heap. A value
without a bound object behind it comes back as itself, and no heap changes. A wrapper
around a bound object that is a proxy comes back as the value that the proxy stands for,
and no heap changes. A wrapper around any other bound object comes back as a new wrapper
around it, as long as the heap has room for one: that wrapper, which was no object
before, is the one object that is new. -/
theorem Machine.run_roundTrip (m : Machine κ) (hw : w.Reachable) (hl : (w.engine e).loan = .none)
    (registry : RegistryId) (v : Value) :
    (w.bound? e v = none → ∃ w',
        m.run (Program.roundTrip e registry v) [] w = .ok (.ok v) w'
          ∧ ∀ e', (w'.engine e').heap = (w.engine e').heap)
      ∧ (∀ bound p, w.bound? e v = some bound → w.native? bound = some (.proxy p) → ∃ w',
        m.run (Program.roundTrip e registry v) [] w = .ok (.ok p.root.value) w'
          ∧ ∀ e', (w'.engine e').heap = (w.engine e').heap)
      ∧ ∀ bound, w.bound? e v = some bound → (∀ p, w.native? bound ≠ some (.proxy p)) →
        (w.engine e).heap.refusal? = none → ∃ (k : Handle) (adapter : NativeId) (w' : World κ),
          m.run (Program.roundTrip e registry v) [] w = .ok (.ok (.object k)) w'
            ∧ w'.native? adapter = some (.adapter { bound := bound, registry := registry })
            ∧ w'.bound? e (.object k) = some bound
            ∧ (w.engine e).heap.get? k = none
            ∧ (w'.engine e).heap.live = (w.engine e).heap.live + 1
            ∧ ∀ h, (w'.engine e).heap.get? h =
              if h = k then some (.host adapter .empty) else (w.engine e).heap.get? h := by
  have hr : (w.engine e).loan.allowsRead = true := by rw [hl]; rfl
  refine ⟨fun hb => run_roundTrip_of_none hr hb, fun bound p hb hp => ?_,
    fun bound hb hp hroom => ?_⟩
  · exact run_roundTrip_of_proxy hr hb hp
  · exact run_roundTrip_of_bound (hw.sound e).wellFormed hl hb hp hroom

/-- The world after a program that exposes a bound object. -/
def World.exposed : World Unit :=
  ((Behaviour.idle.machine 1).run (do
    let bound ← Program.op (.spawn (.custom ()))
    Program.expose ⟨0⟩ ⟨0⟩ bound) []).after {}

theorem World.reachable_exposed : World.exposed.Reachable :=
  (Behaviour.idle.reaches_run 1 _ [] .init).1

/-- A wrapper does not come back as itself, though the heap has room. -/
theorem Machine.run_roundTrip_wrapper_ne :
    World.exposed.Reachable ∧ (World.exposed.engine ⟨0⟩).loan = .none
      ∧ (World.exposed.engine ⟨0⟩).heap.refusal? = none
      ∧ ¬ ∃ (x : Value) (w' : World Unit),
        (Behaviour.idle.machine 1).run (Program.roundTrip ⟨0⟩ ⟨0⟩ (.object ⟨0, 0⟩)) []
            World.exposed = .ok (.ok x) w'
          ∧ x.sameValue (.object ⟨0, 0⟩) = true
          ∧ (w'.engine ⟨0⟩).heap.live = (World.exposed.engine ⟨0⟩).heap.live := by
  refine ⟨World.reachable_exposed, by decide +kernel, by decide +kernel, ?_⟩
  rintro ⟨x, w', hx, hsame, -⟩
  have hother : ((Behaviour.idle.machine 1).run
      (Program.roundTrip ⟨0⟩ ⟨0⟩ (.object ⟨0, 0⟩)) []).finishes World.exposed
        (fun r _ => r.toOption = some (.object ⟨1, 0⟩)) = true := by decide +kernel
  obtain ⟨r, w₁, hr, htest⟩ := Act.exists_of_finishes hother
  obtain ⟨rfl, rfl⟩ : r = .ok x ∧ w₁ = w' := by simpa using hr.symm.trans hx
  obtain rfl : x = .object ⟨1, 0⟩ := by simpa [Except.toOption] using htest
  exact absurd hsame (by decide)

/-- A handle that never denoted anything comes back as itself, and the wrapper as a new
wrapper around the bound object. -/
theorem Machine.run_roundTrip_exposed :
    (∃ w', (Behaviour.idle.machine 1).run (Program.roundTrip ⟨0⟩ ⟨0⟩ (.object ⟨5, 0⟩)) []
        World.exposed = .ok (.ok (.object ⟨5, 0⟩)) w'
      ∧ ∀ e, (w'.engine e).heap = (World.exposed.engine e).heap)
      ∧ ∃ (k : Handle) (w' : World Unit),
        (Behaviour.idle.machine 1).run (Program.roundTrip ⟨0⟩ ⟨0⟩ (.object ⟨0, 0⟩)) []
            World.exposed = .ok (.ok (.object k)) w'
          ∧ w'.bound? ⟨0⟩ (.object k) = some ⟨0⟩
          ∧ (w'.engine ⟨0⟩).heap.live = (World.exposed.engine ⟨0⟩).heap.live + 1 := by
  have hl : (World.exposed.engine ⟨0⟩).loan = .none := by decide +kernel
  refine ⟨(run_roundTrip (Behaviour.idle.machine 1) World.reachable_exposed hl ⟨0⟩ _).1
    (by decide +kernel), ?_⟩
  have hcustom : ∀ p, World.exposed.native? ⟨0⟩ ≠ some (.proxy p) := by
    intro p hp
    have hno : (World.exposed.native? ⟨0⟩).any Native.isProxy = false := by decide +kernel
    rw [hp] at hno
    cases hno
  obtain ⟨k, adapter, w', hrun, -, hbound, -, hlive, -⟩ :=
    (run_roundTrip (Behaviour.idle.machine 1) World.reachable_exposed hl ⟨0⟩
      (.object ⟨0, 0⟩)).2.2 ⟨0⟩ (by decide +kernel) hcustom (by decide +kernel)
  exact ⟨k, w', hrun, hbound, hlive⟩

end EmbeddedScript
