import EmbeddedScript.Proofs.Machine.Running

/-!
# Courses of engines

An operation changes an engine – its configuration, its heap and its statistics – in one of
a few ways: it places an object that the engine makes, it stores what it makes of an object,
or it collects. A **course** is a relation between an engine and what becomes of it that has
room for each of these while the heap is sound, and for one after another. Locks, loans and
roots take no part in it.

Natives change engines by operations only. So engines stay on every course **at all times**:
after each program, and in the worlds in which natives run in the middle of an operation
(`Behaviour.led_run`). It makes no difference what natives would do in other worlds.

A **law** is a property that new engines have and that each of these ways keeps; the course
that goes with it leads from engines that obey it to engines that obey it.

A collection gives an engine its heap first and its statistics after that. Nothing runs in
between and nothing can be cut short there, so that the two are one change
(`Machine.collect_of_allowsWrite`).
-/

namespace EmbeddedScript

variable {κ α β : Type}

/-! ## What operations do to objects -/

/-- **What the engine puts into heaps.** -/
inductive HeapObject.Fresh : HeapObject → Prop
  /-- A plain object without properties. -/
  | object : Fresh (.plain .empty)
  /-- An array of holes. -/
  | array {length : Nat} {els : Elements} (h : Elements.create length = .ok els) :
      Fresh (.array els)
  /-- An array of items. -/
  | arrayOf (items : List Value) : Fresh (.array (Elements.ofList items))
  /-- A function. -/
  | function (name : String) (body : NativeId) : Fresh (.function name body .empty)
  /-- A host wrapper. -/
  | host (host : NativeId) : Fresh (.host host .empty)
  /-- A host method. -/
  | hostMethod (target : Handle) (name : String) : Fresh (.hostMethod target name)
  /-- An error object. -/
  | error (cls : ThrownClass) (message : String) : Fresh (Machine.errorObject cls message)

/-- **What becomes of the elements of an array** that an operation looks at or changes. -/
inductive Elements.Becomes : Elements → Elements → Prop
  /-- They are read. -/
  | read (els : Elements) : Becomes els els
  /-- One is written. -/
  | stored {els els' : Elements} {i : Nat} {v : Value} (h : els.store i v = .ok els') :
      Becomes els els'
  /-- One is appended. -/
  | pushed (els : Elements) (v : Value) : Becomes els (els.push (some v))
  /-- The last one is removed. -/
  | popped (els : Elements) : Becomes els els.pop.2

/-- **What operations make of an object** in its slot. -/
inductive HeapObject.Becomes : HeapObject → HeapObject → Prop
  /-- A property is written. -/
  | property {o o' : HeapObject} {name : String} {v : Value}
      (h : Machine.withProperty o name v = .ok o') : Becomes o o'
  /-- The elements of an array are looked at or changed. -/
  | elements {els els' : Elements} (h : els.Becomes els') : Becomes (.array els) (.array els')

/-- It has the shell that it had. -/
theorem HeapObject.Becomes.shell_eq {o o' : HeapObject} (h : o.Becomes o') :
    o'.shell = o.shell := by
  cases h with
  | property hp => exact Machine.shell_of_withProperty hp
  | elements _ => rfl

/-- **The engine after a collection.** -/
def Engine.collected (s : Engine) : Engine :=
  { s with
    heap := (s.heap.collect s.roots s.stats).2.1
    stats := (s.heap.collect s.roots s.stats).2.2 }

/-! ## Courses -/

/-- **A course of engines.** -/
structure Engine.Course where
  /-- An engine may become this one. -/
  Leads : Engine → Engine → Prop
  /-- One thing may become of it after another. -/
  trans : ∀ {s s' s'' : Engine}, Leads s s' → Leads s' s'' → Leads s s''
  /-- An engine that was not made may be made. -/
  new : ∀ options, Leads (.new {}) (.new options)
  /-- The course is about the configuration, the heap and the statistics. -/
  congr : ∀ {s s' : Engine}, s'.options = s.options → s'.heap = s.heap →
    s'.stats = s.stats → Leads s s'
  /-- An object may be placed. -/
  placed : ∀ {s : Engine} {o : HeapObject}, s.heap.Sound → s.heap.refusal? = none → o.Fresh →
    Leads s { s with heap := (s.heap.place o).2 }
  /-- An object may be stored into. -/
  stored : ∀ {s : Engine} {h : Handle} {o o' : HeapObject}, s.heap.Sound → s.heap.get h = .ok o →
    o.Becomes o' → Leads s { s with heap := s.heap.put h o' }
  /-- The heap may be collected. -/
  collected : ∀ {s : Engine}, s.heap.Sound → Leads s s.collected

/-- **A law of engines.** -/
structure Engine.Law where
  /-- The engine obeys the law. -/
  Holds : Engine → Prop
  /-- New engines obey it. -/
  new : ∀ options, Holds (.new options)
  /-- It is about the configuration, the heap and the statistics. -/
  congr : ∀ {s s' : Engine}, s'.options = s.options → s'.heap = s.heap →
    s'.stats = s.stats → Holds s → Holds s'
  /-- It is kept when an object is placed. -/
  placed : ∀ {s : Engine} {o : HeapObject}, s.heap.refusal? = none → o.Fresh → Holds s →
    Holds { s with heap := (s.heap.place o).2 }
  /-- It is kept when an object is stored into. -/
  stored : ∀ {s : Engine} {h : Handle} {o o' : HeapObject}, s.heap.get h = .ok o →
    o.Becomes o' → Holds s → Holds { s with heap := s.heap.put h o' }
  /-- It is kept by a collection. -/
  collected : ∀ {s : Engine}, Holds s → Holds s.collected

/-- **The course that a law keeps to.** -/
def Engine.Law.course (L : Engine.Law) : Engine.Course where
  Leads s s' := L.Holds s → L.Holds s'
  trans h h' hs := h' (h hs)
  new options _ := L.new options
  congr ho hh hs := L.congr ho hh hs
  placed _ hroom ho := L.placed hroom ho
  stored _ hg ho := L.stored hg ho
  collected _ := L.collected

/-- **Every engine obeys the law.** -/
def World.Lawful (L : Engine.Law) (w : World κ) : Prop := ∀ e, L.Holds (w.engine e)

/-- In the first world every law is obeyed. -/
theorem World.lawful_init (L : Engine.Law) : ({} : World κ).Lawful L := fun e => by
  rw [engine_init]
  exact L.new {}

/-- **Every engine with a sound heap went the course**, and has a sound heap after it. -/
def World.Led (C : Engine.Course) (w w' : World κ) : Prop :=
  ∀ e, (w.engine e).heap.Sound →
    (w'.engine e).heap.Sound ∧ C.Leads (w.engine e) (w'.engine e)

namespace World

variable {C : Engine.Course} {w w' w'' : World κ} {e : EngineId}

theorem Led.sound (h : w.Led C w') (hw : w.Sound) : w'.Sound := fun e => (h e (hw e)).1

theorem Led.trans (h : w.Led C w') (h' : w'.Led C w'') : w.Led C w'' := fun e hs =>
  have ⟨hs₁, hc⟩ := h e hs
  have ⟨hs₂, hc'⟩ := h' e hs₁
  ⟨hs₂, C.trans hc hc'⟩

/-- What leaves the engines alone. -/
theorem led_of_engines_eq (he : w'.engines = w.engines) : w.Led C w' := fun e hs => by
  rw [engine, he, ← engine]
  exact ⟨hs, C.congr rfl rfl rfl⟩

theorem Led.refl (w : World κ) : w.Led C w := led_of_engines_eq rfl

theorem led_modifyEngine {f : Engine → Engine}
    (hf : (w.engine e).heap.Sound →
      (f (w.engine e)).heap.Sound ∧ C.Leads (w.engine e) (f (w.engine e))) :
    w.Led C (w.modifyEngine e f) := fun e' hs => by
  rw [engine_modifyEngine]
  split
  case isTrue he =>
    subst he
    exact hf hs
  case isFalse => exact ⟨hs, C.congr rfl rfl rfl⟩

/-- A change to what courses are not about. -/
theorem led_kept {f : Engine → Engine}
    (ho : (f (w.engine e)).options = (w.engine e).options)
    (hh : (f (w.engine e)).heap = (w.engine e).heap)
    (hs : (f (w.engine e)).stats = (w.engine e).stats) : w.Led C (w.modifyEngine e f) :=
  led_modifyEngine fun hsound => ⟨hh ▸ hsound, C.congr ho hh hs⟩

/-- Something goes on record besides. -/
theorem Led.record (h : w.Led C w') (event : Event) : w.Led C (w'.record event) :=
  h.trans (led_of_engines_eq rfl)

theorem led_recordStale (w : World κ) (e : EngineId) (vs : List Value) :
    w.Led C (w.recordStale e vs) := fun e' hs => by
  rw [engine_recordStale]
  exact ⟨hs, C.congr rfl rfl rfl⟩

theorem led_addEngine (w : World κ) (options : Options) :
    w.Led C (w.addEngine options).2 := fun e hs => by
  rw [engine_addEngine]
  split
  case isTrue he =>
    have hnew : w.engine e = .new {} := by
      rw [engine, he, List.getD_eq_getElem?_getD, List.getElem?_eq_none (Nat.le_refl _)]
      rfl
    rw [hnew]
    exact ⟨.of_limit _, C.new options⟩
  case isFalse => exact ⟨hs, C.congr rfl rfl rfl⟩

theorem led_addRoot (w : World κ) (e : EngineId) (v : Value) : w.Led C (w.addRoot e v).2 :=
  led_kept (f := fun s => { s with roots := s.roots.protect v }) rfl rfl rfl

theorem led_entered (w : World κ) (e : EngineId) (host : NativeId) (vs : List Value) :
    w.Led C (w.entered e host vs) :=
  have htaken : w.Led C (w.modifyEngine e fun s => { s with lock := s.lock.take }) :=
    led_kept rfl rfl rfl
  (htaken.trans (led_of_engines_eq rfl)).trans (led_kept rfl rfl rfl)

theorem led_dropRoot (w : World κ) (r : Root) : w.Led C (w.dropRoot r) := fun e hs => by
  rw [engine_dropRoot]
  split
  · exact ⟨hs, C.congr rfl rfl rfl⟩
  · exact ⟨hs, C.congr rfl rfl rfl⟩

end World

/-- The worlds to which a course leads from one, as a regime. -/
@[reducible] def Engine.Course.regime (C : Engine.Course) (w₀ : World κ) : Regime κ where
  Holds w := w.Sound ∧ w₀.Led C w
  Rel := World.Led C
  refl := .refl
  trans := .trans
  after hw h := ⟨h.sound hw.1, hw.2.trans h⟩

/-- **The engine may get this heap** instead of its own. -/
def Engine.Course.Admits (C : Engine.Course) (s : Engine) (heap : Heap) : Prop :=
  s.heap.Sound → heap.Sound ∧ C.Leads s { s with heap := heap }

namespace Machine

open Act

variable {C : Engine.Course} {m m' : Machine κ} {a a' : Act κ α} {w₀ w : World κ} {e : EngineId}

/-! ## Brackets -/

/-- A bracket that courses are not about. -/
theorem abides_around {enter exit : World κ → World κ} (henter : ∀ w : World κ, w.Led C (enter w))
    (hexit : ∀ w : World κ, w.Led C (exit w)) (ha : Act.Abides (C.regime w₀) a a' (enter w)) :
    Act.Abides (C.regime w₀) (Act.within enter exit a) (Act.within enter exit a') w :=
  Act.Abides.within (fun hw => (C.regime w₀).after hw (henter w)) ha fun hx =>
    ((henter w).trans hx).trans (hexit _)

theorem abides_writing (ha : ∀ w, Act.Abides (C.regime w₀) a a' w) :
    Act.Abides (C.regime w₀) (Act.writing e a) (Act.writing e a') w :=
  abides_around (fun _ => World.led_kept rfl rfl rfl) (fun _ => World.led_kept rfl rfl rfl) (ha _)

theorem brackets_of_course (C : Engine.Course) (w₀ w : World κ) (e : EngineId)
    (vs : List Value) : (C.regime w₀).Brackets (C.regime w₀) w e vs where
  locked ha :=
    abides_around (fun _ => World.led_kept rfl rfl rfl) (fun _ => World.led_kept rfl rfl rfl) ha
  pinning _ ha :=
    abides_around (fun _ => World.led_kept rfl rfl rfl) (fun _ => World.led_kept rfl rfl rfl) ha
  owners _ _ _ := World.led_of_engines_eq rfl

/-- Natives that are followed are followed wherever operations ask them or let go of them. -/
theorem Follows.serves (hm : Follows (C.regime w₀) m m') : Serves (C.regime w₀) m m' where
  askHost _ id _ _ := (Act.Abides.update (World.led_of_engines_eq rfl)).bind
    fun _ _ _ _ _ => hm.ask id _ _
  runBody _ id _ _ _ := (Act.Abides.update (World.led_of_engines_eq rfl)).bind
    fun _ _ _ _ _ => hm.ask id _ _
  release _ _ := abides_release (fun _ => World.led_of_engines_eq rfl)
    (fun _ _ => World.led_of_engines_eq rfl) hm.finalise
  owners _ _ _ := World.led_of_engines_eq rfl
  reading ha :=
    abides_around (fun _ => World.led_kept rfl rfl rfl) (fun _ => World.led_kept rfl rfl rfl) (ha _)

/-! ## The heap -/

theorem abides_writeHeap {f : Heap → α × Heap}
    (hf : C.Admits (w.engine e) (f (w.engine e).heap).2) :
    Act.Abides (C.regime w₀) (Act.writeHeap e f) (Act.writeHeap e f) w := by
  refine .of_rel fun _ => ?_
  cases hl : (w.engine e).loan.allowsWrite with
  | true =>
    rw [after_of_ok (writeHeap_of_allowsWrite hl f)]
    exact World.led_modifyEngine hf
  | false =>
    rw [after_of_error (writeHeap_of_lent hl f)]
    exact .refl w

theorem abides_storeHeap {vs : List Value} {stored : α → Bool} {f : Heap → α × Heap}
    (hf : C.Admits (w.engine e) (f (w.engine e).heap).2) :
    Act.Abides (C.regime w₀) (Act.storeHeap e vs stored f) (Act.storeHeap e vs stored f) w := by
  refine .of_rel fun _ => ?_
  cases hl : (w.engine e).loan.allowsWrite with
  | true =>
    rw [after_of_ok (storeHeap_of_allowsWrite hl vs stored f)]
    refine (World.led_recordStale w e _).trans (World.led_modifyEngine fun hs => ?_)
    rw [World.engine_recordStale] at hs ⊢
    exact hf hs
  | false =>
    rw [after_of_error (storeHeap_of_lent hl vs stored f)]
    exact .refl w

section Admits

variable {s : Engine} {o o' : HeapObject}

/-- Every change that operations make to a heap is one of a course. -/
theorem admits_self (C : Engine.Course) (s : Engine) : C.Admits s s.heap := fun hs =>
  ⟨hs, C.congr rfl rfl rfl⟩

theorem admits_put {h : Handle} (hg : s.heap.get h = .ok o) (ho : o.Becomes o') :
    C.Admits s (s.heap.put h o') := fun hs =>
  ⟨hs.put fun a ha => by
    rw [Heap.get_eq_ok_iff.1 hg] at ha
    exact Option.some.inj ha ▸ ho.shell_eq, C.stored hs hg ho⟩

theorem admits_offer (ho : o.Fresh) (hc : s.heap.CanHold o) :
    C.Admits s (offer o s.heap).2 := by
  cases hr : s.heap.refusal? with
  | none =>
    rw [offer_of_room hr]
    exact fun hs => ⟨hs.place hc, C.placed hs hr ho⟩
  | some err =>
    rw [offer_of_refusal hr]
    exact admits_self C s

theorem admits_changeArray {f : Elements → Except TypeFault (α × Elements)}
    (hf : ∀ els x els', f els = .ok (x, els') → els.Becomes els') (h : Handle) :
    C.Admits s (changeArray h f s.heap).2 := by
  rcases changeArray_cases h f s.heap with ⟨err, heq⟩ | ⟨els, x, els', hg, hels, heq⟩
  · rw [heq]
    exact admits_self C s
  · rw [heq]
    exact admits_put hg (.elements (hf els x els' hels))

theorem admits_storeOwn (h : Handle) (name : String) (value : Value) :
    C.Admits s (storeOwn h name value s.heap).2 := by
  rcases storeOwn_cases h name value s.heap with
    ⟨err, heq⟩ | ⟨host, expandos, -, heq⟩ | ⟨o, o', hg, hp, heq⟩
  · rw [heq]
    exact admits_self C s
  · rw [heq]
    exact admits_self C s
  · rw [heq]
    exact admits_put hg (.property hp)

theorem admits_storeExpando (h : Handle) (name : String) (value : Value) :
    C.Admits s (storeExpando h name value s.heap).2 := by
  rcases storeExpando_cases h name value s.heap with hsame | ⟨host, expandos, hg, heq⟩
  · rw [hsame]
    exact admits_self C s
  · have hp : withProperty (.host host expandos) name value
        = .ok (.host host (expandos.set name value)) := rfl
    rw [heq]
    exact admits_put hg (.property hp)

end Admits

/-! ## Operations -/

theorem Follows.taken (hm : Follows (C.regime w₀) m m') (o : HeapObject)
    (outcome : Except EngineError Handle) :
    Act.Abides (C.regime w₀) (m.taken e o outcome) (m'.taken e o outcome) w := by
  cases outcome with
  | ok h => exact .pure _
  | error err =>
    exact (abides_writing fun _ => abides_releaseAll hm.serves.release [o]).bind
      fun _ _ _ _ _ => .pure _

theorem Follows.allocate (hm : Follows (C.regime w₀) m m') {o : HeapObject} (ho : o.Fresh)
    (hc : (w.engine e).heap.CanHold o) :
    Act.Abides (C.regime w₀) (m.allocate e o).run (m'.allocate e o).run w :=
  Act.Abides.bind (abides_writeHeap (admits_offer ho hc)) fun _ _ _ _ _ => hm.taken o _

theorem Follows.createObject (hm : Follows (C.regime w₀) m m') :
    Act.Abides (C.regime w₀) (m.createObject e).run (m'.createObject e).run w :=
  hm.allocate .object (canHold_of_ne nofun)

theorem Follows.createArray (hm : Follows (C.regime w₀) m m') (length : Nat) :
    Act.Abides (C.regime w₀) (m.createArray e length).run (m'.createArray e length).run w := by
  unfold Machine.createArray
  cases hc : Elements.create length with
  | ok els => exact hm.allocate (.array hc) (canHold_of_ne fun _ _ h => nomatch h)
  | error fault => exact .fail _

theorem Follows.createArrayOf (hm : Follows (C.regime w₀) m m') (items : List Value) :
    Act.Abides (C.regime w₀) (m.createArrayOf e items).run (m'.createArrayOf e items).run w :=
  Act.Abides.bind (abides_storeHeap (admits_offer (.arrayOf items) (canHold_of_ne nofun)))
    fun _ _ _ _ _ => hm.taken _ _

theorem Follows.createFunction (hm : Follows (C.regime w₀) m m') (name : String)
    (body : NativeId) :
    Act.Abides (C.regime w₀) (m.createFunction e name body).run
      (m'.createFunction e name body).run w :=
  hm.allocate (.function name body) (canHold_of_ne nofun)

theorem Follows.createHost (hm : Follows (C.regime w₀) m m') (host : NativeId) :
    Act.Abides (C.regime w₀) (m.createHost e host).run (m'.createHost e host).run w :=
  hm.allocate (.host host) (canHold_of_ne nofun)

theorem Follows.raise (hm : Follows (C.regime w₀) m m') (cls : ThrownClass) (message : String) :
    Act.Abides (C.regime w₀) (m.raise e cls message) (m'.raise e cls message) w :=
  abides_raise (hm.allocate (.error cls message) (canHold_of_ne nofun))

/-- Looking at an array, or taking an element away. -/
theorem abides_withArray (v : Value) {f : Elements → Except TypeFault (α × Elements)}
    (hf : ∀ els x els', f els = .ok (x, els') → els.Becomes els') :
    Act.Abides (C.regime w₀) (Machine.withArray e v f : Attempt κ α).run
      (Machine.withArray e v f).run w :=
  (Act.Abides.expectHandle v).andThen fun h _ _ _ _ =>
    .mk (abides_writeHeap (admits_changeArray hf h))

/-- Putting a value among the elements of an array. -/
theorem abides_storeElement (v value : Value) {f : Elements → Except TypeFault (α × Elements)}
    (hf : ∀ els x els', f els = .ok (x, els') → els.Becomes els') :
    Act.Abides (C.regime w₀) (Machine.storeElement e v value f : Attempt κ α).run
      (Machine.storeElement e v value f).run w :=
  (Act.Abides.expectHandle v).andThen fun h _ _ _ _ =>
    .mk (abides_storeHeap (admits_changeArray hf h))

/-- **A collection** gives the engine its heap and its statistics, lets go of what was freed
and hands back the statistics that it has given, whatever letting go sets off. -/
theorem collect_of_allowsWrite (m : Machine κ) (hl : (w.engine e).loan.allowsWrite = true) :
    m.collect e w
      = (m.releaseAll ((w.engine e).heap.collect (w.engine e).roots (w.engine e).stats).1
          >>= fun _ => pure (w.engine e).collected.stats) (w.modifyEngine e Engine.collected) := by
  unfold Machine.collect
  show EStateM.bind (Act.writeHeap e _) _ w = _
  rw [EStateM.bind, writeHeap_of_allowsWrite hl]
  show EStateM.bind (Act.update _) _ _ = _
  rw [EStateM.bind, Act.update]
  dsimp only
  rw [World.modifyEngine_modifyEngine]
  exact congrArg _ (World.modifyEngine_congr rfl)

/-- A heap that is lent out is not collected. -/
theorem collect_of_lent (m : Machine κ) (hl : (w.engine e).loan.allowsWrite = false) :
    m.collect e w = .error (.panicked .heapLent) w := by
  unfold Machine.collect
  show EStateM.bind (Act.writeHeap e _) _ w = _
  rw [EStateM.bind, writeHeap_of_lent hl]

theorem Follows.collect (hm : Follows (C.regime w₀) m m') :
    Act.Abides (C.regime w₀) (m.collect e) (m'.collect e) w := by
  intro hw
  cases hl : (w.engine e).loan.allowsWrite with
  | true =>
    unfold after
    rw [collect_of_allowsWrite m hl, collect_of_allowsWrite m' hl]
    have hcollected : w.Led C (w.modifyEngine e Engine.collected) :=
      World.led_modifyEngine fun hs =>
        ⟨hs.collect (w.engine e).roots (w.engine e).stats, C.collected hs⟩
    obtain ⟨he, hx⟩ := (abides_releaseAll (R := C.regime w₀) hm.serves.release
      ((w.engine e).heap.collect (w.engine e).roots (w.engine e).stats).1).bind
        (fun _ _ _ _ _ => .pure (w.engine e).collected.stats)
        ((C.regime w₀).after hw hcollected)
    exact ⟨he, hcollected.trans hx⟩
  | false =>
    unfold after
    rw [collect_of_lent m hl, collect_of_lent m' hl]
    exact ⟨rfl, .refl w⟩

/-- A host that has a method is behind a wrapper still: its wrapper was pinned while it was
asked. -/
theorem Roams.canHold_hostMethod (hm : m.Roams) (hw : w.Sound) {h : Handle} {host : NativeId}
    {expandos : Properties Value} {name : String} {w₁ w₂ : World κ}
    (hg : (w.engine e).heap.get? h = some (.host host expandos))
    (hproperty : m.askHost e host (.getProperty name) (w.entered e host [.object h])
      = .ok (.ok none) w₁)
    (hmethod : m.askHost e host (.hasMethod name) w₁ = .ok true w₂) :
    (w₂.engine e).heap.CanHold (.hostMethod h name) := by
  obtain ⟨hw₁, -⟩ := hm.asked (Terrain.holds_entered hw e host [.object h]) hproperty
  obtain ⟨hw₂, -⟩ := hm.asked hw₁ hmethod
  obtain ⟨b, hi⟩ := Heap.identity?_of_get? hg
  rintro t _ heq
  obtain ⟨rfl, -⟩ := HeapObject.hostMethod.inj heq
  exact ⟨b, host, Terrain.identity?_of_pinned hw₂ (List.mem_singleton.2 rfl) hi⟩

/-- **Every operation stays on the course.** -/
theorem Follows.perform (hm : Follows (C.regime w₀) m m') (hr : m.Roams) (o : Op κ) :
    Act.Abides (C.regime w₀) (m.perform o) (m'.perform o) w := by
  have hb := fun e vs => brackets_of_course C w₀ w e vs
  have hs := hm.serves
  cases o with
  | newEngine options =>
    simp only [Machine.perform]
    exact .extract (World.led_addEngine w options)
  | createObject e => exact hm.createObject
  | createArray e length => exact hm.createArray length
  | createArrayOf e items => exact hm.createArrayOf items
  | createFunction e name body => exact hm.createFunction name body
  | createHost e host => exact hm.createHost host
  | get e target name =>
    refine fun hw => abides_get (hb e _) hs.release hs
      (fun h host expandos w₁ w₂ ht hg hproperty hmethod _ => ?_) hw
    subst ht
    exact hm.allocate (.hostMethod h name) (hr.canHold_hostMethod hw.1 hg hproperty hmethod)
  | set e target name value =>
    exact abides_set (hb e _) hs.release hs
      (fun h _ => .mk (abides_storeHeap (admits_storeOwn h name value)))
      fun h _ => .mk (abides_storeHeap (admits_storeExpando h name value))
  | names e target => exact abides_names (hb e _) hs.release hs
  | arrayLength e v => exact abides_withArray v fun els _ _ h => by cases h; exact .read els
  | arrayGet e v i => exact abides_withArray v fun els _ _ h => by cases h; exact .read els
  | arraySet e v i value =>
    refine abides_storeElement v value fun els _ els' h => ?_
    cases hstore : Elements.store els i value with
    | ok els₁ =>
      rw [hstore] at h
      cases h
      exact .stored hstore
    | error fault =>
      rw [hstore] at h
      cases h
  | arrayPush e v value =>
    exact abides_storeElement v value fun els _ _ h => by cases h; exact .pushed els value
  | arrayPop e v => exact abides_withArray v fun els _ _ h => by cases h; exact .popped els
  | call e callee this args =>
    exact abides_call (hb e _) hs fun cls message _ => hm.raise cls message
  | toPrimitive e v hint =>
    exact abides_toPrimitive (hb e _) hs.release hs (fun _ _ => hs.display v) hint
  | display e v => exact hs.display v
  | kind e v => exact hs.kind v
  | hostOf e v => exact abides_hostOf hs.owners v
  | boundOf e v => exact abides_boundOf hs.owners v
  | isLive e v => exact abides_isLive v
  | liveObjects e => exact .readHeap _
  | protect e v => exact .update ((World.led_kept rfl rfl rfl).record _)
  | unprotect e v => exact .update ((World.led_kept rfl rfl rfl).record _)
  | root e v =>
    simp only [Machine.perform]
    exact .extract (World.led_addRoot w e v)
  | unroot r => exact .update (World.led_dropRoot w r)
  | collect e => exact hm.collect
  | safepoint e => exact abides_safepoint fun _ => hm.collect
  | raise e cls message => exact hm.raise cls message
  | describe e err => exact hs.describe err
  | report e err => exact (hs.describe err).bind fun _ _ _ _ _ => .update (World.led_kept rfl rfl rfl)
  | takeReported e =>
    simp only [Machine.perform]
    exact .extract (World.led_kept rfl rfl rfl)
  | lock e => exact .update (World.led_kept rfl rfl rfl)
  | releaseLock e =>
    simp only [Machine.perform]
    exact .extract (World.led_kept rfl rfl rfl)
  | spawn n =>
    simp only [Machine.perform]
    exact .extract (World.led_of_engines_eq rfl)
  | retain id => exact .update (hs.owners _ id _)
  | release id => exact hs.release id w
  | ask id r => exact (Act.Abides.update (World.led_of_engines_eq rfl)).bind fun _ _ _ _ _ => hm.ask id r _
  | become id state => exact .update (World.led_of_engines_eq (aside_become w id state).engines)
  | newRegistry room =>
    simp only [Machine.perform]
    exact .extract (World.led_of_engines_eq rfl)
  | classFor r bound =>
    simp only [Machine.perform]
    exact .extract (World.led_of_engines_eq (aside_classFor w r bound).engines)
  | finalizeRegistry r => exact .update (World.led_of_engines_eq rfl)
  | newClass =>
    simp only [Machine.perform]
    exact .extract (World.led_of_engines_eq rfl)
  | adapterClass id =>
    refine (Act.Abides.view _).bind fun n w₁ hn _ _ => ?_
    obtain ⟨rfl, rfl⟩ : w.native? id = n ∧ w = w₁ := by simpa [Act.view] using hn
    cases hn' : w.native? id with
    | none => exact .panic _
    | some n =>
      cases n with
      | adapter a => exact .extract (World.led_of_engines_eq (aside_adapterClass hn').engines)
      | _ => exact .panic _
  | intern c kind name =>
    simp only [Machine.perform]
    exact .extract (World.led_of_engines_eq rfl)
  | note n => exact .update (World.led_of_engines_eq rfl)
  | takeNotes =>
    simp only [Machine.perform]
    exact .extract (World.led_of_engines_eq rfl)
  | _ => exact .view _

/-- So does what a frame drops. -/
theorem Follows.dropLocal (hm : Follows (C.regime w₀) m m') (l : Local) :
    Act.Abides (C.regime w₀) (m.dropLocal l) (m'.dropLocal l) w := by
  cases l with
  | guard e g => exact .update (World.led_kept rfl rfl rfl)
  | root r => exact .update (World.led_dropRoot w r)
  | native id => exact hm.serves.release id w

/-- **Every program stays on the course.** -/
theorem Follows.run (hm : Follows (C.regime w₀) m m') (hr : m.Roams) (p : Program κ α)
    (owned : List Local) : Act.Abides (C.regime w₀) (m.run p owned) (m'.run p owned) w :=
  abides_run (fun l _ => hm.dropLocal l) (fun op _ => hm.perform hr op) p owned

end Machine

/-- Natives stay on every course. -/
theorem Behaviour.stays (b : Behaviour κ) (C : Engine.Course) (w : World κ) (depth : Nat) :
    Machine.Follows (C.regime w) (b.machine depth) (b.machine depth) :=
  b.follows (fun depth hm _ p _ => hm.run (b.roams depth) p []) depth

/-- **Programs stay on every course**, and run natives where it has led by then: what natives
do in any other world makes no difference. -/
theorem Behaviour.led_run (b : Behaviour κ) (C : Engine.Course) {w : World κ} (hw : w.Sound)
    (depth : Nat) (p : Program κ α) (owned : List Local) :
    w.Led C (((b.machine depth).run p owned).after w)
      ∧ ∀ m', (b.machine depth).Agrees m' (fun w₁ w₂ => w.Led C w₁ ∧ w.Led C w₂)
            (fun w₁ w₂ => w.Led C w₁ ∧ w.Led C w₂) →
          m'.run p owned w = (b.machine depth).run p owned w := by
  have hm := b.stays C w depth
  have hstart : (C.regime w).Holds w := ⟨hw, .refl w⟩
  refine ⟨(hm.run (b.roams depth) p owned hstart).2, fun m' ha => ?_⟩
  have hm' : Machine.Follows (C.regime w) (b.machine depth) m' :=
    hm.of_agrees ha (fun _ _ hw hw' => ⟨hw.2, hw'.2⟩) fun _ _ hw hw' => ⟨hw.2, hw'.2⟩
  exact (hm'.run (b.roams depth) p owned hstart).1

/-- **Programs keep every law**, and run natives where it is obeyed: what natives do in any
other world makes no difference. -/
theorem Behaviour.lawful_run (b : Behaviour κ) {L : Engine.Law} {w : World κ} (hw : w.Sound)
    (hl : w.Lawful L) (depth : Nat) (p : Program κ α) (owned : List Local) :
    (((b.machine depth).run p owned).after w).Lawful L
      ∧ ∀ m', (b.machine depth).Agrees m' (fun w₁ w₂ => w₁.Lawful L ∧ w₂.Lawful L)
            (fun w₁ w₂ => w₁.Lawful L ∧ w₂.Lawful L) →
          m'.run p owned w = (b.machine depth).run p owned w := by
  have hkeeps : ∀ {w'}, w.Led L.course w' → w'.Lawful L := fun h e => (h e (hw e)).2 (hl e)
  obtain ⟨hled, hagrees⟩ := b.led_run L.course hw depth p owned
  refine ⟨hkeeps hled, fun m' ha => hagrees m' ⟨fun id r w₁ hr => ?_, fun n w₁ hr => ?_⟩⟩
  · exact ha.ask id r w₁ ⟨hkeeps hr.1, hkeeps hr.2⟩
  · exact ha.finalise n w₁ ⟨hkeeps hr.1, hkeeps hr.2⟩

/-- **A world that programs come to**, one after another, from the first world on. -/
inductive Behaviour.Visits (b : Behaviour κ) : World κ → Prop
  /-- The first world. -/
  | first : Visits b {}
  /-- The world after a program, however it ends. -/
  | run {w : World κ} {α : Type} (hw : Visits b w) (depth : Nat) (p : Program κ α)
      (owned : List Local) : Visits b (((b.machine depth).run p owned).after w)

namespace Behaviour.Visits

variable {b : Behaviour κ} {w : World κ}

/-- Such a world can come about. -/
theorem reachable (hw : b.Visits w) : w.Reachable := by
  induction hw with
  | first => exact .refl
  | run _ depth p owned ih => exact (b.reachable_run depth p owned ih).1

/-- Every course has led there. -/
theorem led (hw : b.Visits w) (C : Engine.Course) : ({} : World κ).Led C w := by
  induction hw with
  | first => exact .refl _
  | run hw depth p owned ih => exact ih.trans (b.led_run C hw.reachable.sound depth p owned).1

/-- Every law is obeyed there. -/
theorem lawful (hw : b.Visits w) (L : Engine.Law) : w.Lawful L := fun e =>
  (hw.led L.course e (World.Sound.init e)).2 (World.lawful_init L e)

end Behaviour.Visits

end EmbeddedScript
