import EmbeddedScript.Proofs.Machine.Evaluation
import EmbeddedScript.Proofs.Machine.Pictures
import EmbeddedScript.Proofs.Machine.Writes

/-!
# Asking a proxy what it can do

A proxy is asked what it can do before it is made to do it. That it lists a property and that it
is a function are found out without leaving a trace, and depend on nothing but the value that it
stands for and on what hosts answer: on the picture of its engine.

That it has a method is found out by reading the method. If the method is a host's, **the answer
leaves an object behind, and it is no if there is no room for one**
(`Proxy.answer_capabilities`). A proxy that has said yes, though, does not say that the method
cannot be found when it is made to invoke it.
-/

namespace EmbeddedScript

open Act Machine Program

variable {κ α β : Type}

/-! ## What a program can return -/

namespace Program

/-- **Whatever the program returns is like this**, however its operations turn out. -/
def Returns (Q : α → Prop) : Program κ α → Prop
  | done a => Q a
  | panic _ => True
  | perform _ next => ∀ r, Returns Q (next r)
  | hold _ next => Returns Q next
  | drop next => Returns Q next
  | forget next => Returns Q next

variable {Q : α → Prop}

/-- What is made of a result is like this if it is made of something like that. -/
theorem Returns.bind {R : β → Prop} {p : Program κ β} {f : β → Program κ α} (hp : p.Returns R)
    (hf : ∀ b, R b → (f b).Returns Q) : (p.bind f).Returns Q := by
  induction p with
  | done b => exact hf b hp
  | panic p => trivial
  | perform op next ih => exact fun r => ih r (hp r)
  | hold l next ih => exact ih hp
  | drop next ih => exact ih hp
  | forget next ih => exact ih hp

theorem Returns.trivially (p : Program κ α) : p.Returns fun _ => True := by
  induction p with
  | done a => trivial
  | panic p => trivial
  | perform op next ih => exact ih
  | hold l next ih => exact ih
  | drop next ih => exact ih
  | forget next ih => exact ih

/-- It is what comes last that returns. -/
theorem Returns.last {p : Program κ β} {f : β → Program κ α} (hf : ∀ b, (f b).Returns Q) :
    (p >>= f).Returns Q :=
  (Returns.trivially p).bind fun b _ => hf b

theorem Returns.owning {p : Program κ α} (hp : p.Returns Q) (l : Local) :
    (owning l p).Returns Q :=
  hp.bind fun _ ha => ha

/-- **What a run comes to is like this.** -/
theorem Returns.of_run {m : Machine κ} {p : Program κ α} {owned : List Local} {a : α}
    {w w' : World κ} (hp : p.Returns Q) (hrun : m.run p owned w = .ok a w') : Q a := by
  obtain ⟨rest, w₁, heval, -⟩ := run_eq_ok.1 hrun
  clear hrun
  induction p generalizing owned w with
  | done b =>
    obtain ⟨hresult, -⟩ := pure_eq_ok.1 heval
    obtain ⟨rfl, -⟩ := Prod.mk.inj hresult
    exact hp
  | panic p => cases heval
  | perform op next ih =>
    obtain ⟨r, w₂, -, hnext⟩ := bind_eq_ok.1 heval
    exact ih r (hp r) hnext
  | hold l next ih => exact ih hp heval
  | drop next ih =>
    cases owned with
    | nil => exact ih hp heval
    | cons l owned =>
      obtain ⟨_, w₂, -, hnext⟩ := bind_eq_ok.1 heval
      exact ih hp hnext
  | forget next ih => exact ih hp heval

end Program

/-! ## The programs of a proxy -/

/-- What is seen as a function is an object of that kind. -/
theorem ValueType.of_eq_function_iff {v : Value} {t : Option ObjectKind} :
    ValueType.of v t = .function ↔ (∃ h, v = .object h) ∧ t = some .function := by
  cases v with
  | object h => cases t with
    | none => simp [ValueType.of]
    | some k => cases k <;> simp [ValueType.of]
  | _ => simp [ValueType.of]

namespace Proxy

variable {m : Machine κ} {p : Proxy} {name : String} {w w' : World κ} {yes : Bool}

/-- **A call that fails** does not fail because something cannot be found. -/
theorem returns_callWith (p : Proxy) (callee : Value) (args : List NativeValue) :
    (p.callWith callee args : Program κ _).Returns fun r => ∀ n, r ≠ .error (.notFound n) := by
  unfold callWith
  refine Returns.last fun args => ?_
  cases args with
  | error err =>
    intro n hn
    cases hn
  | ok args =>
    refine Returns.last fun r => ?_
    cases r with
    | ok result =>
      refine Returns.last fun v n hn => ?_
      cases hn
    | error err =>
      cases err with
      | exception thrown =>
        refine Returns.last fun text => Returns.last fun _ n hn => ?_
        cases hn
      | _ =>
        intro n hn
        cases hn

/-- A proxy has a property that is among the names that the value lists. -/
theorem names_of_run_hasProperty (h : m.run (p.answer (.hasProperty name)) [] w = .ok yes w') :
    ∃ l, (m.names p.engine p.value).run w = .ok l w'
      ∧ yes = (l.toOption.getD []).contains name := by
  obtain ⟨names, rest, w₁, hnames, hyes⟩ := run_bind_eq_ok.1 h
  obtain ⟨l, rest₁, w₂, hop, hlist⟩ := eval_bind_eq_ok.1 hnames
  obtain ⟨rfl, hperform⟩ := eval_op_eq_ok.1 hop
  cases l with
  | ok l =>
    obtain ⟨rfl, rfl, rfl⟩ := eval_pure_eq_ok.1 hlist
    obtain ⟨rfl, rfl⟩ := run_pure_eq_ok.1 hyes
    exact ⟨_, hperform, rfl⟩
  | error err =>
    obtain ⟨rfl, rfl, rfl⟩ := eval_pure_eq_ok.1 hlist
    obtain ⟨rfl, rfl⟩ := run_pure_eq_ok.1 hyes
    exact ⟨_, hperform, rfl⟩

/-- A proxy is a function if the value is of that kind. -/
theorem kind_of_run_isFunction (h : m.run (p.answer .isFunction) [] w = .ok yes w') :
    ∃ t, m.kind p.engine p.value w = .ok t w' ∧ yes = decide (t = some .function) := by
  obtain ⟨type, rest, w₁, htype, hyes⟩ := run_bind_eq_ok.1 h
  obtain ⟨t, hop, rfl⟩ := eval_map_eq_ok.1 htype
  obtain ⟨rfl, hkind⟩ := eval_op_eq_ok.1 hop
  obtain ⟨rfl, rfl⟩ := run_pure_eq_ok.1 hyes
  refine ⟨t, hkind, decide_eq_decide.2 ?_⟩
  obtain ⟨rfl, -, -⟩ | ⟨h, o, hv, -, -, -, -⟩ | ⟨h, _, _, _, hv, -⟩ := kind_cases hkind
  · exact ValueType.of_eq_function_iff.trans (and_iff_right_of_imp nofun)
  · exact ValueType.of_eq_function_iff.trans (and_iff_right ⟨h, hv⟩)
  · exact ValueType.of_eq_function_iff.trans (and_iff_right ⟨h, hv⟩)

/-- **A proxy has a method** that is read and can be called. -/
theorem get_of_run_hasMethod (h : m.run (p.answer (.hasMethod name)) [] w = .ok yes w') :
    ∃ g w₁, (m.get p.engine p.value name).run w = .ok g w₁
      ∧ ((∃ err, g = .error err) ∧ yes = false ∧ w' = w₁
        ∨ ∃ x t, g = .ok x ∧ m.kind p.engine x w₁ = .ok t w'
          ∧ yes = decide (t = some .function)) := by
  obtain ⟨g, w₁, hget, hyes⟩ := run_op_bind_eq_ok.1 h
  refine ⟨g, w₁, hget, ?_⟩
  cases g with
  | error err =>
    obtain ⟨rfl, rfl⟩ := run_pure_eq_ok.1 hyes
    exact .inl ⟨⟨err, rfl⟩, rfl, rfl⟩
  | ok x =>
    obtain ⟨t, w₂, hkind, hyes⟩ := run_op_bind_eq_ok.1 hyes
    obtain ⟨rfl, rfl⟩ := run_pure_eq_ok.1 hyes
    exact .inr ⟨x, t, rfl, hkind, rfl⟩

/-- **A method cannot be found** only if it is read and cannot be called. -/
theorem get_of_run_invokeMethod {args : List NativeValue} {n : String}
    (h : m.run (p.answer (.invokeMethod name args)) [] w = .ok (.error (.notFound n)) w') :
    ∃ x w₁ t w₂, (m.get p.engine p.value name).run w = .ok (.ok x) w₁
      ∧ m.kind p.engine x w₁ = .ok t w₂ ∧ t ≠ some .function := by
  obtain ⟨g, w₁, hget, hrest⟩ := run_op_bind_eq_ok.1 h
  cases g with
  | error err =>
    obtain ⟨herr, -⟩ := run_pure_eq_ok.1 hrest
    cases herr
  | ok x =>
    obtain ⟨t, w₂, hkind, hrest⟩ := run_op_bind_eq_ok.1 hrest
    refine ⟨x, w₁, t, w₂, hget, hkind, ?_⟩
    rintro rfl
    rw [if_pos rfl] at hrest
    have hreturns : ∀ root, (owning (.root root) (p.callWith x args) : Program κ _).Returns
        fun r => ∀ n, r ≠ .error (.notFound n) :=
      fun root => (p.returns_callWith x args).owning (.root root)
    exact (Returns.last hreturns).of_run hrest n rfl

/-! ## What the answers depend on -/

variable {Among : World κ → Prop} {answers : NativeId → (r : HostRequest) → r.Reply}

/-- **Whether it has a method** leaves no trace, unless the method is a host's and was made into
an object to find out. -/
theorem trace_of_run_hasMethod (ht : m.Tactful p.engine Among) (hw : Among w)
    (hwf : (w.engine p.engine).heap.WellFormed)
    (hrun : m.run (p.answer (.hasMethod name)) [] w = .ok yes w') :
    w.Calm Among w' ∨ yes = true ∧ ∃ h host expandos g, p.value = .object h
      ∧ (w.engine p.engine).heap.get? h = some (.host host expandos)
      ∧ (∃ u, (m.inspect p.engine h host name).run (w.entered p.engine host [p.value])
        = .ok (.ok .method) u)
      ∧ Materialised p.engine h name Among w g w' := by
  obtain ⟨g, w₁, hget, ⟨⟨err, rfl⟩, -, rfl⟩ | ⟨x, t, rfl, hkind, rfl⟩⟩ :=
    get_of_run_hasMethod hrun
  · obtain hc | ⟨_, _, _, -, -, -, hm⟩ := get_of_tactful ht hw hwf hget
    · exact .inl hc
    · cases hm.read
  · obtain hc | ⟨h, host, expandos, hv, hg, hfound, hm⟩ := get_of_tactful ht hw hwf hget
    · exact .inl (hc.trans (kind_of_tactful ht hc.among hkind))
    · obtain ⟨rfl, rfl⟩ := hm.kind hwf rfl hkind
      exact .inr ⟨rfl, h, host, expandos, _, hv, hg, hfound, hm⟩

/-- **Whether it has a method** is in the picture, but for a method of a host: it is had if there
is room for an object of it. -/
theorem hasMethod_of_run (hf : m.Frank p.engine Among answers) (hw : Among w)
    (hwf : (w.engine p.engine).heap.WellFormed)
    (hrun : m.run (p.answer (.hasMethod name)) [] w = .ok yes w') :
    yes = (w.picture p.engine answers).hasMethod (w.engine p.engine).heap.refusal?.isNone
      p.value name := by
  obtain ⟨g, w₁, hget, hcase⟩ := get_of_run_hasMethod hrun
  obtain ⟨h, -, hfind, hm⟩ | ⟨hc, hread, hroom⟩ := get_of_frank hf hw hwf hget
  · rw [Picture.hasMethod, hfind]
    obtain ⟨⟨err, rfl⟩, -⟩ | ⟨x, t, rfl, hkind, rfl⟩ := hcase
    · cases hm.read
    · obtain ⟨rfl, -⟩ := hm.kind hwf rfl hkind
      rw [hm.room]
      rfl
  · obtain ⟨⟨err, rfl⟩, rfl, -⟩ | ⟨x, t, rfl, hkind, rfl⟩ := hcase
    · rw [Picture.hasMethod]
      cases hfind : (w.picture p.engine answers).find p.value name with
      | none => rfl
      | some found =>
        rw [hfind] at hread hroom
        cases found with
        | method => exact (hroom rfl).symm
        | _ => cases hread
    · obtain ⟨found, hfind, hvalue⟩ := Option.bind_eq_some_iff.1 hread.symm
      rw [Picture.hasMethod_of_value? hfind hvalue, kind_of_frank hf hc.among hkind,
        hc.untouched.picture]
      rfl

/-- **What it is said to have can be called** when it is read later, if there is room for it. -/
theorem callable_of_get {P : Picture} {x : Value} {w₁ : World κ} {room : Bool}
    {t : Option ObjectKind} (hf : m.Frank p.engine Among answers) (hw : Among w)
    (hwf : (w.engine p.engine).heap.WellFormed) (hP : P.Extends (w.picture p.engine answers))
    (hyes : P.hasMethod room p.value name = true)
    (hget : (m.get p.engine p.value name).run w = .ok (.ok x) w₁)
    (hkind : m.kind p.engine x w₁ = .ok t w') : t = some .function := by
  obtain ⟨h, -, -, hm⟩ | ⟨hc, hread, -⟩ := get_of_frank hf hw hwf hget
  · exact (hm.kind hwf rfl hkind).1
  · have hcall : (w.picture p.engine answers).callable x = true := by
      cases hfind : P.find p.value name with
      | none =>
        rw [Picture.hasMethod, hfind] at hyes
        cases hyes
      | some found =>
        rw [hP.find hfind] at hread
        rw [Picture.hasMethod_of_value? hfind hread.symm] at hyes
        exact hP.callable hyes
    rw [kind_of_frank hf hc.among hkind, hc.untouched.picture]
    exact of_decide_eq_true hcall

end Proxy

/-! ## The result -/

/-- **What a proxy is asked about what it can do, it answers from the picture.** As long as hosts
are discreet,

* whether it has a property and whether it is a function is found out without leaving a trace;
* so is whether it has a method, unless it is a wrapper whose host has the method, and there is
  room for an object of it: then there is one object more.

If hosts answer the same whenever they are asked, the answers are those of the picture of the
engine. Room plays a part for one of them only: a method of a host is had if there is room for an
object of it. And what has a method does not fail to find it when it is made to invoke it. -/
theorem Proxy.answer_capabilities (m : Machine κ) (p : Proxy) (name : String)
    (Among : World κ → Prop) (w : World κ) (ht : m.Tactful p.engine Among) (hw : Among w)
    (hwf : (w.engine p.engine).heap.WellFormed) :
    (∀ yes w', m.run (p.answer (.hasProperty name)) [] w = .ok yes w' → w.Untouched w')
      ∧ (∀ yes w', m.run (p.answer .isFunction) [] w = .ok yes w' → w.Untouched w')
      ∧ (∀ yes w', m.run (p.answer (.hasMethod name)) [] w = .ok yes w' →
          w.Untouched w' ∨ yes = true ∧ ∃ h host expandos, p.value = .object h
            ∧ (w.engine p.engine).heap.get? h = some (.host host expandos)
            ∧ (∃ u, (m.inspect p.engine h host name).run (w.entered p.engine host [p.value])
              = .ok (.ok .method) u)
            ∧ (w.engine p.engine).heap.refusal? = none
            ∧ w.Reheaped p.engine ((w.engine p.engine).heap.place (.hostMethod h name)).2 w')
      ∧ ∀ answers, m.Frank p.engine Among answers →
        (∀ yes w', m.run (p.answer (.hasProperty name)) [] w = .ok yes w' →
            yes = ((w.picture p.engine answers).names p.value).contains name)
          ∧ (∀ yes w', m.run (p.answer .isFunction) [] w = .ok yes w' →
            yes = (w.picture p.engine answers).callable p.value)
          ∧ ∀ yes w', m.run (p.answer (.hasMethod name)) [] w = .ok yes w' →
            yes = (w.picture p.engine answers).hasMethod
                (w.engine p.engine).heap.refusal?.isNone p.value name
              ∧ (yes = true → ∀ args r w'',
                m.run (p.answer (.invokeMethod name args)) [] w' = .ok r w'' →
                  ∀ n, r ≠ .error (.notFound n)) := by
  refine ⟨fun yes w' hrun => ?_, fun yes w' hrun => ?_, fun yes w' hrun => ?_,
    fun answers hf => ⟨fun yes w' hrun => ?_, fun yes w' hrun => ?_,
      fun yes w' hrun => ⟨hasMethod_of_run hf hw hwf hrun, ?_⟩⟩⟩
  · obtain ⟨l, hnames, -⟩ := names_of_run_hasProperty hrun
    exact (names_of_tactful ht hw hnames).untouched
  · obtain ⟨t, hkind, -⟩ := kind_of_run_isFunction hrun
    exact (kind_of_tactful ht hw hkind).untouched
  · obtain hc | ⟨hyes, h, host, expandos, g, hv, hg, hfound, hm⟩ :=
      trace_of_run_hasMethod ht hw hwf hrun
    · exact .inl hc.untouched
    · exact .inr ⟨hyes, h, host, expandos, hv, hg, hfound, hm.room, hm.placed⟩
  · obtain ⟨l, hnames, rfl⟩ := names_of_run_hasProperty hrun
    rw [names_of_frank hf hw hnames]
  · obtain ⟨t, hkind, rfl⟩ := kind_of_run_isFunction hrun
    rw [kind_of_frank hf hw hkind]
    rfl
  · rintro rfl args r w'' hinvoke n rfl
    -- whatever finding out has left behind, everything is still there
    obtain ⟨hw', hwf', hP⟩ : Among w' ∧ (w'.engine p.engine).heap.WellFormed
        ∧ (w.picture p.engine answers).Extends (w'.picture p.engine answers) := by
      obtain hc | ⟨-, h, _, _, _, -, -, -, hm⟩ := trace_of_run_hasMethod ht hw hwf hrun
      · exact ⟨hc.among, by rwa [hc.untouched.engine],
          by rw [hc.untouched.picture]; exact ⟨id, rfl⟩⟩
      · exact ⟨hm.among, hm.wellFormed hwf, hm.picture hwf⟩
    obtain ⟨x, w₁, t, w₂, hget, hkind, hne⟩ := get_of_run_invokeMethod hinvoke
    exact hne (callable_of_get hf hw' hwf' hP (hasMethod_of_run hf hw hwf hrun).symm hget hkind)

/-! ## Hosts that just answer -/

/-- Natives of the embedder's that give these answers as hosts, and do nothing else. -/
def Behaviour.answering (answers : NativeId → (r : HostRequest) → r.Reply) : Behaviour κ where
  answer id _
    | .host _ r => .done (answers id r)
    | _ => .panic .noAnswer
  finaliser _ := .done ()

/-- **The hosts behind the wrappers of an engine are the embedder's**, and have owners. -/
structure World.Staffed (e : EngineId) (w : World κ) : Prop where
  /-- A host is one of the embedder's. -/
  custom : ∀ {h host expandos}, (w.engine e).heap.get? h = some (.host host expandos) →
    ∃ state, w.native? host = some (.custom state)
  /-- It has an owner. -/
  alive : ∀ {h host expandos}, (w.engine e).heap.get? h = some (.host host expandos) →
    w.isAlive host = true

/-- They are discreet, and answer what they are to answer. -/
theorem Behaviour.frank_answering (answers : NativeId → (r : HostRequest) → r.Reply)
    (depth : Nat) (e : EngineId) :
    ((answering answers : Behaviour κ).machine (depth + 1)).Frank e (World.Staffed e) answers := by
  have hask : ∀ {w w' : World κ} {host : NativeId} {r : HostRequest} {x : r.Reply} {state : κ},
      w.native? host = some (.custom state) →
      ((answering answers).machine (depth + 1)).askHost e host r w = .ok x w' →
      x = answers host r ∧ w' = w.record (.asked host (.host e r) w.postures) := by
    intro w w' host r x state hn hask
    rw [askHost_of_custom _ depth e r hn] at hask
    obtain ⟨rfl, rfl⟩ := EStateM.Result.ok.inj hask
    exact ⟨rfl, rfl⟩
  refine { discreet := ?_, alive := fun hw hg => hw.alive hg, stays := ?_, answer := ?_ }
  · intro w h host expandos w' r x hw hg _ hrun
    obtain ⟨state, hn⟩ := hw.custom hg
    obtain ⟨-, rfl⟩ := hask hn hrun
    exact ⟨⟨fun _ => rfl, fun _ => rfl⟩, { hw with }⟩
  · intro w w' hw hr
    constructor
    · intro h host expandos hg
      rw [hr.native?]
      exact hw.custom (hr.get?_host hg)
    · intro h host expandos hg
      rw [hr.isAlive]
      exact hw.alive (hr.get?_host hg)
  · intro w h host expandos w' r x hw hg _ hrun
    obtain ⟨state, hn⟩ := hw.custom hg
    exact (hask hn hrun).1

/-- A host with the method `m` and nothing else. -/
def HostRequest.courtesy : (r : HostRequest) → r.Reply
  | getProperty _ => .ok none
  | setProperty _ _ => .ok false
  | hasMethod name => decide (name = "m")
  | invokeMethod _ _ => .ok .undefined
  | isCallable => false
  | call _ => .ok .undefined
  | propertyNames => []
  | toPrimitive _ => .ok .null

/-- Natives that are such hosts. -/
def Behaviour.courteous : Behaviour Unit := .answering fun _ r => r.courtesy

/-- The world with a wrapper of such a host in an engine, and with another in an engine for one
object. -/
def World.attended : World Unit :=
  ((Behaviour.courteous.machine 2).run (do
    let host ← Program.op (.spawn (.custom ()))
    let _ ← Program.op (.createHost ⟨0⟩ host)
    let e ← Program.op (.newEngine { maxHeapObjects := 1 })
    Program.op (.retain host)
    Program.op (.createHost e host)) []).after {}

/-- A proxy of the wrapper in an engine. -/
def Proxy.attending (e : EngineId) : Proxy := ⟨⟨0, e, .object ⟨0, 0⟩⟩, ⟨0⟩⟩

/-- The objects of an engine own natives of the embedder's, which have owners. -/
def World.staffs (w : World κ) (e : EngineId) : Bool :=
  (w.engine e).heap.slots.toList.all fun s => s.occupant.all fun a =>
    a.object.native?.all fun id => (w.native? id).any Native.isCustom && w.isAlive id

theorem World.staffed_of_staffs {w : World Unit} {e : EngineId} (h : w.staffs e = true) :
    w.Staffed e := by
  have hhost : ∀ {k host expandos}, (w.engine e).heap.get? k = some (.host host expandos) →
      (w.native? host).any Native.isCustom = true ∧ w.isAlive host = true := by
    intro k host expandos hg
    obtain ⟨a, ha, hobject⟩ := Heap.get?_eq_some_iff.1 hg
    obtain ⟨s, hs, -, hoccupant⟩ := Heap.occupant?_eq_some_iff.1 ha
    have hslot := List.all_eq_true.1 h s (Array.mem_toList_iff.2 (Array.mem_of_getElem? hs))
    rw [hoccupant, Option.all_some, hobject] at hslot
    exact Bool.and_eq_true_iff.1 hslot
  exact ⟨fun hg => ⟨(), World.native?_of_isCustom (hhost hg).1⟩, fun hg => (hhost hg).2⟩

/-- **A host's method is had or not had, as there is room.** It is the same host behind both
wrappers, and it has the method; but the proxy of the one says that it has it, and leaves an
object behind, and the proxy of the other, whose engine is full, says that it does not. -/
theorem Proxy.answer_capabilities_crowded :
    (∀ e, (Behaviour.courteous.machine 2).Frank e (World.Staffed e) fun _ r => r.courtesy)
      ∧ World.attended.Staffed ⟨0⟩ ∧ World.attended.Staffed ⟨1⟩
      ∧ (World.attended.engine ⟨0⟩).heap.get? ⟨0, 0⟩ = some (.host ⟨0⟩ .empty)
      ∧ (World.attended.engine ⟨1⟩).heap.get? ⟨0, 0⟩ = some (.host ⟨0⟩ .empty)
      ∧ (∃ w, (Behaviour.courteous.machine 2).run
            ((Proxy.attending ⟨0⟩).answer (.hasMethod "m")) [] World.attended = .ok true w
          ∧ (w.engine ⟨0⟩).heap.live = (World.attended.engine ⟨0⟩).heap.live + 1)
      ∧ ∃ w, (Behaviour.courteous.machine 2).run
          ((Proxy.attending ⟨1⟩).answer (.hasMethod "m")) [] World.attended = .ok false w := by
  refine ⟨Behaviour.frank_answering _ 1, World.staffed_of_staffs (by decide +kernel),
    World.staffed_of_staffs (by decide +kernel), by decide +kernel, by decide +kernel, ?_, ?_⟩
  · have hfinishes : ((Behaviour.courteous.machine 2).run
        ((Proxy.attending ⟨0⟩).answer (.hasMethod "m")) []).finishes World.attended
          (fun yes w => yes && decide ((w.engine ⟨0⟩).heap.live
            = (World.attended.engine ⟨0⟩).heap.live + 1)) = true := by decide +kernel
    obtain ⟨yes, w, hrun, htest⟩ := exists_of_finishes hfinishes
    obtain ⟨rfl, hlive⟩ := Bool.and_eq_true_iff.1 htest
    exact ⟨w, hrun, of_decide_eq_true hlive⟩
  · have hfinishes : ((Behaviour.courteous.machine 2).run
        ((Proxy.attending ⟨1⟩).answer (.hasMethod "m")) []).finishes World.attended
          (fun yes _ => yes = false) = true := by decide +kernel
    obtain ⟨yes, w, hrun, hno⟩ := exists_of_finishes hfinishes
    obtain rfl : yes = false := of_decide_eq_true hno
    exact ⟨w, hrun⟩

/-- Where there is room, the proxy has the method and finds it, and has no property of the
name. -/
theorem Proxy.answer_capabilities_attended :
    ∃ w₁ w₂, (Behaviour.courteous.machine 2).run
          ((Proxy.attending ⟨0⟩).answer (.hasProperty "m")) [] World.attended = .ok false w₁
      ∧ World.attended.Untouched w₁
      ∧ (Behaviour.courteous.machine 2).run
          ((Proxy.attending ⟨0⟩).answer (.hasMethod "m")) [] World.attended = .ok true w₂
      ∧ (World.attended.picture ⟨0⟩ fun _ r => r.courtesy).hasMethod true (.object ⟨0, 0⟩) "m"
        = true
      ∧ ∀ args r w₃, (Behaviour.courteous.machine 2).run
          ((Proxy.attending ⟨0⟩).answer (.invokeMethod "m" args)) [] w₂ = .ok r w₃ →
        ∀ n, r ≠ .error (.notFound n) := by
  have hstaffed : World.attended.Staffed ⟨0⟩ := World.staffed_of_staffs (by decide +kernel)
  have hfrank := Behaviour.frank_answering (κ := Unit) (fun _ r => r.courtesy) 1 ⟨0⟩
  have hreachable : World.attended.Reachable := (Behaviour.courteous.reaches_run 2 _ [] .init).1
  obtain ⟨hproperty, -, -, hfrankly⟩ := Proxy.answer_capabilities (Behaviour.courteous.machine 2)
    (Proxy.attending ⟨0⟩) "m" (World.Staffed ⟨0⟩) World.attended hfrank.toTactful hstaffed
    (hreachable.sound ⟨0⟩).wellFormed
  obtain ⟨-, -, hmethod⟩ := hfrankly _ hfrank
  have hproperties : ((Behaviour.courteous.machine 2).run
      ((Proxy.attending ⟨0⟩).answer (.hasProperty "m")) []).finishes World.attended
        (fun yes _ => yes = false) = true := by decide +kernel
  have hmethods : ((Behaviour.courteous.machine 2).run
      ((Proxy.attending ⟨0⟩).answer (.hasMethod "m")) []).finishes World.attended
        (fun yes _ => yes = true) = true := by decide +kernel
  obtain ⟨no, w₁, hrun₁, hno⟩ := exists_of_finishes hproperties
  obtain ⟨yes, w₂, hrun₂, hyes⟩ := exists_of_finishes hmethods
  obtain rfl : no = false := of_decide_eq_true hno
  obtain rfl : yes = true := of_decide_eq_true hyes
  obtain ⟨-, hfinds⟩ := hmethod true w₂ hrun₂
  exact ⟨w₁, w₂, hrun₁, hproperty false w₁ hrun₁, hrun₂, by decide +kernel, hfinds rfl⟩

end EmbeddedScript
