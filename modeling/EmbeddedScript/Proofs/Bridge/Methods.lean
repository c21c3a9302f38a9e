import EmbeddedScript.Proofs.Bridge.Arguments
import EmbeddedScript.Proofs.Machine.HostMethods
import EmbeddedScript.Proofs.Machine.Silence
import EmbeddedScript.Proofs.Reflection.Descriptors

/-!
# Methods of bound objects stay callable

A method that was read off a wrapper is called by its name, and the adapter behind the
wrapper looks the name up again before it invokes the bound object. By then the bound
object may deny the method, and the registry of the adapter may be empty. The lookup
finds it all the same: the read could only succeed once the class of the adapter
remembered the name, what a class remembers it keeps, **and an adapter keeps its class**
(`World.Adheres`), whatever becomes of the registry that it came from.

So each call of such a method is one request to the bound object, by that name. Before it
the arguments are converted one after another, and nobody is asked; and what is done after
it is a program that asks nobody (`Program.AsksNobody`).
-/

namespace EmbeddedScript

open Act

variable {κ α β : Type} {m m' : Machine κ} {w w' w₀ w₁ w₂ : World κ} {e : EngineId}
  {host : NativeId} {a : Adapter} {name : String}

/-! ## Adapters along a run -/

namespace World

/-- Adapters adhere to their classes along a run. -/
theorem adheres_of_reaches (hr : w.Reaches w') : w.Adheres w' := by
  induction hr with
  | refl => exact .of_tables rfl rfl (Nat.le_refl _)
  | tail _ hs ih => exact ih.trans hs.adheres

/-- **Registries hand out classes that there are**, in every world that can come about. -/
theorem Reachable.registriesKnown (hw : w.Reachable) : w.RegistriesKnown :=
  (adheres_of_reaches hw).known fun _ _ _ h => absurd h Registry.getElem?_empty

/-- **The class that an adapter has looked up never changes.** -/
theorem native?_of_resolved (hr : w.Reaches w') {c : ClassId}
    (hn : w.native? host = some (.adapter a)) (hc : a.cls = some c) :
    w'.native? host = some (.adapter a) := by
  obtain ⟨cls, hn', hkept, -⟩ := (adheres_of_reaches hr).adapter host a hn
  rcases hkept with hnone | rfl
  · rw [hc] at hnone
    cases hnone
  · exact hn'

/-- An adapter that began without a class has one that is there, if it has one. -/
theorem exists_adapter_of_reaches (hw : w₀.Reachable) (hn : w₀.native? host = some (.adapter a))
    (hc : a.cls = none) (hr : w₀.Reaches w) :
    ∃ cls, w.native? host = some (.adapter { a with cls := cls }) ∧ w.IsKnown cls := by
  obtain ⟨cls, hn', -, hknown⟩ := (adheres_of_reaches hr).adapter host a hn
  refine ⟨cls, hn', hknown hw.registriesKnown fun c h => ?_⟩
  rw [hc] at h
  cases h

end World

/-! ## What a confirmation leaves -/

namespace Behaviour

variable {b : Behaviour κ} {depth : Nat}

/-- Asking a host is a run of its program, once the request is on record. -/
theorem askHost_of_adapter (b : Behaviour κ) (depth : Nat) (e : EngineId) (r : HostRequest)
    (hn : w.native? host = some (.adapter a)) :
    (b.machine (depth + 1)).askHost e host r w
      = (b.machine depth).run (a.answer host e r) []
          (w.record (.asked host (.host e r) w.postures)) :=
  b.request_of_native? depth (.host e r) hn

theorem perform_adapterClass (m : Machine κ) (hn : w.native? host = some (.adapter a)) :
    m.perform (.adapterClass host) w
      = .ok (w.adapterClass host a).1 (w.adapterClass host a).2 :=
  bind_eq_ok.2 ⟨some (.adapter a), w, congrArg (EStateM.Result.ok · w) hn, rfl⟩

/-- **A host that says it has a method remembers it**: its adapter has a class, and the
class remembers the name. -/
theorem exists_recalls?_of_hasMethod (hw : w.Reachable)
    (hn : w.native? host = some (.adapter a)) (hcls : w.IsKnown a.cls)
    (h : (b.machine depth).askHost e host (.hasMethod name) w = .ok true w') :
    ∃ c d, w'.native? host = some (.adapter { a with cls := some c })
      ∧ w'.recalls? c .method name = some d := by
  cases depth with
  | zero =>
    -- nobody is asked at depth zero
    obtain ⟨_, w₁, -, hask⟩ := bind_eq_ok.1 h
    cases hask
  | succ depth =>
    rw [askHost_of_adapter b depth e _ hn] at h
    generalize hwr : w.record _ = wr at h
    have hwr' : wr.Reachable := hwr ▸ hw.tail (.move (.recorded trivial))
    have hnr : wr.native? host = some (.adapter a) := hwr ▸ hn
    have hclsr : wr.IsKnown a.cls := hwr ▸ hcls
    change (b.machine depth).run ((fun ms : List Descriptor => !ms.isEmpty) <$>
      Adapter.methodsNamed host a e name) [] wr = _ at h
    rw [Machine.run_map, map_eq_pure_bind, bind_eq_ok] at h
    obtain ⟨ms, w₁, hms, hyes⟩ := h
    obtain ⟨hyes, rfl⟩ := pure_eq_ok.1 hyes
    obtain ⟨c, w₂, r, hclass, hlookup, rfl⟩ := exists_of_methodsNamed hms
    rw [perform_adapterClass _ hnr] at hclass
    obtain ⟨rfl, rfl⟩ := EStateM.Result.ok.inj hclass
    cases r with
    | none => cases hyes
    | some d =>
      -- the name was interned in a class that is there, so it is remembered from then on
      have hlt := World.index_adapterClass_lt hwr'.registriesKnown hclsr host
      have hclassed := ((b.roams depth).perform (.adapterClass host) hwr'.sound).reaches
      rw [after_of_ok (perform_adapterClass _ hnr)] at hclassed
      have hsound := hwr'.sound.reaches hclassed
      have hfound := (b.reaches_run depth
        (MemberKind.method.find (wr.adapterClass host a).1 e a.bound name) [] hsound).1
      rw [Machine.run_find, after_of_ok hlookup] at hfound
      exact ⟨_, d, World.native?_of_resolved hfound (World.native?_adapterClass hnr) rfl,
        Behaviour.recalls?_of_lookup hsound hlt hlookup⟩

end Behaviour

/-! ## After an invocation -/

/-- **What an adapter does with the outcome of an invocation**: the result is taken into
script, the shares of the arguments are dropped, and the result is no longer held; or a
failure is thrown. -/
def Adapter.concluding (a : Adapter) (e : EngineId) (name : String) (args : Nat)
    (outcome : Except NativeError NativeValue) : Program κ (Except EngineError Value) := do
  let r ← a.conclude e (.method name) outcome
  let r ← Program.dropping r args
  Adapter.unhold e r

theorem Adapter.asksNobody_concluding (a : Adapter) (e : EngineId) (name : String) (args : Nat)
    (outcome : Except NativeError NativeValue) :
    (a.concluding e name args outcome : Program κ _).AsksNobody := by
  have hconclude : (a.conclude e (.method name) outcome : Program κ _).AsksNobody := by
    cases outcome with
    | ok v => exact (Program.AsksNobody.toScriptValue e a.registry v).owningValue v
    | error err => exact trivial
  refine hconclude.bind fun r => (Program.AsksNobody.dropping r args).bind fun r => ?_
  cases r with
  | ok s => exact (Program.AsksNobody.op (o := .unroot s.root) trivial).bind fun _ => trivial
  | error err =>
    cases err with
    | engine err => exact trivial
    | invocation fault =>
      exact (Program.AsksNobody.op (o := .raise e .error fault.message) trivial).map
    | exception text => exact (Program.AsksNobody.op (o := .raise e .error text) trivial).map

/-! ## One call -/

namespace Behaviour

variable {b : Behaviour κ} {depth : Nat} {c : ClassId} {d : Descriptor}

/-- A name that the class of an adapter remembers is found without asking. -/
theorem eval_methodsNamed (m : Machine κ) (hn : w.native? host = some (.adapter a))
    (hc : a.cls = some c) (hd : w.recalls? c .method name = some d) (owned : List Local) :
    m.eval (Adapter.methodsNamed host a e name) owned w = .ok ([d], owned) w := by
  have hclass : m.perform (.adapterClass host) w = .ok c w := by
    rw [perform_adapterClass m hn, World.adapterClass_of_some hc]
  have hcached : m.perform (.cached c .method name) w = .ok (some d) w :=
    congrArg (EStateM.Result.ok · w) hd
  refine Machine.eval_bind_eq_ok.2 ⟨c, owned, w, Machine.eval_op_eq_ok.2 ⟨rfl, hclass⟩, ?_⟩
  refine Machine.eval_bind_eq_ok.2 ⟨some d, owned, w, ?_, rfl⟩
  exact Machine.eval_bind_eq_ok.2
    ⟨some d, owned, w, Machine.eval_op_eq_ok.2 ⟨rfl, hcached⟩, rfl⟩

/-- **The outcome of one invocation**: the bound object is asked, with the lock released,
and then what comes of it is concluded. -/
def invokedOnce (b : Behaviour κ) (depth : Nat) (e : EngineId) (a : Adapter) (name : String)
    (ns : List NativeValue) : Act κ (Except EngineError Value) :=
  (b.machine depth).orUnwind (NativeValue.shares ns)
    (Act.unlocked e ((b.machine depth).request a.bound (.bound (.invokeMethod name ns))))
    fun outcome => (b.machine depth).run
      (a.concluding e name (NativeValue.shares ns).length outcome) (NativeValue.shares ns)

/-- What is left of an invocation once its arguments are converted. -/
theorem run_invokeNamed {args : List Value} {ns : List NativeValue}
    (h : (b.machine depth).eval (Program.toNatives e a.registry args) [] w = .ok (ns, []) w') :
    (b.machine depth).run (a.invokeNamed e name args >>= Adapter.unhold e) [] w
      = b.invokedOnce depth e a name ns w' := by
  have hassoc : a.invokeNamed e name args >>= (Adapter.unhold e : _ → Program κ _)
      = Program.toNatives e a.registry args >>= fun ns =>
          (Program.owningAll ns ((Program.unlocked e
            (Program.op (.ask a.bound (.bound (.invokeMethod name ns))))).bind
              (a.conclude e (.method name)))).bind (Adapter.unhold e) :=
    Program.bind_assoc _ _ _
  rw [hassoc, Machine.run_bind_of_eval h, Machine.run_owningAll, Program.bind_assoc,
    ← Machine.runDiverted_self _ e, Machine.runDiverted_unlocked]
  simp only [Machine.runDiverted_self]
  rfl

/-- **A remembered method is invoked once**: the arguments are converted, and then the
bound object is asked. -/
theorem askHost_of_recalls? (hw : w.Reachable) (hn : w.native? host = some (.adapter a))
    (hc : a.cls = some c) (hd : w.recalls? c .method name = some d)
    (hl : (w.engine e).loan.allowsRead = true) (args : List Value) :
    ∃ ns w', (∀ m : Machine κ, m.run (Program.toNatives e a.registry args) []
          (w.record (.asked host (.host e (.invokeMethod name args)) w.postures)) = .ok ns w')
      ∧ args.Forall₂ (w'.StandsFor e a.registry) ns
      ∧ w'.journal
        = .asked host (.host e (.invokeMethod name args)) w.postures :: w.journal
      ∧ ∀ (b : Behaviour κ) (depth : Nat),
        (b.machine (depth + 1)).askHost e host (.invokeMethod name args) w
          = b.invokedOnce depth e a name ns w' := by
  obtain rfl := hw.name_of_recalls? hd
  generalize hwr : w.record (.asked host (.host e (.invokeMethod d.name args)) w.postures) = wr
  have hnr : wr.native? host = some (.adapter a) := hwr ▸ hn
  have hdr : wr.recalls? c .method d.name = some d := hwr ▸ hd
  have hlr : (wr.engine e).loan.allowsRead = true := hwr ▸ hl
  obtain ⟨ns, w', hconvert, hs, halike⟩ := Machine.exists_toNatives hlr a.registry args
  refine ⟨ns, w', fun m => Machine.run_eq_ok.2 ⟨[], w', hconvert m [], rfl⟩, hs, ?_,
    fun b depth => ?_⟩
  · rw [halike.journal, ← hwr]
    rfl
  rw [askHost_of_adapter b depth e _ hn, hwr]
  -- the name is found without asking, and it is the one method of that name
  show (b.machine depth).run (Adapter.methodsNamed host a e d.name >>= fun ms =>
    a.invokeMethod e ms args >>= Adapter.unhold e) [] wr = _
  rw [Machine.run_bind_of_eval (eval_methodsNamed _ hnr hc hdr [])]
  -- the shares of the arguments lie in the frame while the bound object is asked
  exact run_invokeNamed (hconvert _ [])

/-- **A call is one invocation of the bound object**: the arguments are converted, whatever
natives do, and nothing is on record by then but that the adapter was asked; and with the
lock held, the operands pinned and a share of the adapter owned, the call comes to what the
invocation comes to in the world that the conversions left. -/
def InvokesOnce (b : Behaviour κ) (depth : Nat) (e : EngineId) (host : NativeId) (a : Adapter)
    (name : String) (k : Handle) (this : Value) (args : List Value) (w : World κ) : Prop :=
  let entered := w.entered e host (.object k :: this :: args)
  let asked : Event := .asked host (.host e (.invokeMethod name args)) entered.postures
  ∃ ns w',
    (∀ m : Machine κ,
        m.run (Program.toNatives e a.registry args) [] (entered.record asked) = .ok ns w')
      ∧ args.Forall₂ (w'.StandsFor e a.registry) ns
      ∧ w'.journal = asked :: w.journal
      ∧ ((b.machine (depth + 1)).call e (.object k) this args).run w
        = Act.locked e (Act.pinning e (.object k :: this :: args)
            ((b.machine (depth + 1)).sharing host fun _ =>
              b.invokedOnce depth e a name ns w')) w

/-- **Calling a method of a remembered name invokes the bound object once.** -/
theorem invokesOnce_of_recalls? (b : Behaviour κ) (depth : Nat) (hw : w.Reachable)
    (hn : w.native? host = some (.adapter a)) (hc : a.cls = some c)
    (hd : w.recalls? c .method name = some d) (hl : (w.engine e).loan.allowsRead = true)
    {k t : Handle} {expandos : Properties Value}
    (hk : (w.engine e).heap.get? k = some (.hostMethod t name))
    (ht : (w.engine e).heap.get? t = some (.host host expandos)) (this : Value)
    (args : List Value) : b.InvokesOnce depth e host a name k this args w := by
  have hentered := hw.trans (Machine.reaches_entered w e host (.object k :: this :: args))
  have hnative : (w.entered e host (.object k :: this :: args)).native? host
      = some (.adapter a) := (World.native?_modifyOwners _ _ _ _).trans hn
  have hloan : ((w.entered e host (.object k :: this :: args)).engine e).loan.allowsRead
      = true := by
    rw [World.entered, World.push, World.engine_modifyEngine_self, World.engine_modifyOwners,
      World.engine_modifyEngine_self]
    exact hl
  obtain ⟨ns, w', hconvert, hs, hjournal, hasked⟩ :=
    askHost_of_recalls? hentered hnative hc hd hloan args
  refine ⟨ns, w', hconvert, hs, hjournal, ?_⟩
  rw [Machine.call_hostMethod hk ht, if_pos hl]
  exact locked_congr (pinning_congr (ensuring_congr (hasked b depth)))

end Behaviour

/-! ## Every call -/

/-- **A method that was read off a wrapper stays callable.** Programs come to worlds only,
and run natives in worlds only, that steps lead to; so each of these may be a world in
which the method is called. Let an adapter have begun without a class, and let a read have
found a method of the name `name` of it. Wherever that host method is found again, whatever
became of the registry and whatever the bound object says by then, the adapter has the
class that it had, and a call of the host method invokes the bound object once, by `name`
and with the arguments in order; it does not come to that only where the heap is lent to a
writer and nobody can read it. What an adapter does with the outcome of an invocation is
the same however natives answer, so it asks nobody. And a class that an adapter has looked
up is the class that it has from then on. -/
theorem Behaviour.methods_stay_callable (b : Behaviour κ) (depth : Nat) :
    (∀ w : World κ, w.Reachable → ∀ (α : Type) (p : Program κ α) (owned : List Local),
        w.Reaches (((b.machine depth).run p owned).after w)
          ∧ ∀ m', (b.machine depth).Agrees m' (fun w₁ w₂ => w.Reaches w₁ ∧ w.Reaches w₂)
                (fun w₁ w₂ => w.Reaches w₁ ∧ w.Reaches w₂) →
              m'.run p owned w = (b.machine depth).run p owned w)
      ∧ (∀ w₀ w w₁ w₂ w' : World κ, w₀.Reachable → w₀.Reaches w →
        ∀ (e : EngineId) (t : Handle) (birth : Nat) (host : NativeId) (a : Adapter)
          (name : String) (v : Value),
        w₀.native? host = some (.adapter a) → a.cls = none →
        w.identity? e t = some ⟨birth, .host host .empty⟩ →
        (b.machine depth).askHost e host (.getProperty name) (w.entered e host [.object t])
          = .ok (.ok none) w₁ →
        (b.machine depth).askHost e host (.hasMethod name) w₁ = .ok true w₂ →
        ((b.machine depth).get e (.object t) name).run w = .ok (.ok v) w' →
        ∃ (k : Handle) (method : Identity) (w₃ : World κ) (c : ClassId), v = .object k
          ∧ method = ⟨(w₂.engine e).heap.births, .hostMethod t name⟩
          ∧ w₃.identity? e k = some method ∧ w₃.Reaches w'
          ∧ ∀ w'', w₃.Reaches w'' → w''.identity? e k = some method →
              w''.native? host = some (.adapter { a with cls := some c })
                ∧ ∀ (depth' : Nat) (this : Value) (args : List Value),
                  if (w''.engine e).loan.allowsRead then
                    b.InvokesOnce depth' e host { a with cls := some c } name k this args w''
                  else
                    ((b.machine (depth' + 1)).call e (.object k) this args).run w''
                      = Act.locked e
                          (Act.pinning e (.object k :: this :: args) (Act.panic .heapLent)) w'')
      ∧ (∀ (m m' : Machine κ), m'.finalise = m.finalise →
        ∀ (a : Adapter) (e : EngineId) (name : String) (shares : Nat)
          (outcome : Except NativeError NativeValue) (owned : List Local),
          m'.run (a.concluding e name shares outcome) owned
            = m.run (a.concluding e name shares outcome) owned)
      ∧ ∀ (w w' : World κ) (host : NativeId) (a : Adapter) (c : ClassId), w.Reaches w' →
        w.native? host = some (.adapter a) → a.cls = some c →
          w'.native? host = some (.adapter a) := by
  have hm := b.roams depth
  refine ⟨fun w hw α p owned => b.reaches_run depth p owned hw.sound, ?_,
    fun m m' hf a e name shares outcome owned =>
      Machine.run_of_asksNobody hf (a.asksNobody_concluding e name shares outcome) owned,
    fun w w' host a c hr hn hc => World.native?_of_resolved hr hn hc⟩
  intro w₀ w w₁ w₂ w' hw₀ hr₀ e t birth host a name v hn hc hi hproperty hmethod hget
  have hw : w.Reachable := hw₀.trans hr₀
  obtain ⟨k, w₃, hv, -, hk, ht, hasked, hplaced, hleft⟩ :=
    Machine.exists_method_placed hm hw.sound hi hproperty hmethod hget
  -- the host said that it has the method, so its class remembers the name from then on
  have hentered : w.Reaches (w.entered e host [.object t]) := Machine.reaches_entered _ _ _ _
  have hr₁ : w.Reaches w₁ := by
    have h := (hm.request host (.host e (.getProperty name)) (hw.sound.reaches hentered)).reaches
    exact hentered.trans (after_of_ok hproperty ▸ h)
  obtain ⟨cls, hn₁, hknown⟩ := World.exists_adapter_of_reaches hw₀ hn hc (hr₀.trans hr₁)
  obtain ⟨c, d, hn₂, hd⟩ :=
    Behaviour.exists_recalls?_of_hasMethod (hw.trans hr₁) hn₁ hknown hmethod
  refine ⟨k, _, w₃, c, hv, rfl, hk, hleft, fun w'' hr hk'' => ?_⟩
  have hn'' := World.native?_of_resolved (hplaced.trans hr) hn₂ rfl
  have hd'' := World.recalls?_of_reaches (hplaced.trans hr) hd
  have hw₃ : w₃.Reachable := hw.trans (hasked.trans hplaced)
  -- the wrapper is still the one that the method was read off
  have ht'' : w''.identity? e t = some ⟨birth, .host host .empty⟩ := by
    rw [World.identity?_wrapper hw₃.sound hr hk hk'', ht]
  obtain ⟨expandos, hg⟩ := Heap.get?_of_host ht''
  refine ⟨hn'', fun depth' this args => ?_⟩
  split
  · next hl =>
    exact b.invokesOnce_of_recalls? depth' (hw₃.trans hr) hn'' rfl hd'' hl
      (Heap.get?_of_hostMethod hk'') hg this args
  · next hl =>
    rw [Machine.call_hostMethod (Heap.get?_of_hostMethod hk'') hg, if_neg hl]

/-- The adapter of a name. -/
def World.adapter? (w : World κ) (id : NativeId) : Option Adapter :=
  match w.native? id with
  | some (.adapter a) => some a
  | _ => none

theorem World.native?_of_adapter? (h : w.adapter? host = some a) :
    w.native? host = some (.adapter a) := by
  unfold World.adapter? at h
  split at h
  · next a' hn => rw [hn, Option.some.inj h]
  · cases h

/-- Bound objects that have every method the first time that they are asked, and none
later. -/
def Behaviour.fickle : Behaviour Bool where
  answer id fresh
    | .bound (.hasMethod _) => (Program.op (.become id false)).bind fun _ => .done fresh
    | .bound (.hasProperty _) => .done false
    | .bound (.invokeMethod _ _) => .done (.ok .void)
    | _ => .panic .noAnswer
  finaliser _ := .done ()

/-- The world in which such an object is exposed. -/
def World.offered : World Bool :=
  ((Behaviour.fickle.machine 3).run (do
    let bound ← Program.op (.spawn (.custom true))
    let registry ← Program.op (.newRegistry 1)
    Program.expose ⟨0⟩ registry bound) []).after {}

/-- The world in which a method was read off its wrapper, and then the registry was
finalized and the heap collected. -/
def World.disowned : World Bool :=
  ((Behaviour.fickle.machine 3).run (do
    let _ ← Program.op (.root ⟨0⟩ (.object ⟨1, 0⟩))
    Program.op (.finalizeRegistry ⟨0⟩)
    Program.op (.collect ⟨0⟩)) []).after
      (((Behaviour.fickle.machine 3).get ⟨0⟩ (.object ⟨0, 0⟩) "f").run.after World.offered)

/-- The object denies its method by then, and no registry knows its class. The method is
invoked all the same. -/
theorem Behaviour.methods_stay_callable_disowned :
    (World.disowned.registry ⟨0⟩).size = 0
      ∧ ((fickle.machine 3).request ⟨0⟩ (.bound (.hasMethod "f"))).finishes World.disowned
          (fun confirmed _ => !confirmed) = true
      ∧ ∃ c, fickle.InvokesOnce 2 ⟨0⟩ ⟨1⟩ ⟨⟨0⟩, ⟨0⟩, some c⟩ "f" ⟨1, 0⟩ .undefined
          [.bool true, .object ⟨0, 0⟩] World.disowned := by
  obtain ⟨hreach, hread, -, -⟩ := fickle.methods_stay_callable 3
  refine ⟨by decide +kernel, by decide +kernel, ?_⟩
  have hoffered : World.offered.Reachable := (hreach {} .refl _ _ _).1
  have hasks : (do
        let r ← (fickle.machine 3).askHost ⟨0⟩ ⟨1⟩ (.getProperty "f")
        let q ← (fickle.machine 3).askHost ⟨0⟩ ⟨1⟩ (.hasMethod "f")
        pure (r, q)).finishes (World.offered.entered ⟨0⟩ ⟨1⟩ [.object ⟨0, 0⟩])
      (fun answers w => answers.1.toOption = some none && answers.2
        && (w.engine ⟨0⟩).heap.births = 1) = true := by decide +kernel
  obtain ⟨answers, w₂, heq, htest⟩ := Act.exists_of_finishes hasks
  obtain ⟨r, w₁, hr, heq⟩ := Act.bind_eq_ok.1 heq
  obtain ⟨q, w₂', hq, heq⟩ := Act.bind_eq_ok.1 heq
  obtain ⟨rfl, rfl⟩ := Act.pure_eq_ok.1 heq
  obtain ⟨hanswers, hbirths⟩ := (Bool.and_eq_true _ _).mp htest
  obtain ⟨hnone, rfl⟩ := (Bool.and_eq_true _ _).mp hanswers
  obtain rfl : r = .ok none := by cases r <;> simp_all [Except.toOption]
  have hget : ((fickle.machine 3).get ⟨0⟩ (.object ⟨0, 0⟩) "f").run.finishes World.offered
      (fun r _ => r.toOption = some (.object ⟨1, 0⟩)) = true := by decide +kernel
  obtain ⟨v, w', hv, hmethod⟩ := Act.exists_of_finishes hget
  obtain rfl : v = .ok (.object ⟨1, 0⟩) := by cases v <;> simp_all [Except.toOption]
  obtain ⟨k, method, w₃, c, hk, rfl, -, hleft, hcalls⟩ :=
    hread _ _ _ _ _ hoffered .refl ⟨0⟩ ⟨0, 0⟩ 0 ⟨1⟩ ⟨⟨0⟩, ⟨0⟩, none⟩ "f" _
      (World.native?_of_adapter? (by decide +kernel)) rfl (by decide +kernel) hr hq hv
  obtain rfl := Value.object.inj hk
  have hrun : (fickle.machine 3).run (Program.op (.get ⟨0⟩ (.object ⟨0, 0⟩) "f")) []
      World.offered = .ok (.ok (.object ⟨1, 0⟩)) w' :=
    Machine.run_eq_ok.2 ⟨[], w', Machine.eval_op_eq_ok.2 ⟨rfl, hv⟩, rfl⟩
  have hw' : w'.Reachable :=
    hoffered.trans (Act.after_of_ok hrun ▸ (hreach World.offered hoffered _ _ _).1)
  have hlater : w'.Reaches World.disowned := by
    unfold World.disowned
    rw [Act.after_of_ok hv]
    exact (hreach w' hw' _ _ _).1
  obtain ⟨-, hcall⟩ := hcalls World.disowned (hleft.trans hlater)
    (by rw [of_decide_eq_true hbirths]; decide +kernel)
  refine ⟨c, ?_⟩
  have hinvokes := hcall 2 .undefined [.bool true, .object ⟨0, 0⟩]
  rwa [if_pos (by decide +kernel)] at hinvokes

end EmbeddedScript
