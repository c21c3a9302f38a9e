import EmbeddedScript.Proofs.Bridge.Orderly

/-!
# Exclusivity across callbacks

Natives call the engine, and the engine and the bridge call natives, to any depth. Every
operation leaves the depth of an engine's lock as it found it, however it ends, provided
that natives drop the guards that they take. What a bound object does to the lock while an
adapter has released it does not matter, and it finds the lock released, however deep the
stack is.
-/

namespace EmbeddedScript

open Act

variable {κ α : Type} {e : EngineId}

/-- **The operations of the bridge**; those of adapters are on behalf of an engine. -/
inductive Program.OfBridge (e : EngineId) : {α : Type} → Program κ α → Prop
  /-- A value out of script. -/
  | toNative (e' : EngineId) (registry : RegistryId) (v : Value) :
      OfBridge e (toNative e' registry v)
  /-- Several values out of script. -/
  | toNatives (e' : EngineId) (registry : RegistryId) (vs : List Value) :
      OfBridge e (toNatives e' registry vs)
  /-- A bound object into script. -/
  | expose (e' : EngineId) (registry : RegistryId) (bound : NativeId) :
      OfBridge e (expose e' registry bound)
  /-- A native value into script. -/
  | toScript (e' : EngineId) (registry : RegistryId) (v : NativeValue) :
      OfBridge e (toScript e' registry v)
  /-- Several native values into script. -/
  | toScripts (e' : EngineId) (registry : RegistryId) (vs : List NativeValue) :
      OfBridge e (toScripts e' registry vs)
  /-- A native value into script, and held. -/
  | toScriptValue (e' : EngineId) (registry : RegistryId) (v : NativeValue) :
      OfBridge e (toScriptValue e' registry v)
  /-- Hold a value. -/
  | adopt (e' : EngineId) (v : Value) : OfBridge e (ScriptValue.adopt e' v)
  /-- Stop holding. -/
  | release (s : ScriptValue) : OfBridge e s.release
  /-- Hold the same value once more. -/
  | clone (s : ScriptValue) : OfBridge e s.clone
  /-- Hold another value instead. -/
  | replace (s : ScriptValue) (v : Value) : OfBridge e (s.replace v)
  /-- Become a view of another script value. -/
  | assign (s other : ScriptValue) : OfBridge e (s.assign other)
  /-- The type of the held value. -/
  | type (s : ScriptValue) : OfBridge e s.type
  /-- Whether the held value can be called. -/
  | isFunction (s : ScriptValue) : OfBridge e s.isFunction
  /-- The diagnostic text. -/
  | diagnostic (s : ScriptValue) : OfBridge e s.diagnostic
  /-- The number held. -/
  | number (s : ScriptValue) : OfBridge e s.number
  /-- The boolean held. -/
  | bool (s : ScriptValue) : OfBridge e s.bool
  /-- The string held. -/
  | string (s : ScriptValue) : OfBridge e s.string
  /-- Hold a new array. -/
  | setArrayType (s : ScriptValue) (length : Nat) : OfBridge e (s.setArrayType length)
  /-- Store an element. -/
  | setArrayValue (s : ScriptValue) (i : Nat) (v : Value) : OfBridge e (s.setArrayValue i v)
  /-- Store elements. -/
  | setArrayValues (s : ScriptValue) (i : Nat) (vs : List Value) :
      OfBridge e (s.setArrayValues i vs)
  /-- Append an element. -/
  | push (s : ScriptValue) (v : Value) : OfBridge e (s.push v)
  /-- Remove the last element. -/
  | pop (s : ScriptValue) : OfBridge e s.pop
  /-- Hold an element. -/
  | arrayValue (s : ScriptValue) (i : Nat) : OfBridge e (s.arrayValue i)
  /-- The length of the array. -/
  | arrayLength (s : ScriptValue) : OfBridge e s.arrayLength
  /-- Hold a new object. -/
  | setObjectType (s : ScriptValue) : OfBridge e s.setObjectType
  /-- Store a property. -/
  | setProperty (s : ScriptValue) (name : String) (v : Value) : OfBridge e (s.setProperty name v)
  /-- Hold the value of a property. -/
  | property (s : ScriptValue) (name : String) : OfBridge e (s.property name)
  /-- Start an iteration. -/
  | first (s : ScriptValue) : OfBridge e s.first
  /-- Call the held function. -/
  | call (s : ScriptValue) (args : List Value) : OfBridge e (s.call args)
  /-- Read the value under a cursor. -/
  | cursorValue (c : Cursor) (name : String) : OfBridge e (c.value name)
  /-- Write the value under a cursor. -/
  | cursorSetValue (c : Cursor) (name : String) (v : Value) : OfBridge e (c.setValue name v)
  /-- Find a member of a bound object. -/
  | find (kind : MemberKind) (cls : ClassId) (bound : NativeId) (name : String) :
      OfBridge e (kind.find cls e bound name)
  /-- The methods of a name. -/
  | methodsNamed (self : NativeId) (a : Adapter) (name : String) :
      OfBridge e (Adapter.methodsNamed self a e name)
  /-- The field of a name. -/
  | fieldNamed (self : NativeId) (a : Adapter) (name : String) :
      OfBridge e (Adapter.fieldNamed self a e name)
  /-- Read a field. -/
  | fieldValue (a : Adapter) (d : Descriptor) : OfBridge e (a.fieldValue e d)
  /-- Write a field. -/
  | setFieldValue (a : Adapter) (d : Descriptor) (v : Value) :
      OfBridge e (a.setFieldValue e d v)
  /-- Call a bound object. -/
  | invoke (a : Adapter) (args : List Value) : OfBridge e (a.invoke e args)
  /-- Invoke a member by its name. -/
  | invokeNamed (a : Adapter) (name : String) (args : List Value) :
      OfBridge e (a.invokeNamed e name args)
  /-- Invoke the one method among some. -/
  | invokeMethod (a : Adapter) (methods : List Descriptor) (args : List Value) :
      OfBridge e (a.invokeMethod e methods args)
  /-- Read a property of a bound object. -/
  | getProperty (self : NativeId) (a : Adapter) (name : String) :
      OfBridge e (Adapter.getProperty self a e name)
  /-- Write a property of a bound object. -/
  | setMember (self : NativeId) (a : Adapter) (name : String) (v : Value) :
      OfBridge e (Adapter.setProperty self a e name v)
  /-- The property names of a bound object. -/
  | propertyNames (a : Adapter) : OfBridge e (a.propertyNames e)
  /-- The primitive form of a bound object. -/
  | toPrimitive (a : Adapter) (hint : Hint) : OfBridge e (a.toPrimitive hint)
  /-- An adapter answers as a host. -/
  | adapter (self : NativeId) (a : Adapter) (r : HostRequest) : OfBridge e (a.answer self e r)
  /-- The property names of a value that a proxy stands for. -/
  | proxyNames (p : Proxy) : OfBridge e p.names
  /-- Call a function with the value that a proxy stands for. -/
  | callWith (p : Proxy) (callee : Value) (args : List NativeValue) :
      OfBridge e (p.callWith callee args)
  /-- A proxy answers as a bound object. -/
  | proxy (p : Proxy) (r : BoundRequest) : OfBridge e (p.answer r)
  /-- Make a bridge. -/
  | init (e' : EngineId) (capacity : Nat) : OfBridge e (Bridge.init e' capacity)
  /-- A new script value. -/
  | value (b : Bridge) : OfBridge e b.value
  /-- Expose a bound object, and hold its wrapper. -/
  | exposeHeld (b : Bridge) (bound : NativeId) : OfBridge e (b.expose bound)
  /-- Tear a bridge down. -/
  | shutdown (b : Bridge) : OfBridge e b.shutdown

/-- **Every operation of the bridge drops the guards that it takes.** On behalf of another
engine it may make requests without releasing this engine's lock. -/
theorem Program.OfBridge.contained {p : Program κ α} {e' : EngineId} {bare : Prop}
    (hp : p.OfBridge e') (he : e' ≠ e → bare) : p.Contained e bare := by
  cases hp with
  | toNative e'' registry v => exact .toNative e'' registry v
  | toNatives e'' registry vs => exact .toNatives e'' registry vs
  | expose e'' registry bound => exact .expose e'' registry bound
  | toScript e'' registry v => exact .toScript e'' registry v
  | toScripts e'' registry vs => exact .toScripts e'' registry vs
  | toScriptValue e'' registry v => exact .toScriptValue e'' registry v
  | adopt e'' v => exact .adopt e'' v
  | release s => exact .op trivial
  | clone s => exact .adopt _ _
  | replace s v => exact .replace s v
  | assign s other => exact .replace s _
  | type s => exact .type s
  | isFunction s => exact .isFunction s
  | diagnostic s => exact (Contained.type s).bind fun _ => .pure _
  | number s => exact .number s
  | bool s => exact .bool s
  | string s => exact .string s
  | setArrayType s length => exact .setArrayType s length
  | setArrayValue s i v => exact .setArrayValue s i v
  | setArrayValues s i vs => exact .setArrayValues s i vs
  | push s v => exact .withArray s (.op trivial)
  | pop s => exact .pop s
  | arrayValue s i => exact .arrayValue s i
  | arrayLength s => exact .withArray s (.op trivial)
  | setObjectType s => exact .setObjectType s
  | setProperty s name v => exact .withObject s (.op trivial)
  | property s name => exact .property s name
  | first s => exact .first s
  | call s args => exact .call s args
  | cursorValue c name => exact .cursorValue c name
  | cursorSetValue c name v => exact .op trivial
  | find kind cls bound name => exact .find kind cls e' bound name
  | methodsNamed self a name => exact .methodsNamed self a e' name
  | fieldNamed self a name => exact .fieldNamed self a e' name
  | fieldValue a d => exact .fieldValue a e' d
  | setFieldValue a d v => exact .setFieldValue a e' d v
  | invoke a args => exact .invoke he a args
  | invokeNamed a name args => exact .invokeNamed he a name args
  | invokeMethod a methods args => exact .invokeMethod he a methods args
  | getProperty self a name => exact .getProperty self a e' name
  | setMember self a name v => exact .setProperty self a e' name v
  | propertyNames a => exact .propertyNames he a
  | toPrimitive a hint => exact .toPrimitive a hint
  | adapter self a r => exact .adapterAnswer he self a r
  | proxyNames p => exact .proxyNames p
  | callWith p callee args => exact .callWith p callee args
  | proxy p r => exact .proxyAnswer p r
  | init e'' capacity => exact (Contained.makeRegistry capacity).bind fun _ => .pure _
  | value b => exact .adopt _ _
  | exposeHeld b bound => exact (Contained.expose _ _ bound).bind fun r => .adoptResult _ r
  | shutdown b => exact .op trivial

namespace Behaviour

variable {b : Behaviour κ}

/-- What answers a request is orderly, if the embedder's natives are. -/
theorem Orderly.program (hb : b.Orderly e) (id : NativeId) (n : Native κ) (r : Request) :
    (b.program id n r).Orderly e True [] := by
  unfold Behaviour.program
  split
  · exact hb.answer _ _ _
  · exact (Program.Contained.adapterAnswer (fun _ => trivial) _ _ _).orderly []
  · exact (Program.Contained.proxyAnswer _ _).orderly []
  · exact .panic _

theorem Orderly.finalProgram (hb : b.Orderly e) (n : Native κ) :
    (b.finalProgram n).Orderly e True [] := by
  cases n with
  | custom state => exact hb.finaliser state
  | adapter a => exact .perform trivial fun _ => .done _
  | proxy p => exact .perform trivial fun _ => .done _

/-- **Orderly natives leave the lock as they found it**, however deeply they are nested and
whatever others do in their windows. -/
theorem Orderly.tracks (hb : b.Orderly e) (c : Behaviour κ) (depth : Nat) :
    Machine.Tracks (.watching e) (b.diverted c e depth) (b.diverted c e depth) := by
  induction depth with
  | zero => exact ⟨fun _ _ _ _ => .throw _, fun _ _ => .throw _⟩
  | succ depth ih =>
    have hrun : ∀ {α : Type} {p : Program κ α}, p.Orderly e True [] → ∀ w,
        Act.Tracks (.watching e) ((b.diverted c e depth).runDiverted (c.machine depth) e p [])
          ((b.diverted c e depth).runDiverted (c.machine depth) e p []) w :=
      fun hp _ => (Machine.relocks_runDiverted ih (c.roams depth) hp rfl).tracks
    refine ⟨fun id r w _ => ?_, fun n w => hrun (hb.finalProgram n) w⟩
    refine (Act.Abides.view _).bind fun n w' _ _ _ => ?_
    cases n with
    | some n => exact hrun (hb.program id n r) w'
    | none => exact .panic _

theorem Orderly.roams (hb : b.Orderly e) (c : Behaviour κ) (depth : Nat) :
    (b.diverted c e depth).Roams :=
  (hb.tracks c depth).roams id trivial

end Behaviour

/-! ## The discipline -/

/-- **The lock is as an operation found it**, at whatever depth that was. Outside the windows
of an engine natives do what one embedder's do, which drop the guards that they take; in its
windows they do what another's do, which is anything.

Then every operation of the engine and of the bridge leaves the lock as it found it, however
it ends, and so does any other orderly program. The windowed requests that an adapter makes
for the engine begin with no level taken: how natives answer them elsewhere makes no
difference, and neither does what they leave of the lock. What follows such a request begins
with exactly the lock that there was before it. -/
theorem Behaviour.lock_discipline (b c : Behaviour κ) (e : EngineId) (hb : b.Orderly e)
    (depth : Nat) :
    (∀ (o : Op κ) (w : World κ), w.Reachable → o ≠ .lock e → o ≠ .releaseLock e →
        ((((b.diverted c e depth).perform o).after w).engine e).lock = (w.engine e).lock)
      ∧ (∀ (α : Type) (p : Program κ α) (w : World κ), w.Reachable →
        (∃ e', p.OfBridge e') ∨ p.Orderly e True [] →
        ((((b.diverted c e depth).runDiverted (c.machine depth) e p []).after w).engine e).lock
          = (w.engine e).lock)
      ∧ (∀ m m' inner inner' : Machine κ, m.Roams → m.AgreesReleased e m' → inner.Roams →
        inner.AgreesReleased e inner' → ∀ (α : Type) (p : Program κ α), p.OfBridge e →
        ∀ (owned : List Local) (w : World κ), w.Reachable →
        m'.runDiverted inner' e p owned w = m.runDiverted inner e p owned w)
      ∧ (∀ (m inner : Machine κ) (id : NativeId) (r : Request) (α : Type)
        (next : r.Reply → Program κ α) (owned : List Local) (w : World κ),
        m.runDiverted inner e ((Program.unlocked e (Program.op (.ask id r))).bind next) owned w
          = m.orUnwind owned
              (Act.within (·.relock e Lock.dropAll) (·.relock e fun _ => (w.engine e).lock)
                (inner.request id r))
              (fun x => m.runDiverted inner e (next x) owned) w)
      ∧ (b.diverted c e depth).Roams ∧ (c.machine depth).Roams
      ∧ b.diverted b e depth = b.machine depth
      ∧ ∀ (m : Machine κ) (α : Type) (p : Program κ α) (owned : List Local),
        m.runDiverted m e p owned = m.run p owned := by
  have htracks := hb.tracks c depth
  have horderly : ∀ (α : Type) (p : Program κ α) (w : World κ), w.Reachable →
      p.Orderly e True [] →
      ((((b.diverted c e depth).runDiverted (c.machine depth) e p []).after w).engine e).lock
        = (w.engine e).lock := fun α p w hw hp =>
    (Machine.relocks_runDiverted htracks (c.roams depth) hp rfl hw.sound).2
  refine ⟨fun o w hw hl hr => ?_, fun α p w hw hp => ?_, ?_, ?_, hb.roams c depth,
    c.roams depth, b.diverted_self e depth, fun m α p owned => m.runDiverted_self e p owned⟩
  · exact (htracks.perform o (Terrain.allows_watching (o.keeps_of_ne hl hr)) hw.sound).2.2 e rfl
  · rcases hp with ⟨e', hp⟩ | hp
    · exact horderly α p w hw ((hp.contained fun _ => trivial).orderly [])
    · exact horderly α p w hw hp
  · intro m m' inner inner' hm ha hin hi α p hp owned w hw
    have hcontained : p.Contained e False := hp.contained fun h => h rfl
    exact (ha.runDiverted hm hi hin (hcontained.orderly owned) hw.sound).1
  · intro m inner id r α next owned w
    exact congrFun (m.runDiverted_unlocked inner id r next owned) w

/-- Natives that can be called. -/
def Behaviour.callable : Behaviour Unit where
  answer _ _
    | .bound .isFunction => .done true
    | _ => .panic .noAnswer
  finaliser _ := .done ()

/-- Natives that take two levels of a lock when they are called, and never give them back. -/
def Behaviour.careless : Behaviour Unit where
  answer _ _
    | .bound (.invoke _) =>
      .perform (.lock ⟨0⟩) fun _ => .perform (.lock ⟨0⟩) fun _ => .done (.ok .void)
    | _ => .panic .noAnswer
  finaliser _ := .done ()

/-- The world in which a native was exposed, and a level of the lock is taken. -/
def World.lockedOnce : World Unit :=
  ((Behaviour.callable.machine 2).run (do
    let bound ← Program.op (.spawn (.custom ()))
    let _ ← Program.toScript ⟨0⟩ ⟨0⟩ (.object bound)
    Program.op (.lock ⟨0⟩)) []).after {}

/-- A wrapper is called with one level taken, and one level is taken afterwards. The native
behind it took two more in its window. -/
theorem Behaviour.lock_discipline_lockedOnce :
    (World.lockedOnce.engine ⟨0⟩).lock = ⟨1⟩
      ∧ ((((careless.machine 2).ask ⟨0⟩ (.bound (.invoke []))).after
          World.lockedOnce).engine ⟨0⟩).lock = ⟨3⟩
      ∧ ∃ w, (callable.diverted careless ⟨0⟩ 3).perform
          (.call ⟨0⟩ (.object ⟨0, 0⟩) .undefined []) World.lockedOnce = .ok (.ok .undefined) w
        ∧ (w.engine ⟨0⟩).lock = ⟨1⟩ := by
  have hw : World.lockedOnce.Reachable := (callable.reachable_run 2 _ [] .refl).1
  have hb : callable.Orderly ⟨0⟩ := by
    refine ⟨fun id state r => ?_, fun state => .done ()⟩
    simp only [callable]
    split
    · exact .done true
    · exact .panic .noAnswer
  have hheld : (World.lockedOnce.engine ⟨0⟩).lock = ⟨1⟩ := by decide +kernel
  have htest : ((callable.diverted careless ⟨0⟩ 3).perform
      (.call ⟨0⟩ (.object ⟨0, 0⟩) .undefined [])).finishes World.lockedOnce
        (fun r _ => r.toOption = some .undefined) = true := by decide +kernel
  obtain ⟨r, w, hcall, hr⟩ := Act.exists_of_finishes htest
  obtain rfl : r = .ok .undefined := by
    cases r with
    | ok v => exact congrArg Except.ok (Option.some.inj (of_decide_eq_true hr))
    | error err => cases of_decide_eq_true hr
  refine ⟨hheld, by decide +kernel, w, hcall, ?_⟩
  obtain ⟨hops, -⟩ := callable.lock_discipline careless ⟨0⟩ hb 3
  have hlock := hops (.call ⟨0⟩ (.object ⟨0, 0⟩) .undefined []) World.lockedOnce hw nofun nofun
  rw [after_of_ok hcall] at hlock
  exact hlock.trans hheld

end EmbeddedScript
