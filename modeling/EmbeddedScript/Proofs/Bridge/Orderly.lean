import EmbeddedScript.Bridge.Context
import EmbeddedScript.Proofs.Machine.Discipline

/-!
# The bridge keeps the lock in order

Whatever the bridge does is a program, and every program of the bridge drops the guards
that it takes, innermost first, before it goes on (`Program.Contained`). An adapter makes
three kinds of request with the lock of its engine released. It takes no lock of another
engine, so for that engine these requests are bare ones: they are made at any depth.
-/

namespace EmbeddedScript

variable {κ α β : Type} {e : EngineId} {bare : Prop}

namespace Program

/-! ## Sequences -/

@[simp] theorem bind_done (p : Program κ α) : p.bind done = p := by
  induction p with
  | done a => rfl
  | panic reason => rfl
  | perform op next ih => exact congrArg (perform op) (funext ih)
  | hold l next ih => exact congrArg (hold l) ih
  | drop next ih => exact congrArg drop ih
  | forget next ih => exact congrArg forget ih

theorem bind_assoc {γ : Type} (p : Program κ α) (f : α → Program κ β) (g : β → Program κ γ) :
    (p.bind f).bind g = p.bind fun a => (f a).bind g := by
  induction p with
  | done a => rfl
  | panic reason => rfl
  | perform op next ih => exact congrArg (perform op) (funext ih)
  | hold l next ih => exact congrArg (hold l) ih
  | drop next ih => exact congrArg drop ih
  | forget next ih => exact congrArg forget ih

/-- **The program drops the guards that it takes before it goes on**: what goes on in the
frame that it was run in goes on in an orderly way after it. -/
def Contained (e : EngineId) (bare : Prop) (p : Program κ α) : Prop :=
  ∀ (β : Type) (f : α → Program κ β) (owned : List Local),
    (∀ a, (f a).Orderly e bare owned) → (p.bind f).Orderly e bare owned

namespace Contained

variable {p : Program κ α} {f : α → Program κ β}

/-- It is orderly, whatever its frame owns. -/
theorem orderly (hp : Contained e bare p) (owned : List Local) : p.Orderly e bare owned :=
  p.bind_done ▸ hp α done owned fun a => .done a

theorem pure (a : α) : Contained e bare (Pure.pure a : Program κ α) := fun _ _ _ hf => hf a

theorem panic (reason : Panic) : Contained e bare (.panic reason : Program κ α) :=
  fun _ _ _ _ => .panic reason

/-- A single operation. -/
theorem op {o : Op κ} (ho : o.Keeps e bare) : Contained e bare (Program.op o) :=
  fun _ _ _ hf => .perform ho hf

/-- **One piece after another.** -/
theorem bind (hp : Contained e bare p) (hf : ∀ a, Contained e bare (f a)) :
    Contained e bare (p >>= f) := by
  intro γ g owned hg
  show ((p.bind f).bind g).Orderly e bare owned
  rw [bind_assoc]
  exact hp γ _ owned fun a => hf a γ g owned hg

theorem map {g : α → β} (hp : Contained e bare p) : Contained e bare (g <$> p) :=
  hp.bind fun a => .pure (g a)

/-- What a frame owns is dropped after a program in it. -/
theorem dropping (l : Local) (hp : Contained e bare p) {γ : Type} {g : α → Program κ γ}
    {owned : List Local} (hg : ∀ a, (g a).Orderly e bare owned) :
    ((p.bind fun a => drop (done a)).bind g).Orderly e bare (l :: owned) := by
  rw [bind_assoc]
  exact hp γ _ _ fun a => .drop (hg a)

/-- **Something is owned for the length of a program**, and is no guard. -/
theorem owning {l : Local} (hl : ¬ l.Guards e) (hp : Contained e bare p) :
    Contained e bare (Program.owning l p) :=
  fun _ _ _ hg => .hold hl (hp.dropping l hg)

/-- Several things are owned by what comes next, the first of them innermost. -/
theorem orderly_foldl_hold {γ : Type} {g : α → Program κ γ} {owned : List Local}
    {ls : List Local} (hls : ∀ l ∈ ls, ¬ l.Guards e) {q : Program κ α}
    (hq : (q.bind g).Orderly e bare (ls ++ owned)) :
    ((ls.foldl (fun body l => hold l body) q).bind g).Orderly e bare owned := by
  induction ls generalizing q with
  | nil => exact hq
  | cons l ls ih =>
    exact ih (fun l hl => hls l (.tail _ hl)) (q := .hold l q) (.hold (hls l (.head _)) hq)

/-- They are dropped again. -/
theorem orderly_dropping {γ : Type} {g : α → Program κ γ} {owned : List Local} {a : α}
    (hg : (g a).Orderly e bare owned) (ls : List Local) :
    ((Program.dropping a ls.length).bind g).Orderly e bare (ls ++ owned) := by
  induction ls with
  | nil => exact hg
  | cons l ls ih => exact .drop ih

/-- **Several things are owned for the length of a program**, and none is a guard. -/
theorem owningEach {ls : List Local} (hls : ∀ l ∈ ls, ¬ l.Guards e) (hp : Contained e bare p) :
    Contained e bare (Program.owningEach ls p) := by
  intro γ g owned hg
  refine orderly_foldl_hold hls ?_
  rw [bind_assoc]
  exact hp γ _ _ fun a => orderly_dropping (hg a) ls

/-- Shares of natives are owned for the length of a program. -/
theorem owningAll (vs : List NativeValue) (hp : Contained e bare p) :
    Contained e bare (Program.owningAll vs p) := by
  refine hp.owningEach fun l hl => ?_
  obtain ⟨id, -, rfl⟩ := List.mem_map.1 hl
  exact not_false

theorem owningValue (v : NativeValue) (hp : Contained e bare p) :
    Contained e bare (Program.owningValue v p) := by
  unfold Program.owningValue
  split
  · exact hp.owning not_false
  · exact hp

/-- **With one more level of a lock taken.** -/
theorem locked (e' : EngineId) (hp : Contained e bare p) :
    Contained e bare (Program.locked e' p) := by
  intro γ g owned hg
  by_cases he : e' = e
  · subst he
    exact .lock (hp.dropping _ hg)
  · exact .perform he fun _ => .hold he (hp.dropping _ hg)

/-- **With the lock released for a request.** On behalf of another engine the request is
a bare one. -/
theorem window {e' : EngineId} (he : e' ≠ e → bare) (id : NativeId) (r : Request) :
    Contained e bare (Program.unlocked e' (Program.op (.ask id r)) : Program κ r.Reply) := by
  intro γ g owned hg
  by_cases h : e' = e
  · subst h
    exact .window hg
  · exact .perform h fun _ => .hold h (.perform (fun _ => he h) fun x => .drop (hg x))

/-! ## Crossing -/

theorem toNative (e' : EngineId) (registry : RegistryId) (v : Value) :
    Contained e bare (Program.toNative e' registry v : Program κ NativeValue) := by
  cases v with
  | object h =>
    refine .bind (.op trivial) fun bound => ?_
    cases bound with
    | some bound => exact .pure _
    | none =>
      refine .bind (.op trivial) fun root => ?_
      exact .bind (.op trivial) fun id => .pure _
  | _ => exact .pure _

theorem toNatives (e' : EngineId) (registry : RegistryId) (vs : List Value) :
    Contained e bare (Program.toNatives e' registry vs : Program κ (List NativeValue)) := by
  induction vs with
  | nil => exact .pure _
  | cons v vs ih => exact (toNative e' registry v).bind fun _ => ih.bind fun _ => .pure _

theorem expose (e' : EngineId) (registry : RegistryId) (bound : NativeId) :
    Contained e bare
      (Program.expose e' registry bound : Program κ (Except EngineError Value)) := by
  have hwrap : Contained e bare (do
      Program.op (.retain bound)
      let adapter ← Program.op (.spawn (.adapter { bound := bound, registry := registry }))
      Program.op (.createHost e' adapter) : Program κ (Except EngineError Value)) :=
    .bind (.op trivial) fun _ => .bind (.op trivial) fun _ => .op trivial
  refine .bind (.op trivial) fun n => ?_
  split
  · exact .pure _
  · exact hwrap

theorem toScript (e' : EngineId) (registry : RegistryId) (v : NativeValue) :
    Contained e bare (Program.toScript e' registry v : Program κ (Except EngineError Value)) := by
  cases v with
  | object bound => exact expose e' registry bound
  | _ => exact .pure _

theorem toScripts (e' : EngineId) (registry : RegistryId) (vs : List NativeValue) :
    Contained e bare
      (Program.toScripts e' registry vs : Program κ (Except EngineError (List Value))) := by
  induction vs with
  | nil => exact .pure _
  | cons v vs ih =>
    refine (toScript e' registry v).bind fun first => ?_
    cases first with
    | error err => exact .pure _
    | ok first =>
      refine ih.bind fun others => ?_
      cases others <;> exact .pure _

/-! ## Script values -/

theorem adopt (e' : EngineId) (v : Value) :
    Contained e bare (ScriptValue.adopt e' v : Program κ ScriptValue) :=
  .bind (.op trivial) fun _ => .pure _

theorem adoptResult (e' : EngineId) (r : Except EngineError Value) :
    Contained e bare
      (ScriptValue.adoptResult e' r : Program κ (Except BridgeError ScriptValue)) := by
  cases r with
  | ok v => exact (adopt e' v).map
  | error err => exact .pure _

theorem toScriptValue (e' : EngineId) (registry : RegistryId) (v : NativeValue) :
    Contained e bare
      (Program.toScriptValue e' registry v : Program κ (Except BridgeError ScriptValue)) :=
  (toScript e' registry v).bind fun r => adoptResult e' r

theorem replace (s : ScriptValue) (v : Value) :
    Contained e bare (s.replace v : Program κ ScriptValue) := by
  unfold ScriptValue.replace
  split
  · exact .pure _
  · exact (adopt _ _).bind fun _ => .bind (.op trivial) fun _ => .pure _

theorem type (s : ScriptValue) : Contained e bare (s.type : Program κ ValueType) :=
  .map (.op trivial)

theorem isFunction (s : ScriptValue) : Contained e bare (s.isFunction : Program κ Bool) :=
  (type s).bind fun _ => .pure _

theorem expect (s : ScriptValue) (accepts : ValueType → Bool) (operation : String) :
    Contained e bare (s.expect accepts operation : Program κ Unit) := by
  refine (type s).bind fun t => ?_
  split
  · exact .pure _
  · exact .panic _

theorem number (s : ScriptValue) : Contained e bare (s.number : Program κ Double) := by
  unfold ScriptValue.number
  split
  · exact .pure _
  · exact .panic _

theorem bool (s : ScriptValue) : Contained e bare (s.bool : Program κ Bool) := by
  unfold ScriptValue.bool
  split
  · exact .pure _
  · exact .panic _

theorem string (s : ScriptValue) : Contained e bare (s.string : Program κ String) := by
  unfold ScriptValue.string
  split
  · exact .pure _
  · exact .panic _

theorem withArray (s : ScriptValue) (hp : Contained e bare p) :
    Contained e bare (s.expectArray >>= fun _ => p) :=
  (expect s _ _).bind fun _ => hp

theorem withObject (s : ScriptValue) (hp : Contained e bare p) :
    Contained e bare (s.expectObject >>= fun _ => p) :=
  (expect s _ _).bind fun _ => hp

theorem setArrayType (s : ScriptValue) (length : Nat) :
    Contained e bare (s.setArrayType length : Program κ (Except EngineError ScriptValue)) := by
  refine .bind (.op trivial) fun r => ?_
  cases r with
  | ok v => exact (replace s v).map
  | error err => exact .pure _

theorem setObjectType (s : ScriptValue) :
    Contained e bare (s.setObjectType : Program κ (Except EngineError ScriptValue)) := by
  refine .bind (.op trivial) fun r => ?_
  cases r with
  | ok v => exact (replace s v).map
  | error err => exact .pure _

theorem setArrayValue (s : ScriptValue) (i : Nat) (v : Value) :
    Contained e bare (s.setArrayValue i v : Program κ (Except EngineError Unit)) :=
  withArray s (.op trivial)

theorem setArrayValues (s : ScriptValue) (i : Nat) (vs : List Value) :
    Contained e bare (s.setArrayValues i vs : Program κ (Except EngineError Unit)) := by
  induction vs generalizing i with
  | nil => exact .pure _
  | cons v vs ih =>
    refine (setArrayValue s i v).bind fun r => ?_
    cases r with
    | ok u => exact ih (i + 1)
    | error err => exact .pure _

theorem pop (s : ScriptValue) :
    Contained e bare (s.pop : Program κ (Except BridgeError ScriptValue)) :=
  withArray s (.bind (.op trivial) fun r => adoptResult _ r)

theorem arrayValue (s : ScriptValue) (i : Nat) :
    Contained e bare (s.arrayValue i : Program κ (Except BridgeError ScriptValue)) :=
  withArray s (.bind (.op trivial) fun r => adoptResult _ r)

theorem property (s : ScriptValue) (name : String) :
    Contained e bare
      (s.property name : Program κ (Except BridgeError (Option ScriptValue))) := by
  refine withObject s (.bind (.op trivial) fun r => ?_)
  split
  · exact .pure _
  · refine .bind (.op trivial) fun names => ?_
    split
    · exact .pure _
    · split
      · exact (adopt _ _).map.map
      · exact .pure _
  · exact (adopt _ _).map.map

theorem first (s : ScriptValue) :
    Contained e bare (s.first : Program κ (Except EngineError ScriptValue)) := by
  refine withObject s (.bind (.op trivial) fun r => ?_)
  cases r <;> exact .pure _

theorem call (s : ScriptValue) (args : List Value) :
    Contained e bare (s.call args : Program κ (Except BridgeError ScriptValue)) := by
  refine (expect s _ _).bind fun _ => .bind (.op trivial) fun r => ?_
  split
  · exact (adopt _ _).map
  · exact .bind (.op trivial) fun _ => .bind (.op trivial) fun _ => .pure _
  · exact .pure _

theorem cursorValue (c : Cursor) (name : String) :
    Contained e bare (c.value name : Program κ (Except EngineError Root)) := by
  refine .bind (.op trivial) fun r => ?_
  cases r with
  | ok v => exact .map (.op trivial)
  | error err => exact .pure _

/-! ## Bridges -/

theorem makeRegistry (room : Nat) :
    Contained e bare (Program.makeRegistry room : Program κ RegistryId) := by
  unfold Program.makeRegistry
  split
  · exact .panic _
  · exact .op trivial

/-! ## Proxies -/

theorem proxyNames (p : Proxy) : Contained e bare (p.names : Program κ (List String)) := by
  refine .bind (.op trivial) fun r => ?_
  cases r <;> exact .pure _

theorem callWith (p : Proxy) (callee : Value) (args : List NativeValue) :
    Contained e bare
      (p.callWith callee args : Program κ (Except NativeError NativeValue)) := by
  refine (toScripts _ _ args).bind fun args => ?_
  cases args with
  | error err => exact .pure _
  | ok args =>
    refine .bind (.op trivial) fun r => ?_
    split
    · exact (toNative _ _ _).map
    · exact .bind (.op trivial) fun _ => .bind (.op trivial) fun _ => .pure _
    · exact .pure _

/-- **A proxy** may be asked at any depth. -/
theorem proxyAnswer (p : Proxy) (r : BoundRequest) :
    Contained e bare (p.answer r : Program κ r.Reply) := by
  cases r with
  | hasMethod name =>
    refine .bind (.op trivial) fun member => ?_
    cases member with
    | ok member => exact .bind (.op trivial) fun _ => .pure _
    | error err => exact .pure _
  | hasProperty name => exact (proxyNames p).bind fun _ => .pure _
  | invokeMethod name args =>
    refine .bind (.op trivial) fun method => ?_
    cases method with
    | error err => exact .pure _
    | ok method =>
      refine .bind (.op trivial) fun kind => ?_
      split
      · exact .bind (.op trivial) fun root => (callWith p method args).owning not_false
      · exact .pure _
  | invoke args =>
    refine (isFunction _).bind fun callable => ?_
    split
    · exact callWith p _ args
    · exact .pure _
  | isFunction => exact isFunction _
  | getProperty name =>
    refine .bind (.op trivial) fun v => ?_
    cases v with
    | ok v => exact toNative _ _ v
    | error err => exact .pure _
  | setProperty name v =>
    refine owningValue v ((toScript _ _ v).bind fun v => ?_)
    cases v with
    | ok v => exact .bind (.op trivial) fun _ => .pure _
    | error err => exact .pure _
  | stringValue => exact .op trivial
  | properties => exact proxyNames p

/-! ## Adapters -/

theorem find (kind : MemberKind) (cls : ClassId) (e' : EngineId) (bound : NativeId)
    (name : String) :
    Contained e bare (kind.find cls e' bound name : Program κ (Option Descriptor)) := by
  have hintern : ∀ confirmed : Bool, Contained e bare
      (if confirmed then some <$> Program.locked e' (Program.op (.intern cls kind name))
        else Pure.pure none : Program κ (Option Descriptor)) := by
    intro confirmed
    split
    · exact .map (.locked e' (.op trivial))
    · exact .pure _
  refine .bind (.op trivial) fun d => ?_
  cases d with
  | some d => exact .pure _
  | none => cases kind <;> exact .bind (.op nofun) hintern

theorem methodsNamed (self : NativeId) (a : Adapter) (e' : EngineId) (name : String) :
    Contained e bare (Adapter.methodsNamed self a e' name : Program κ (List Descriptor)) :=
  .bind (.op trivial) fun _ => (find _ _ e' _ name).map

theorem fieldNamed (self : NativeId) (a : Adapter) (e' : EngineId) (name : String) :
    Contained e bare (Adapter.fieldNamed self a e' name : Program κ (Option Descriptor)) :=
  .bind (.op trivial) fun _ => find _ _ e' _ name

theorem passOn (e' : EngineId) (registry : RegistryId) (v : NativeValue) :
    Contained e bare (Program.owningValue v (Program.toScriptValue e' registry v) :
      Program κ (Except BridgeError ScriptValue)) :=
  owningValue v (toScriptValue e' registry v)

theorem fieldValue (a : Adapter) (e' : EngineId) (d : Descriptor) :
    Contained e bare (a.fieldValue e' d : Program κ (Except BridgeError ScriptValue)) :=
  .bind (.op nofun) fun v => passOn e' a.registry v

theorem setFieldValue (a : Adapter) (e' : EngineId) (d : Descriptor) (v : Value) :
    Contained e bare (a.setFieldValue e' d v : Program κ Unit) :=
  (toNative e' _ v).bind fun _ => .op nofun

theorem conclude (a : Adapter) (e' : EngineId) (fault : InvocationFault)
    (outcome : Except NativeError NativeValue) :
    Contained e bare
      (a.conclude e' fault outcome : Program κ (Except BridgeError ScriptValue)) := by
  cases outcome with
  | ok v => exact passOn e' a.registry v
  | error err => exact .pure _

section Windows

variable {e' : EngineId} (he : e' ≠ e → bare)

include he

/-- **An invocation** asks the bound object in a window. -/
theorem invocation (a : Adapter) (r : List NativeValue → BoundRequest) (fault : InvocationFault)
    (outcomeOf : (args : List NativeValue) → (r args).Reply → Except NativeError NativeValue)
    (args : List Value) :
    Contained e bare (do
      let args ← Program.toNatives e' a.registry args
      Program.owningAll args do
        let x ← Program.unlocked e' (Program.op (.ask a.bound (.bound (r args))))
        a.conclude e' fault (outcomeOf args x) :
        Program κ (Except BridgeError ScriptValue)) :=
  (toNatives e' a.registry args).bind fun args =>
    owningAll args ((window he a.bound (.bound (r args))).bind fun _ => conclude a e' fault _)

theorem invokeNamed (a : Adapter) (name : String) (args : List Value) :
    Contained e bare (a.invokeNamed e' name args : Program κ (Except BridgeError ScriptValue)) :=
  invocation he a (.invokeMethod name) (.method name) (fun _ x => x) args

theorem invoke (a : Adapter) (args : List Value) :
    Contained e bare (a.invoke e' args : Program κ (Except BridgeError ScriptValue)) := by
  refine .bind (.op nofun) fun callable => ?_
  split
  · exact invocation he a .invoke .function (fun _ x => x) args
  · exact (adopt e' _).map

theorem invokeMethod (a : Adapter) (methods : List Descriptor) (args : List Value) :
    Contained e bare
      (a.invokeMethod e' methods args : Program κ (Except BridgeError ScriptValue)) :=
  match methods with
  | [] => .pure _
  | [d] => invokeNamed he a d.name args
  | _ :: _ :: _ => .panic _

theorem propertyNames (a : Adapter) :
    Contained e bare (a.propertyNames e' : Program κ (List String)) :=
  window he a.bound _

end Windows

theorem getProperty (self : NativeId) (a : Adapter) (e' : EngineId) (name : String) :
    Contained e bare (Adapter.getProperty self a e' name :
      Program κ (Except BridgeError (Option ScriptValue))) := by
  refine (fieldNamed self a e' name).bind fun d => ?_
  cases d with
  | none => exact .pure _
  | some d => exact (fieldValue a e' d).map

theorem setProperty (self : NativeId) (a : Adapter) (e' : EngineId) (name : String) (v : Value) :
    Contained e bare (Adapter.setProperty self a e' name v : Program κ Bool) := by
  refine (fieldNamed self a e' name).bind fun d => ?_
  cases d with
  | none => exact .pure _
  | some d => exact (setFieldValue a e' d v).bind fun _ => .pure _

theorem toPrimitive (a : Adapter) (hint : Hint) :
    Contained e bare (a.toPrimitive hint : Program κ Value) := by
  cases hint with
  | number => exact .pure _
  | _ => exact .bind (.op nofun) fun _ => .pure _

theorem thrown (e' : EngineId) (err : BridgeError) :
    Contained e bare (Adapter.thrown e' err : Program κ EngineError) := by
  cases err with
  | engine err => exact .pure _
  | _ => exact .op trivial

theorem unhold (e' : EngineId) (r : Except BridgeError ScriptValue) :
    Contained e bare (Adapter.unhold e' r : Program κ (Except EngineError Value)) := by
  cases r with
  | ok s => exact .bind (.op trivial) fun _ => .pure _
  | error err => exact (thrown e' err).map

/-- **An adapter** makes windowed requests in windows of its engine. -/
theorem adapterAnswer {e' : EngineId} (he : e' ≠ e → bare) (self : NativeId) (a : Adapter)
    (r : HostRequest) : Contained e bare (a.answer self e' r : Program κ r.Reply) := by
  cases r with
  | getProperty name =>
    refine (getProperty self a e' name).bind fun s => ?_
    split
    · exact .pure _
    · exact (unhold e' _).map
    · exact (thrown e' _).map
  | setProperty name v => exact (setProperty self a e' name v).map
  | hasMethod name => exact (methodsNamed self a e' name).bind fun _ => .pure _
  | invokeMethod name args =>
    refine (methodsNamed self a e' name).bind fun methods => ?_
    exact (invokeMethod he a methods args).bind fun r => unhold e' r
  | isCallable => exact .op nofun
  | call args => exact (invoke he a args).bind fun r => unhold e' r
  | propertyNames => exact propertyNames he a
  | toPrimitive hint => exact (toPrimitive a hint).map

end Contained

end Program

end EmbeddedScript
