import EmbeddedScript.Proofs.Bridge.Thrift

/-!
# The accounts of bridge calls

Every piece of an adapter settles its accounts if the bound object does: the crossings
between script and native code, invocations with their arguments, and results on the
way back. So **a host request to an adapter leaves the books as it found them**
(`Machine.Thrifty.answer`), whether it succeeds, the bound object fails, or the heap has
no room for a result.
-/

namespace EmbeddedScript.Machine.Thrifty

open Act
open Program (Settles)

variable {κ α : Type} {b : Behaviour κ} {depth : Nat} {m' : Machine κ} {w w' : World κ}

section Pieces

variable {bound : NativeId} (ht : (b.machine depth).Thrifty m' bound)

include ht

/-! ## Operations -/

omit ht in
/-- An operation that no native has a part in and that the books do not show. -/
theorem op_of_books_eq {o : Op κ} (hm : m'.perform o = (b.machine depth).perform o)
    (h : ∀ w x w', w.Tidy → m'.perform o w = .ok x w' → w'.Tidy ∧ w'.books = w.books) :
    Settles (b.machine depth) m' [] (Program.op o) fun _ => [] := by
  refine .op fun w x w' _ hy hx => ?_
  obtain ⟨hy', hb⟩ := h w x w' hy hx
  exact ⟨hm ▸ hx, .of_books_eq hy' hb⟩

omit ht in
theorem lock (e : EngineId) :
    Settles (b.machine depth) m' [] (Program.op (.lock e)) fun _ => [] := by
  refine op_of_books_eq rfl fun w x w' hy hx => ?_
  cases hx
  exact ⟨hy.modifyEngine e _, World.books_modifyEngine w e _⟩

omit ht in
theorem releaseLock (e : EngineId) :
    Settles (b.machine depth) m' [] (Program.op (.releaseLock e)) fun _ => [] := by
  refine op_of_books_eq rfl fun w x w' hy hx => ?_
  cases hx
  exact ⟨hy.modifyEngine e _, World.books_modifyEngine w e _⟩

omit ht in
theorem cached (c : ClassId) (kind : MemberKind) (name : String) :
    Settles (b.machine depth) m' [] (Program.op (.cached c kind name)) fun _ => [] := by
  refine op_of_books_eq rfl fun w x w' hy hx => ?_
  cases hx
  exact ⟨hy, rfl⟩

omit ht in
theorem intern (c : ClassId) (kind : MemberKind) (name : String) :
    Settles (b.machine depth) m' [] (Program.op (.intern c kind name)) fun _ => [] := by
  refine op_of_books_eq rfl fun w x w' hy hx => ?_
  cases hx
  exact ⟨hy.congr rfl rfl rfl, World.books_congr rfl rfl fun _ _ => rfl⟩

omit ht in
/-- Looking up the class of an adapter writes it into the adapter, which is no proxy. -/
theorem adapterClass (self : NativeId) :
    Settles (b.machine depth) m' [] (Program.op (.adapterClass self)) fun _ => [] := by
  refine op_of_books_eq rfl fun w x w' hy hx => ?_
  obtain ⟨n, w₁, hn, hx⟩ := bind_eq_ok.1 hx
  obtain ⟨hself, rfl⟩ : w.native? self = n ∧ w = w₁ := by simpa [Act.view] using hn
  cases n with
  | none => cases hx
  | some n =>
    cases n with
    | adapter a =>
      cases hx
      have hnatives : (w.classFor a.registry a.bound).2.natives = w.natives := by
        unfold World.classFor
        split <;> rfl
      have haside := aside_classFor w a.registry a.bound
      have hsome : (w.classFor a.registry a.bound).2.native? self = some (.adapter a) := by
        rw [World.native?, hnatives, ← World.native?, hself]
      have hy₁ : (w.classFor a.registry a.bound).2.Tidy :=
        hy.congr hnatives haside.roots haside.rootsMade
      cases a.cls with
      | some c => exact ⟨hy, rfl⟩
      | none =>
        refine ⟨hy₁.setNative self (by simp), ?_⟩
        show ((w.classFor a.registry a.bound).2.setNative self _).books = w.books
        rw [World.books_setNative hsome (by simp) (by simp)]
        exact World.books_congr hnatives haside.roots fun _ _ => by rw [haside.journal]
    | proxy p => cases hx
    | custom state => cases hx

omit ht in
/-- **Rooting a value** owes the root. -/
theorem root (e : EngineId) (v : Value) :
    Settles (b.machine depth) m' [] (Program.op (.root e v)) fun r => [.root r] := by
  refine .op fun w x w' hw hy hx => ?_
  cases hx
  exact ⟨rfl, hy.addRoot e v, World.dropRoot_books_addRoot hw.numbered e v⟩

omit ht in
/-- Dropping a root settles it. -/
theorem unroot (r : Root) :
    Settles (b.machine depth) m' [.root r] (Program.op (.unroot r)) fun _ => [] := by
  refine .op fun w x w' hw hy hx => ?_
  cases hx
  exact ⟨rfl, hy.dropRoot r, World.books_dropRoot hw.numbered r⟩

/-- **Asking the bound object.** -/
theorem askBound (r : BoundRequest) :
    Settles (b.machine depth) m' r.given (Program.op (.ask bound (.bound r))) r.returned := by
  refine .op fun w x w' hw hy hx => ?_
  obtain ⟨u, w₁, hrecord, hx⟩ := bind_eq_ok.1 hx
  cases hrecord
  have hn : (Event.asked bound (.bound r) w.postures).IsNoPin := trivial
  have hs := ht.asked r _ x w' (hw.tail (.move (.recorded hn))) (hy.record _) hx
  refine ⟨bind_eq_ok.2 ⟨(), _, rfl, ht.ask _ _ _ _ _ hx⟩, hs.tidy, ?_⟩
  rw [← World.books_record w hn]
  exact hs.books

/-- Building an error leaves the books alone. -/
theorem raise (e : EngineId) (cls : ThrownClass) (message : String) :
    Settles (b.machine depth) m' [] (Program.op (.raise e cls message)) fun _ => [] := by
  refine .op fun w x w' hw hy hx => ?_
  obtain ⟨r, w₁, hr, hx⟩ := bind_eq_ok.1 hx
  obtain ⟨hr', hs⟩ := ht.allocate hw hy (fun id hid => by cases hid) hr
  refine ⟨bind_eq_ok.2 ⟨r, w₁, hr', hx⟩, ?_⟩
  cases r with
  | ok v =>
    cases hx
    exact hs
  | error err =>
    cases hx
    exact hs

/-! ## Crossings -/

omit ht in
/-- Looking behind a wrapper owes the share of the bound object that is found. -/
theorem boundOf (e : EngineId) (v : Value) :
    Settles (b.machine depth) m' [] (Program.op (.boundOf e v))
      fun found => found.toList.map .native := by
  refine .op fun w x w' hw hy hx => ⟨hx, ?_⟩
  obtain ⟨r, w₁, hr, hx⟩ := bind_eq_ok.1 hx
  obtain ⟨rfl, -⟩ := eq_of_host? hr
  cases r with
  | none =>
    cases hx
    exact .refl hy
  | some id =>
    obtain ⟨n, w₂, hn, hx⟩ := bind_eq_ok.1 hx
    obtain ⟨-, rfl⟩ : w₁.native? id = n ∧ w₁ = w₂ := by simpa [Act.view] using hn
    cases n with
    | none =>
      cases hx
      exact .refl hy
    | some n =>
      cases n with
      | adapter a =>
        cases hx
        exact ⟨hy.retain a.bound, World.letGo_books_retain hy a.bound⟩
      | proxy p =>
        cases hx
        exact .refl hy
      | custom state =>
        cases hx
        exact .refl hy

omit ht in
/-- **A new proxy** owns a new root. -/
theorem newProxy (e : EngineId) (registry : RegistryId) (v : Value) :
    Settles (b.machine depth) m' [] (do
      let root ← Program.op (.root e v)
      let id ← Program.op (.spawn (.proxy ⟨root, registry⟩))
      pure (NativeValue.object id)) fun n => NativeValue.debts [n] := by
  intro owned w x rest w' hw hy hx
  obtain ⟨r, rest₁, w₁, hr, hx₁⟩ := eval_bind_eq_ok.1 hx
  obtain ⟨rfl, hroot⟩ := eval_op_eq_ok.1 hr
  obtain ⟨id, rest₂, w₂, hid, hx₂⟩ := eval_bind_eq_ok.1 hx₁
  obtain ⟨rfl, hspawn⟩ := eval_op_eq_ok.1 hid
  obtain ⟨rfl, rfl, rfl⟩ := (eval_pure_eq_ok (a := NativeValue.object id)).1 hx₂
  cases hroot
  cases hspawn
  refine ⟨hx, rfl, (hw.tail (.move (.rooted e v))).tail (.move (.aside (.addNative _ _))), ?_⟩
  refine ⟨(hy.addRoot e v).addNative fun p hp => ?_, ?_⟩
  · cases hp
    exact Nat.lt_succ_self _
  · exact (World.letGo_books_addNative _ _).trans (World.dropRoot_books_addRoot hw.numbered e v)

omit ht in
/-- **A value out of script** owes the share that it owns: a new proxy owns a new root. -/
theorem toNative (e : EngineId) (registry : RegistryId) (v : Value) :
    Settles (b.machine depth) m' [] (Program.toNative e registry v)
      fun n => NativeValue.debts [n] := by
  cases v with
  | object h =>
    refine (boundOf e (.object h)).bind fun found => ?_
    cases found with
    | some bound => exact .pure .rfl
    | none => exact newProxy e registry (.object h)
  | _ => exact .pure .rfl

omit ht in
/-- **Several values out of script** owe what each of them owns. -/
theorem toNatives (e : EngineId) (registry : RegistryId) (vs : List Value) :
    Settles (b.machine depth) m' [] (Program.toNatives e registry vs) NativeValue.debts := by
  induction vs with
  | nil => exact .pure .rfl
  | cons v rest ih =>
    refine (toNative e registry v).bind fun first => ?_
    refine (ih.frame (NativeValue.debts [first])).bind fun others => .pure ?_
    show (NativeValue.debts (first :: others)).Perm _
    rw [NativeValue.debts_cons]
    exact List.perm_append_comm

/-- **A new wrapper** takes shares that are not of proxies, if it is not made around
one. -/
theorem newWrapper (e : EngineId) (registry : RegistryId) {id : NativeId}
    {owned rest : List Local} {x : Except EngineError Value}
    (hp : ∀ p, w.native? id ≠ some (.proxy p)) (hw : w.Reachable) (hy : w.Tidy)
    (hx : m'.eval (do
      Program.op (.retain id)
      let adapter ← Program.op (.spawn (.adapter { bound := id, registry := registry }))
      Program.op (.createHost e adapter)) owned w = .ok (x, rest) w') :
    (b.machine depth).eval (do
      Program.op (.retain id)
      let adapter ← Program.op (.spawn (.adapter { bound := id, registry := registry }))
      Program.op (.createHost e adapter)) owned w = .ok (x, rest) w'
      ∧ rest = owned ∧ w'.Reachable ∧ w.Settles w' [] [] := by
  obtain ⟨u, rest₁, w₁, hretain, hx₁⟩ := eval_bind_eq_ok.1 hx
  obtain ⟨rfl, hretain⟩ := eval_op_eq_ok.1 hretain
  obtain ⟨adapter, rest₂, w₂, hspawn, hx₂⟩ := eval_bind_eq_ok.1 hx₁
  obtain ⟨rfl, hspawn⟩ := eval_op_eq_ok.1 hspawn
  obtain ⟨rfl, hcreate⟩ := eval_op_eq_ok.1 hx₂
  obtain rfl : w.modifyOwners id (· + 1) = w₁ := by cases hretain; rfl
  have hadapter : ∀ p, Native.adapter (κ := κ) { bound := id, registry := registry }
      ≠ .proxy p := by simp
  obtain ⟨rfl, rfl⟩ : ((w.modifyOwners id (· + 1)).addNative
      (.adapter { bound := id, registry := registry })).1 = adapter
      ∧ ((w.modifyOwners id (· + 1)).addNative
        (.adapter { bound := id, registry := registry })).2 = w₂ := by
    cases hspawn
    exact ⟨rfl, rfl⟩
  have hw₂ := (hw.tail (.move (.aside (.modifyOwners w id (· + 1))))).tail
    (.move (.aside (.addNative _ (.adapter { bound := id, registry := registry }))))
  have hy₂ := (hy.retain id).addNative (n := .adapter { bound := id, registry := registry })
    fun p hp => absurd hp (hadapter p)
  -- neither the share nor the adapter that owns it is in the books
  have hbooks := (World.books_addNative (w.modifyOwners id (· + 1)) hadapter).trans
    (World.books_retain hy hp)
  obtain ⟨hcreate', hs⟩ := ht.allocate hw₂ hy₂ (fun i hi => by
    cases hi
    rw [World.proxies_addNative, Function.update_self]
    rfl) hcreate
  refine ⟨?_, rfl, Behaviour.reachable_perform (o := .createHost e _) hw₂ hcreate', hs.tidy,
    hs.books.trans hbooks⟩
  exact eval_bind_eq_ok.2 ⟨_, _, _, eval_op_eq_ok.2 ⟨rfl, rfl⟩,
    eval_bind_eq_ok.2 ⟨_, _, _, eval_op_eq_ok.2 ⟨rfl, rfl⟩, eval_op_eq_ok.2 ⟨rfl, hcreate'⟩⟩⟩

/-- **A bound object into script**: a proxy is the value that it stands for. -/
theorem expose (e : EngineId) (registry : RegistryId) (id : NativeId) :
    Settles (b.machine depth) m' [] (Program.expose e registry id) fun _ => [] := by
  intro owned w x rest w' hw hy hx
  obtain ⟨found, rest₁, w₁, hlook, hx₁⟩ := eval_bind_eq_ok.1 hx
  obtain ⟨rfl, hlook⟩ := eval_op_eq_ok.1 hlook
  obtain ⟨rfl, rfl⟩ : w.native? id = found ∧ w = w₁ := by cases hlook; exact ⟨rfl, rfl⟩
  have hlook' : (b.machine depth).eval (Program.op (.look id)) rest₁ w
      = .ok (w.native? id, rest₁) w := eval_op_eq_ok.2 ⟨rfl, rfl⟩
  cases hid : w.native? id with
  | none =>
    rw [hid] at hx₁ hlook'
    obtain ⟨hx', hrest⟩ := ht.newWrapper e registry (by simp [hid]) hw hy hx₁
    exact ⟨eval_bind_eq_ok.2 ⟨_, _, _, hlook', hx'⟩, hrest⟩
  | some n =>
    rw [hid] at hx₁ hlook'
    cases n with
    | proxy p =>
      obtain ⟨rfl, rfl, rfl⟩ := eval_pure_eq_ok.1 hx₁
      exact ⟨eval_bind_eq_ok.2 ⟨_, _, _, hlook', rfl⟩, rfl, hw, .refl hy⟩
    | adapter a =>
      obtain ⟨hx', hrest⟩ := ht.newWrapper e registry (by simp [hid]) hw hy hx₁
      exact ⟨eval_bind_eq_ok.2 ⟨_, _, _, hlook', hx'⟩, hrest⟩
    | custom state =>
      obtain ⟨hx', hrest⟩ := ht.newWrapper e registry (by simp [hid]) hw hy hx₁
      exact ⟨eval_bind_eq_ok.2 ⟨_, _, _, hlook', hx'⟩, hrest⟩

theorem toScript (e : EngineId) (registry : RegistryId) (v : NativeValue) :
    Settles (b.machine depth) m' [] (Program.toScript e registry v) fun _ => [] := by
  cases v with
  | object id => exact ht.expose e registry id
  | _ => exact .pure .rfl

/-! ## Results -/

/-- The root that a result holds. -/
def held : Except BridgeError ScriptValue → List Local
  | .ok s => [.root s.root]
  | .error _ => []

omit ht in
theorem adopt (e : EngineId) (v : Value) :
    Settles (b.machine depth) m' [] (ScriptValue.adopt e v) fun s => [.root s.root] :=
  (root e v).bind fun _ => .pure .rfl

/-- **A native value into script, and held.** -/
theorem toScriptValue (e : EngineId) (registry : RegistryId) (v : NativeValue) :
    Settles (b.machine depth) m' [] (Program.toScriptValue e registry v) held := by
  refine (ht.toScript e registry v).bind fun r => ?_
  cases r with
  | ok v => exact (adopt e v).map fun _ => rfl
  | error err => exact .pure .rfl

/-- Owning the share of a native value for the length of a program. -/
theorem owningValue {given : List Local} {p : Program κ α} {owed : α → List Local}
    (v : NativeValue) (hp : Settles (b.machine depth) m' given p owed) :
    Settles (b.machine depth) m' (NativeValue.debts [v] ++ given) (Program.owningValue v p)
      owed := by
  cases v with
  | object id => exact ht.owning (.native id) hp
  | _ => exact hp

/-- **A result of the bound object** is passed on, and its share is let go. -/
theorem passOn (e : EngineId) (registry : RegistryId) (v : NativeValue) :
    Settles (b.machine depth) m' (NativeValue.debts [v])
      (Program.owningValue v (Program.toScriptValue e registry v)) held := by
  have h := ht.owningValue v (ht.toScriptValue e registry v)
  rwa [List.append_nil] at h

/-- What an outcome of the bound object owes. -/
def outcome : Except NativeError NativeValue → List Local
  | .ok v => NativeValue.debts [v]
  | .error _ => []

theorem conclude (a : Adapter) (e : EngineId) (fault : InvocationFault)
    (r : Except NativeError NativeValue) :
    Settles (b.machine depth) m' (outcome r) (a.conclude e fault r) held := by
  cases r with
  | ok v => exact ht.passOn e a.registry v
  | error err => exact .pure .rfl

theorem thrown (e : EngineId) (err : BridgeError) :
    Settles (b.machine depth) m' [] (Adapter.thrown e err) fun _ => [] := by
  cases err with
  | engine err => exact .pure .rfl
  | invocation fault => exact ht.raise e .error fault.message
  | exception description => exact ht.raise e .error description

/-- **A result that is handed over** is held no longer; a fault becomes an error. -/
theorem unhold (e : EngineId) (r : Except BridgeError ScriptValue) :
    Settles (b.machine depth) m' (held r) (Adapter.unhold e r) fun _ => [] := by
  cases r with
  | ok s => exact (unroot s.root).bind fun _ => .pure .rfl
  | error err => exact (ht.thrown e err).map fun _ => rfl

/-- A program that runs with the lock released. -/
theorem unlocked {given : List Local} {p : Program κ α} {owed : α → List Local} (e : EngineId)
    (hp : Settles (b.machine depth) m' given p owed) :
    Settles (b.machine depth) m' given (Program.unlocked e p) owed := by
  refine ((releaseLock e).frame given).bind fun saved => ?_
  exact (ht.owning (.guard e (.release saved)) hp).guarded

theorem locked {given : List Local} {p : Program κ α} {owed : α → List Local} (e : EngineId)
    (hp : Settles (b.machine depth) m' given p owed) :
    Settles (b.machine depth) m' given (Program.locked e p) owed := by
  refine ((lock e).frame given).bind fun _ => ?_
  exact (ht.owning (.guard e .level) hp).guarded

/-! ## Members -/

/-- Looking for a member asks the bound object at most whether it has one. -/
theorem find (kind : MemberKind) (cls : ClassId) (e : EngineId) (name : String) :
    Settles (b.machine depth) m' [] (kind.find cls e bound name) fun _ => [] := by
  refine (cached cls kind name).bind fun found => ?_
  cases found with
  | some d => exact .pure .rfl
  | none =>
    have hadd : ∀ confirmed : Bool, Settles (b.machine depth) m' []
        (if confirmed then
          some <$> Program.locked e (Program.op (.intern cls kind name))
        else pure none) fun _ => [] := by
      intro confirmed
      cases confirmed with
      | true => exact (ht.locked e (intern cls kind name)).map fun _ => rfl
      | false => exact .pure .rfl
    cases kind with
    | method => exact (ht.askBound (.hasMethod name)).bind hadd
    | field => exact (ht.askBound (.hasProperty name)).bind hadd

end Pieces

/-! ## Requests to an adapter -/

section Requests

variable {a : Adapter} (ht : (b.machine depth).Thrifty m' a.bound) (self : NativeId)
  (e : EngineId)

include ht

theorem methodsNamed (name : String) :
    Settles (b.machine depth) m' [] (a.methodsNamed self e name) fun _ => [] := by
  refine (adapterClass self).bind fun cls => ?_
  exact (ht.find .method cls e name).map fun _ => rfl

theorem fieldNamed (name : String) :
    Settles (b.machine depth) m' [] (a.fieldNamed self e name) fun _ => [] :=
  (adapterClass self).bind fun cls => ht.find .field cls e name

/-- **Reading a field** passes on what the bound object gives. -/
theorem fieldValue (d : Descriptor) :
    Settles (b.machine depth) m' [] (a.fieldValue e d) held :=
  (ht.askBound (.getProperty d.name)).bind fun v => ht.passOn e a.registry v

/-- **Writing a field** gives the bound object the share that the value owns. -/
theorem setFieldValue (d : Descriptor) (v : Value) :
    Settles (b.machine depth) m' [] (a.setFieldValue e d v) fun _ => [] :=
  (toNative e a.registry v).bind fun n => ht.askBound (.setProperty d.name n)

/-- **An invocation** owns its arguments while the bound object runs and until its result
has been passed on. -/
theorem invocation (r : List NativeValue → BoundRequest) (fault : InvocationFault)
    (outcomeOf : (args : List NativeValue) → (r args).Reply → Except NativeError NativeValue)
    (hr : ∀ args, (r args).given = [])
    (ho : ∀ args x, (r args).returned x = outcome (outcomeOf args x)) (args : List Value) :
    Settles (b.machine depth) m' [] (do
      let args ← Program.toNatives e a.registry args
      Program.owningAll args do
        let x ← Program.unlocked e (Program.op (.ask a.bound (.bound (r args))))
        a.conclude e fault (outcomeOf args x)) held := by
  refine (toNatives e a.registry args).bind fun args => ?_
  -- an invocation is given nothing: its arguments stay with the frame that owns them
  have hask := ht.askBound (r args)
  rw [hr args] at hask
  have hbody := (ht.unlocked e hask).bind fun x => (ho args x) ▸ ht.conclude a e fault _
  have h := ht.owningEach (NativeValue.debts args) hbody
  rwa [List.append_nil] at h

theorem invokeNamed (name : String) (args : List Value) :
    Settles (b.machine depth) m' [] (a.invokeNamed e name args) held :=
  ht.invocation e (.invokeMethod name) (.method name) (fun _ x => x) (fun _ => rfl)
    (fun _ x => by cases x <;> rfl) args

theorem invoke (args : List Value) :
    Settles (b.machine depth) m' [] (a.invoke e args) held := by
  refine (ht.askBound .isFunction).bind fun callable => ?_
  cases callable with
  | true =>
    exact ht.invocation e .invoke .function (fun _ x => x) (fun _ => rfl)
      (fun _ x => by cases x <;> rfl) args
  | false => exact (adopt e .undefined).map fun _ => rfl

theorem invokeMethod (methods : List Descriptor) (args : List Value) :
    Settles (b.machine depth) m' [] (a.invokeMethod e methods args) held := by
  match methods with
  | [] => exact .pure .rfl
  | [d] => exact ht.invokeNamed e d.name args
  | _ :: _ :: _ => exact .panic

/-- The root that a result which may be missing holds. -/
def heldIfAny : Except BridgeError (Option ScriptValue) → List Local
  | .ok (some s) => [.root s.root]
  | _ => []

theorem getProperty (name : String) :
    Settles (b.machine depth) m' [] (a.getProperty self e name) heldIfAny := by
  refine (ht.fieldNamed self e name).bind fun found => ?_
  cases found with
  | none => exact .pure .rfl
  | some d =>
    refine (ht.fieldValue e d).map fun r => ?_
    cases r <;> rfl

theorem setProperty (name : String) (v : Value) :
    Settles (b.machine depth) m' [] (a.setProperty self e name v) fun _ => [] := by
  refine (ht.fieldNamed self e name).bind fun found => ?_
  cases found with
  | none => exact .pure .rfl
  | some d => exact (ht.setFieldValue e d v).bind fun _ => .pure .rfl

/-- **A host request to an adapter leaves the books as it found them**, if its bound
object keeps nothing. -/
theorem answer (r : HostRequest) :
    Settles (b.machine depth) m' [] (a.answer self e r) fun _ => [] := by
  cases r with
  | getProperty name =>
    refine (ht.getProperty self e name).bind fun r => ?_
    match r with
    | .ok none => exact .pure .rfl
    | .ok (some s) => exact (ht.unhold e (.ok s)).map fun _ => rfl
    | .error err => exact (ht.thrown e err).map fun _ => rfl
  | setProperty name v => exact (ht.setProperty self e name v).map fun _ => rfl
  | hasMethod name => exact (ht.methodsNamed self e name).bind fun _ => .pure .rfl
  | invokeMethod name args =>
    refine (ht.methodsNamed self e name).bind fun methods => ?_
    exact (ht.invokeMethod e methods args).bind fun r => ht.unhold e r
  | isCallable => exact ht.askBound .isFunction
  | call args => exact (ht.invoke e args).bind fun r => ht.unhold e r
  | propertyNames => exact ht.unlocked e (ht.askBound .properties)
  | toPrimitive hint =>
    refine Settles.map ?_ fun _ => rfl
    cases hint with
    | number => exact .pure .rfl
    | _ => exact (ht.askBound .stringValue).bind fun _ => .pure .rfl

end Requests

end EmbeddedScript.Machine.Thrifty
