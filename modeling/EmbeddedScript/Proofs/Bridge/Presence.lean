import EmbeddedScript.Proofs.Bridge.Methods
import EmbeddedScript.Proofs.Machine.Presence

/-!
# Absent and undefined properties

`ScriptValue.property` tells a property that is `undefined` from one that is absent by
listing the names of the object. For an object without a host that settles it.

For a wrapper it settles something else. What a bound object confirms and what it lists are
separate answers of its own: one that confirms a field, has nothing in it and does not list
it is said not to have it, and one that lists a name without confirming it is said to have
it. So `ScriptValue.property` is right about a wrapper just when the name does not read as
`undefined`, or is listed if and only if it was found.
-/

namespace EmbeddedScript

open Act Machine

variable {κ : Type} {m : Machine κ} {w w' w₁ : World κ} {e : EngineId} {h : Handle}
  {host : NativeId} {a : Adapter} {name : String}

/-! ## Members that bound objects confirm -/

/-- **The bound object has confirmed the member**, and its class remembers it, or it confirms
it when it is asked. -/
def Machine.Confirms (m : Machine κ) (kind : MemberKind) (c : ClassId) (bound : NativeId)
    (name : String) (w : World κ) : Prop :=
  (∃ d, w.recalls? c kind name = some d) ∨ ∃ w', m.confirm kind bound name w = .ok true w'

/-- What a bound object that has not confirmed the member says now. -/
theorem Machine.confirms_iff {kind : MemberKind} {c : ClassId} {bound : NativeId} {yes : Bool}
    (hnone : w.recalls? c kind name = none)
    (hasked : m.confirm kind bound name w = .ok yes w₁) :
    m.Confirms kind c bound name w ↔ yes = true := by
  constructor
  · rintro (⟨d, hd⟩ | ⟨w₂, hyes⟩)
    · rw [hnone] at hd
      cases hd
    · exact (EStateM.Result.ok.inj (hasked.symm.trans hyes)).1
  · rintro rfl
    exact .inr ⟨w₁, hasked⟩

/-- **A member is found when it is confirmed.** -/
theorem Machine.confirms_of_find {kind : MemberKind} {c : ClassId} {bound : NativeId}
    {owned rest : List Local} {r : Option Descriptor}
    (h : m.eval (kind.find c e bound name) owned w = .ok (r, rest) w') :
    r.isSome = true ↔ m.Confirms kind c bound name w := by
  -- what is left of a lookup once the bound object has answered
  have hfound : ∀ {yes : Bool} {w₁ : World κ},
      m.eval (if yes then some <$> Program.locked e (Program.op (.intern c kind name))
        else pure none) owned w₁ = .ok (r, rest) w' → (r.isSome = true ↔ yes = true) := by
    intro yes w₁ h
    cases yes with
    | true =>
      obtain ⟨d, -, rfl⟩ := eval_map_eq_ok.1 h
      exact iff_of_true rfl rfl
    | false =>
      obtain ⟨rfl, -, -⟩ := eval_pure_eq_ok.1 h
      exact iff_of_false nofun nofun
  obtain ⟨cached, rest₁, w₁, hop, hrest⟩ := eval_bind_eq_ok.1 h
  obtain ⟨rfl, hcached⟩ := eval_op_eq_ok.1 hop
  obtain ⟨rfl, rfl⟩ : w.recalls? c kind name = cached ∧ w = w₁ := EStateM.Result.ok.inj hcached
  cases hd : w.recalls? c kind name with
  | some d =>
    rw [hd] at hrest
    obtain ⟨rfl, -, -⟩ := eval_pure_eq_ok.1 hrest
    exact iff_of_true rfl (.inl ⟨d, hd⟩)
  | none =>
    rw [hd] at hrest
    cases kind with
    | method =>
      obtain ⟨yes, rest₂, w₂, hasked, hyes⟩ := eval_bind_eq_ok.1 hrest
      obtain ⟨rfl, hconfirm⟩ := eval_op_eq_ok.1 hasked
      exact (hfound hyes).trans (confirms_iff hd hconfirm).symm
    | field =>
      obtain ⟨yes, rest₂, w₂, hasked, hyes⟩ := eval_bind_eq_ok.1 hrest
      obtain ⟨rfl, hconfirm⟩ := eval_op_eq_ok.1 hasked
      exact (hfound hyes).trans (confirms_iff hd hconfirm).symm

/-- **What an adapter has by then**: its class, and the world in which it has looked its
class up, once it is on record that it was asked. -/
def World.classed (w : World κ) (host : NativeId) (a : Adapter) (e : EngineId)
    (r : HostRequest) : ClassId × World κ :=
  (w.record (.asked host (.host e r) w.postures)).adapterClass host a

/-- A program that looks up the class of an adapter goes on from there. -/
theorem Machine.eval_adapterClass {α : Type} {f : ClassId → Program κ α} {owned : List Local}
    {r : α × List Local} (hn : w.native? host = some (.adapter a))
    (h : m.eval (Program.op (.adapterClass host) >>= f) owned w = .ok r w') :
    m.eval (f (w.adapterClass host a).1) owned (w.adapterClass host a).2 = .ok r w' := by
  obtain ⟨c, rest, w₁, hop, hrest⟩ := eval_bind_eq_ok.1 h
  obtain ⟨rfl, hclass⟩ := eval_op_eq_ok.1 hop
  rw [Behaviour.perform_adapterClass m hn] at hclass
  obtain ⟨rfl, rfl⟩ := EStateM.Result.ok.inj hclass
  exact hrest

namespace Behaviour

variable {b : Behaviour κ} {depth : Nat}

/-- **An adapter answers for a field when the bound object confirms it.** -/
theorem isSome_of_getProperty {p : Option Value} (hn : w.native? host = some (.adapter a))
    (hp : (b.machine (depth + 1)).askHost e host (.getProperty name) w = .ok (.ok p) w') :
    p.isSome = true ↔ (b.machine depth).Confirms .field
      (w.classed host a e (.getProperty name)).1 a.bound name
      (w.classed host a e (.getProperty name)).2 := by
  rw [askHost_of_adapter b depth e _ hn] at hp
  obtain ⟨rest, w₁, hanswer, -⟩ := run_eq_ok.1 hp
  obtain ⟨q, rest₁, w₂, hproperty, hp⟩ := eval_bind_eq_ok.1 hanswer
  obtain ⟨r, rest₂, w₃, hfield, hq⟩ := eval_bind_eq_ok.1 hproperty
  have hfind := eval_adapterClass (w := w.record _) hn hfield
  refine Iff.trans ?_ (confirms_of_find hfind)
  cases r with
  | none =>
    obtain ⟨rfl, -, -⟩ := eval_pure_eq_ok.1 hq
    obtain ⟨hnone, -, -⟩ := eval_pure_eq_ok.1 hp
    rw [Except.ok.inj hnone]
    rfl
  | some d =>
    -- a field that is found is read, and what is read is handed out
    obtain ⟨v, -, rfl⟩ := eval_map_eq_ok.1 hq
    cases v with
    | ok s =>
      obtain ⟨x, -, hx⟩ := eval_map_eq_ok.1 hp
      cases x with
      | ok v =>
        rw [Except.ok.inj hx]
        rfl
      | error err => cases hx
    | error err =>
      obtain ⟨thrown, -, hthrown⟩ := eval_map_eq_ok.1 hp
      cases hthrown

/-- **An adapter has a method when the bound object confirms it.** -/
theorem eq_true_of_hasMethod {q : Bool} (hn : w.native? host = some (.adapter a))
    (hq : (b.machine (depth + 1)).askHost e host (.hasMethod name) w = .ok q w') :
    q = true ↔ (b.machine depth).Confirms .method
      (w.classed host a e (.hasMethod name)).1 a.bound name
      (w.classed host a e (.hasMethod name)).2 := by
  rw [askHost_of_adapter b depth e _ hn] at hq
  obtain ⟨rest, w₁, hanswer, -⟩ := run_eq_ok.1 hq
  obtain ⟨ds, rest₁, w₂, hmethods, hq⟩ := eval_bind_eq_ok.1 hanswer
  obtain ⟨rfl, -, -⟩ := eval_pure_eq_ok.1 hq
  have hnamed := eval_adapterClass (w := w.record _) hn hmethods
  obtain ⟨r, hfind, rfl⟩ := eval_map_eq_ok.1 hnamed
  refine Iff.trans ?_ (confirms_of_find hfind)
  cases r <;> simp

end Behaviour

/-! ## The program of a property -/

/-- An object that has no host has a kind without being asked. -/
theorem Machine.kind_of_hostless {o : HeapObject} (m : Machine κ)
    (hl : (w.engine e).loan.allowsRead = true) (hg : (w.engine e).heap.get? h = some o)
    (ho : o.hostless = true) :
    m.perform (.kind e (.object h)) w = .ok (some (o.kind false)) w := by
  show m.kind e (.object h) w = _
  refine bind_eq_ok.2 ⟨some o, w, ?_, ?_⟩
  · rw [readHeap_of_allowsRead hl, hg]
  · cases o with
    | host id expandos => cases ho
    | _ => rfl

/-- Objects of all kinds have properties. -/
theorem ValueType.isObjectLike_of_kind (h : Handle) (k : ObjectKind) :
    (ValueType.of (.object h) (some k)).isObjectLike = true := by
  cases k <;> rfl

namespace ScriptValue

variable {s : ScriptValue} {x : Value} {owned rest : List Local}

/-- **A value is held**, and rooted from then on. -/
def Holds (e : EngineId) (x : Value) (w : World κ)
    (r : Except BridgeError (Option ScriptValue)) (w' : World κ) : Prop :=
  r = .ok (some { root := (w.addRoot e x).1 }) ∧ w' = (w.addRoot e x).2

/-- **What becomes of `undefined`** when these names are listed: it is held if the name is
among them. -/
def Decides (e : EngineId) (name : String) (l : Except EngineError (List String)) (w : World κ)
    (r : Except BridgeError (Option ScriptValue)) (w' : World κ) : Prop :=
  match l with
  | .error err => r = .error (.engine err) ∧ w' = w
  | .ok names =>
    if name ∈ names then Holds e .undefined w r w' else r = .ok none ∧ w' = w

/-- **What becomes of what was read**: a value is held, and of `undefined` the listing
decides. -/
def Presents (m : Machine κ) (s : ScriptValue) (name : String) (g : Except EngineError Value)
    (w : World κ) (r : Except BridgeError (Option ScriptValue)) (w' : World κ) : Prop :=
  match g with
  | .error err => r = .error (.engine err) ∧ w' = w
  | .ok .undefined =>
    ∃ l w₁, (m.names s.engine s.value).run w = .ok l w₁ ∧ Decides s.engine name l w₁ r w'
  | .ok x => Holds s.engine x w r w'

/-- The held value is of a type that is accepted, and nothing else is looked at. -/
theorem eval_expect_eq_ok {accepts : ValueType → Bool} {operation : String} {u : Unit} :
    m.eval (s.expect accepts operation) owned w = .ok (u, rest) w' ↔
      rest = owned ∧ ∃ t, m.perform (.kind s.engine s.value) w = .ok t w'
        ∧ accepts (ValueType.of s.value t) = true := by
  constructor
  · intro hexpect
    obtain ⟨type, rest₁, w₁, htype, hpanic⟩ := eval_bind_eq_ok.1 hexpect
    obtain ⟨t, hop, rfl⟩ := eval_map_eq_ok.1 htype
    obtain ⟨rfl, hkind⟩ := eval_op_eq_ok.1 hop
    cases haccepts : accepts (ValueType.of s.value t) with
    | true =>
      rw [if_pos haccepts] at hpanic
      obtain ⟨-, rfl, rfl⟩ := eval_pure_eq_ok.1 hpanic
      exact ⟨rfl, t, hkind, haccepts⟩
    | false =>
      rw [if_neg (by rw [haccepts]; exact Bool.false_ne_true)] at hpanic
      cases hpanic
  · rintro ⟨rfl, t, hkind, haccepts⟩
    refine eval_bind_eq_ok.2 ⟨ValueType.of s.value t, rest, w', ?_, ?_⟩
    · exact eval_map_eq_ok.2 ⟨t, eval_op_eq_ok.2 ⟨rfl, hkind⟩, rfl⟩
    · rw [if_pos haccepts]
      exact eval_pure_eq_ok.2 ⟨rfl, rfl, rfl⟩

/-- The held value has properties if its type says so. -/
theorem eval_expectObject_eq_ok {u : Unit} :
    m.eval s.expectObject owned w = .ok (u, rest) w' ↔
      rest = owned ∧ ∃ t, m.perform (.kind s.engine s.value) w = .ok t w'
        ∧ (ValueType.of s.value t).isObjectLike = true :=
  eval_expect_eq_ok

theorem eval_held_eq_ok {r : Except BridgeError (Option ScriptValue)} :
    m.eval (Except.ok <$> some <$> adopt e x) owned w = .ok (r, rest) w' ↔
      rest = owned ∧ Holds e x w r w' := by
  constructor
  · intro hheld
    obtain ⟨q, hsome, rfl⟩ := eval_map_eq_ok.1 hheld
    obtain ⟨held, hadopt, rfl⟩ := eval_map_eq_ok.1 hsome
    obtain ⟨root, rest₁, w₁, hop, hroot⟩ := eval_bind_eq_ok.1 hadopt
    obtain ⟨rfl, rfl, rfl⟩ := eval_pure_eq_ok.1 hroot
    obtain ⟨rfl, hperform⟩ := eval_op_eq_ok.1 hop
    obtain ⟨rfl, rfl⟩ := EStateM.Result.ok.inj hperform
    exact ⟨rfl, rfl, rfl⟩
  · rintro ⟨rfl, rfl, rfl⟩
    have hadopt : m.eval (adopt e x) rest w
        = .ok ({ root := (w.addRoot e x).1 }, rest) (w.addRoot e x).2 :=
      eval_bind_eq_ok.2 ⟨_, _, _, eval_op_eq_ok.2 ⟨rfl, rfl⟩, eval_pure_eq_ok.2 ⟨rfl, rfl, rfl⟩⟩
    exact eval_map_eq_ok.2 ⟨_, eval_map_eq_ok.2 ⟨_, hadopt, rfl⟩, rfl⟩

/-- What is left to do when the names have been listed. -/
def decided (e : EngineId) (name : String) :
    Except EngineError (List String) → Program κ (Except BridgeError (Option ScriptValue))
  | .error err => pure (.error (.engine err))
  | .ok names =>
    if names.contains name then .ok <$> some <$> adopt e .undefined else pure (.ok none)

/-- What is left to do when the name has been read. -/
def presented (s : ScriptValue) (name : String) :
    Except EngineError Value → Program κ (Except BridgeError (Option ScriptValue))
  | .error err => pure (.error (.engine err))
  | .ok .undefined => Program.op (.names s.engine s.value) >>= decided s.engine name
  | .ok x => .ok <$> some <$> adopt s.engine x

theorem property_eq (s : ScriptValue) (name : String) :
    (s.property name : Program κ _) = s.expectObject >>= fun _ =>
      Program.op (.get s.engine s.value name) >>= s.presented name := by
  unfold property
  refine congrArg (s.expectObject >>= ·) (funext fun _ => ?_)
  refine congrArg (Program.op (.get s.engine s.value name) >>= ·) (funext fun g => ?_)
  rcases g with err | x
  · rfl
  · cases x with
    | undefined =>
      refine congrArg (Program.op (.names s.engine s.value) >>= ·) (funext fun l => ?_)
      cases l <;> rfl
    | _ => rfl

theorem eval_decided_eq_ok {l : Except EngineError (List String)}
    {r : Except BridgeError (Option ScriptValue)} :
    m.eval (decided e name l) owned w = .ok (r, rest) w' ↔
      rest = owned ∧ Decides e name l w r w' := by
  cases l with
  | error err => exact eval_pure_eq_ok.trans and_left_comm
  | ok names =>
    by_cases hname : name ∈ names
    · simp only [decided, Decides, List.contains_iff_mem, hname, if_true]
      exact eval_held_eq_ok
    · simp only [decided, Decides, List.contains_iff_mem, hname, if_false]
      exact eval_pure_eq_ok.trans and_left_comm

theorem eval_presented_eq_ok {g : Except EngineError Value}
    {r : Except BridgeError (Option ScriptValue)} :
    m.eval (s.presented name g) owned w = .ok (r, rest) w' ↔
      rest = owned ∧ s.Presents m name g w r w' := by
  cases g with
  | error err => exact eval_pure_eq_ok.trans and_left_comm
  | ok x =>
    cases x with
    | undefined =>
      refine eval_bind_eq_ok.trans ⟨?_, ?_⟩
      · rintro ⟨l, rest₁, w₁, hop, hdecided⟩
        obtain ⟨rfl, hnames⟩ := eval_op_eq_ok.1 hop
        obtain ⟨rfl, hdecides⟩ := eval_decided_eq_ok.1 hdecided
        exact ⟨rfl, l, w₁, hnames, hdecides⟩
      · rintro ⟨rfl, l, w₁, hnames, hdecides⟩
        exact ⟨l, rest, w₁, eval_op_eq_ok.2 ⟨rfl, hnames⟩, eval_decided_eq_ok.2 ⟨rfl, hdecides⟩⟩
    | _ => exact eval_held_eq_ok

/-- **The property of a name** is what becomes of what is read under it, once the type of
the held value has been looked at. -/
theorem run_property_eq_ok {r : Except BridgeError (Option ScriptValue)} :
    m.run (s.property name) [] w = .ok r w' ↔
      ∃ t w₁ g w₂, m.perform (.kind s.engine s.value) w = .ok t w₁
        ∧ (ValueType.of s.value t).isObjectLike = true
        ∧ (m.get s.engine s.value name).run w₁ = .ok g w₂ ∧ s.Presents m name g w₂ r w' := by
  rw [property_eq, run_eq_ok]
  constructor
  · rintro ⟨rest, w₃, hproperty, hunwind⟩
    obtain ⟨u, rest₁, w₁, hexpect, hread⟩ := eval_bind_eq_ok.1 hproperty
    obtain ⟨rfl, t, hkind, hlike⟩ := eval_expectObject_eq_ok.1 hexpect
    obtain ⟨g, rest₂, w₂, hop, hpresented⟩ := eval_bind_eq_ok.1 hread
    obtain ⟨rfl, hget⟩ := eval_op_eq_ok.1 hop
    obtain ⟨rfl, hpresents⟩ := eval_presented_eq_ok.1 hpresented
    obtain ⟨-, rfl⟩ := pure_eq_ok.1 hunwind
    exact ⟨t, w₁, g, w₂, hkind, hlike, hget, hpresents⟩
  · rintro ⟨t, w₁, g, w₂, hkind, hlike, hget, hpresents⟩
    refine ⟨[], w', ?_, rfl⟩
    refine eval_bind_eq_ok.2 ⟨(), [], w₁, eval_expectObject_eq_ok.2 ⟨rfl, t, hkind, hlike⟩, ?_⟩
    refine eval_bind_eq_ok.2 ⟨g, [], w₂, eval_op_eq_ok.2 ⟨rfl, hget⟩, ?_⟩
    exact eval_presented_eq_ok.2 ⟨rfl, hpresents⟩

/-! ## When it is right -/

theorem presents_of_ne {r : Except BridgeError (Option ScriptValue)} (hx : x ≠ .undefined) :
    s.Presents m name (.ok x) w r w' ↔ Holds s.engine x w r w' := by
  cases x with
  | undefined => exact absurd rfl hx
  | _ => rfl

/-- **An object without a host** has the property, and its value is held, or has not. -/
theorem run_property_of_hostless {o : HeapObject} (hs : s.value = .object h)
    (hl : (w.engine s.engine).loan.allowsRead = true)
    (hg : (w.engine s.engine).heap.get? h = some o) (ho : o.hostless = true) :
    (o.Has name → ∃ r w', m.run (s.property name) [] w = .ok r w'
        ∧ Holds s.engine (ownProperty o name) w r w')
      ∧ (¬ o.Has name → m.run (s.property name) [] w = .ok (.ok none) w) := by
  have hkind : m.perform (.kind s.engine s.value) w = .ok (some (o.kind false)) w := by
    rw [hs]
    exact kind_of_hostless m hl hg ho
  have hlike : (ValueType.of s.value (some (o.kind false))).isObjectLike = true := by
    rw [hs]
    exact ValueType.isObjectLike_of_kind h _
  have hget : (m.get s.engine s.value name).run w = .ok (.ok (ownProperty o name)) w := by
    rw [hs]
    exact get_of_hostless m name hl hg ho
  have hnames : (m.names s.engine s.value).run w = .ok (.ok (ownNames o)) w := by
    rw [hs]
    exact names_of_hostless m hl hg ho
  have hrun : ∀ {r w'}, s.Presents m name (.ok (ownProperty o name)) w r w' →
      m.run (s.property name) [] w = .ok r w' := fun hpresents =>
    run_property_eq_ok.2 ⟨_, w, _, w, hkind, hlike, hget, hpresents⟩
  by_cases hx : ownProperty o name = .undefined
  · rw [hx] at hrun ⊢
    refine ⟨fun hhas => ⟨_, _, hrun ⟨_, w, hnames, ?_⟩, rfl, rfl⟩, fun hhas =>
      hrun ⟨_, w, hnames, ?_⟩⟩
    · exact (if_pos ((mem_ownNames_iff hx).2 hhas)).mpr ⟨rfl, rfl⟩
    · exact (if_neg fun hmem => hhas ((mem_ownNames_iff hx).1 hmem)).mpr ⟨rfl, rfl⟩
  · exact ⟨fun _ => ⟨_, _, hrun ((presents_of_ne hx).2 ⟨rfl, rfl⟩), rfl, rfl⟩,
      fun hhas => absurd (has_of_ownProperty hx) hhas⟩

theorem eq_none_iff_of_decides {names : List String} {q : Option ScriptValue}
    (hd : Decides e name (.ok names) w (.ok q) w') : q = none ↔ name ∉ names := by
  by_cases hname : name ∈ names
  · obtain ⟨hq, -⟩ := (if_pos hname).mp hd
    rw [Except.ok.inj hq]
    exact iff_of_false nofun (not_not_intro hname)
  · obtain ⟨hq, -⟩ := (if_neg hname).mp hd
    exact iff_of_true (Except.ok.inj hq) hname

/-- **For a wrapper the answer is right** unless the name reads as `undefined` and is listed
though nothing was found, or is not though something was. -/
theorem eq_none_iff_of_presents {g : Except EngineError Value} {found : Finding}
    {q : Option ScriptValue} (hgives : Finding.Gives (.ok found) g)
    (hp : s.Presents m name g w (.ok q) w') :
    (q = none ↔ found.present = false) ↔
      ¬ ∃ names w₁, g = .ok .undefined ∧ (m.names s.engine s.value).run w = .ok (.ok names) w₁
        ∧ (name ∈ names ↔ found.present = false) := by
  cases g with
  | error err => cases hp.1
  | ok x =>
    by_cases hx : x = .undefined
    · subst hx
      obtain ⟨l, w₁, hnames, hdecides⟩ := hp
      cases l with
      | error err => cases hdecides.1
      | ok names =>
        have hlisted : (∃ names' w₂, Except.ok (ε := EngineError) Value.undefined = .ok .undefined
            ∧ (m.names s.engine s.value).run w = .ok (.ok names') w₂
            ∧ (name ∈ names' ↔ found.present = false)) ↔
            (name ∈ names ↔ found.present = false) := by
          constructor
          · rintro ⟨names', w₂, -, hnames', hsame⟩
            obtain ⟨hl, -⟩ := EStateM.Result.ok.inj (hnames.symm.trans hnames')
            rwa [Except.ok.inj hl]
          · intro hsame
            exact ⟨names, w₁, rfl, hnames, hsame⟩
        rw [hlisted, eq_none_iff_of_decides hdecides]
        tauto
    · obtain ⟨hq, -⟩ := (presents_of_ne hx).1 hp
      rw [Except.ok.inj hq, Finding.present_of_gives hgives hx]
      refine iff_of_true (iff_of_false nofun nofun) ?_
      rintro ⟨names, w₁, hundefined, -⟩
      exact hx (Except.ok.inj hundefined)

/-- **When a property is absent and when it is undefined.**

* An object without a host that is live is read as what it holds under the name. If it has
  the name, that value is held, also if it is `undefined`; otherwise the property is absent.
* For any held value, once its type was looked at, the name is read. An error is passed on,
  and a value is held; where `undefined` was read, the names are listed then, and if the
  listing succeeds, `undefined` is held if the name is listed and the property is absent if
  it is not. Nothing else can come of it.
* Reading a wrapper looks for the name and gives what is found. Whether it was found is what
  makes the property present or absent, *except* where it reads as `undefined` and the
  listing disagrees: then, and only then, it is the other way round.
* What is found is for the host to say, and what is listed for the host and the wrapper.
* A host that is an adapter answers for a field, and has a method, when the bound object
  confirms it or has confirmed it before. -/
theorem property_presence (name : String) :
    (∀ (m : Machine κ) (s : ScriptValue) (h : Handle) (o : HeapObject) (w : World κ),
        s.value = .object h → (w.engine s.engine).loan.allowsRead = true →
        (w.engine s.engine).heap.get? h = some o → o.hostless = true →
        ∃ x, (m.get s.engine s.value name).run w = .ok (.ok x) w
          ∧ (o.Has name → ∃ r w', m.run (s.property name) [] w = .ok r w'
            ∧ Holds s.engine x w r w')
          ∧ (¬ o.Has name → m.run (s.property name) [] w = .ok (.ok none) w))
      ∧ (∀ (m : Machine κ) (s : ScriptValue) (w w' : World κ)
        (r : Except BridgeError (Option ScriptValue)),
        m.run (s.property name) [] w = .ok r w' ↔
          ∃ t w₁ g w₂, m.perform (.kind s.engine s.value) w = .ok t w₁
            ∧ (ValueType.of s.value t).isObjectLike = true
            ∧ (m.get s.engine s.value name).run w₁ = .ok g w₂
            ∧ s.Presents m name g w₂ r w')
      ∧ (∀ (m : Machine κ) (s : ScriptValue) (h : Handle) (host : NativeId)
        (expandos : Properties Value) (w w' : World κ) (g : Except EngineError Value),
        s.value = .object h → (w.engine s.engine).loan.allowsRead = true →
        (w.engine s.engine).heap.get? h = some (.host host expandos) →
        (m.get s.engine s.value name).run w = .ok g w' →
        ∃ f u, (m.inspect s.engine h host name).run (w.entered s.engine host [.object h])
            = .ok f u
          ∧ Finding.Gives f g
          ∧ ∀ found q w₁, f = .ok found → s.Presents m name g w' (.ok q) w₁ →
            ((q = none ↔ found.present = false) ↔
              ¬ ∃ names w₂, g = .ok .undefined
                ∧ (m.names s.engine s.value).run w' = .ok (.ok names) w₂
                ∧ (name ∈ names ↔ found.present = false)))
      ∧ (∀ (m : Machine κ) (e : EngineId) (h : Handle) (host : NativeId) (w w' : World κ)
        (found : Finding),
        (m.inspect e h host name).run w = .ok (.ok found) w' →
        ∃ p w₁, m.askHost e host (.getProperty name) w = .ok (.ok p) w₁
          ∧ (∀ v, p = some v ↔ found = .field v)
          ∧ (p = none → ∃ q w₂, m.askHost e host (.hasMethod name) w₁ = .ok q w₂
            ∧ (q = true ↔ found = .method)
            ∧ (q = false → found = .own (w₂.ownEntry e h name))))
      ∧ (∀ (m : Machine κ) (e : EngineId) (h : Handle) (host : NativeId)
        (expandos : Properties Value) (w w' : World κ) (names : List String),
        (w.engine e).loan.allowsRead = true →
        (w.engine e).heap.get? h = some (.host host expandos) →
        (m.names e (.object h)).run w = .ok (.ok names) w' →
        ∃ contributed w₁, m.askHost e host .propertyNames (w.entered e host [.object h])
            = .ok contributed w₁
          ∧ (name ∈ names ↔ name ∈ contributed ∨ (w₁.ownEntry e h name).isSome = true))
      ∧ (∀ (b : Behaviour κ) (depth : Nat) (e : EngineId) (host : NativeId) (a : Adapter)
        (w w' : World κ), w.native? host = some (.adapter a) →
        (∀ p, (b.machine (depth + 1)).askHost e host (.getProperty name) w = .ok (.ok p) w' →
          (p.isSome = true ↔ (b.machine depth).Confirms .field
            (w.classed host a e (.getProperty name)).1 a.bound name
            (w.classed host a e (.getProperty name)).2))
        ∧ ∀ q, (b.machine (depth + 1)).askHost e host (.hasMethod name) w = .ok q w' →
          (q = true ↔ (b.machine depth).Confirms .method
            (w.classed host a e (.hasMethod name)).1 a.bound name
            (w.classed host a e (.hasMethod name)).2)) := by
  refine ⟨?_, fun m s w w' r => run_property_eq_ok, ?_,
    fun m e h host w w' found hf => answers_of_inspect hf, ?_,
    fun b depth e host a w w' hn => ⟨fun p hp => Behaviour.isSome_of_getProperty hn hp,
      fun q hq => Behaviour.eq_true_of_hasMethod hn hq⟩⟩
  · intro m s h o w hs hl hg ho
    refine ⟨ownProperty o name, ?_, run_property_of_hostless hs hl hg ho⟩
    rw [hs]
    exact get_of_hostless m name hl hg ho
  · intro m s h host expandos w w' g hs hl hg hget
    rw [hs] at hget
    obtain ⟨f, u, hf, hgives⟩ := exists_inspect_of_get hl hg hget
    exact ⟨f, u, hf, hgives, fun found q w₁ hfound hp =>
      eq_none_iff_of_presents (hfound ▸ hgives) hp⟩
  · intro m e h host expandos w w' names hl hg hn
    obtain ⟨contributed, w₁, hc, hmem⟩ := mem_of_names hl hg hn
    exact ⟨contributed, w₁, hc, hmem name⟩

end ScriptValue

/-- Bound objects that have every field, with nothing in it, and list none. -/
def Behaviour.reticent : Behaviour Unit where
  answer _ _
    | .bound .isFunction => .done false
    | .bound (.hasProperty _) => .done true
    | .bound (.getProperty _) => .done .void
    | .bound .properties => .done []
    | _ => .panic .noAnswer
  finaliser _ := .done ()

/-- The world in which the wrapper of such an object is held, beside a plain object that
holds `undefined`. -/
def World.reticent : World Unit :=
  ((Behaviour.reticent.machine 3).run (do
    let bound ← Program.op (.spawn (.custom ()))
    let registry ← Program.op (.newRegistry 1)
    let _ ← ScriptValue.adoptResult ⟨0⟩ (← Program.expose ⟨0⟩ registry bound)
    match ← Program.op (.createObject ⟨0⟩) with
    | .ok v =>
      let _ ← Program.op (.set ⟨0⟩ v "x" .undefined)
      let _ ← ScriptValue.adopt ⟨0⟩ v
    | .error _ => .panic .noAnswer) []).after {}

namespace ScriptValue

/-- The bound object confirms the field, and it is there to be read; the property is absent
all the same. -/
theorem property_presence_unlisted :
    ∃ w₁ w' w'' : World Unit, World.reticent.Reachable
      ∧ (⟨0, ⟨0⟩, .object ⟨0, 0⟩⟩ : Root) ∈ World.reticent.roots
      ∧ (World.reticent.engine ⟨0⟩).heap.get? ⟨0, 0⟩ = some (.host ⟨1⟩ .empty)
      ∧ World.reticent.adapter? ⟨1⟩ = some ⟨⟨0⟩, ⟨0⟩, none⟩
      ∧ (Behaviour.reticent.machine 3).confirm .field ⟨0⟩ "x" World.reticent = .ok true w₁
      ∧ ((Behaviour.reticent.machine 3).get ⟨0⟩ (.object ⟨0, 0⟩) "x").run World.reticent
        = .ok (.ok .undefined) w'
      ∧ (Behaviour.reticent.machine 3).run
          (property { root := ⟨0, ⟨0⟩, .object ⟨0, 0⟩⟩ } "x") [] World.reticent
        = .ok (.ok none) w'' := by
  have hconfirm : ((Behaviour.reticent.machine 3).confirm .field ⟨0⟩ "x").finishes
      World.reticent (fun yes _ => yes) = true := by decide +kernel
  have hget : ((Behaviour.reticent.machine 3).get ⟨0⟩ (.object ⟨0, 0⟩) "x").run.finishes
      World.reticent (fun g _ => g.toOption = some .undefined) = true := by decide +kernel
  have hrun : ((Behaviour.reticent.machine 3).run
      (property { root := ⟨0, ⟨0⟩, .object ⟨0, 0⟩⟩ } "x") []).finishes World.reticent
        (fun r _ => r.toOption = some none) = true := by decide +kernel
  obtain ⟨yes, w₁, hconfirm, hyes⟩ := exists_of_finishes hconfirm
  obtain ⟨g, w', hget, hg⟩ := exists_of_finishes hget
  obtain ⟨r, w'', hrun, hr⟩ := exists_of_finishes hrun
  obtain rfl : yes = true := hyes
  obtain rfl : g = .ok .undefined := by cases g <;> simp_all [Except.toOption]
  obtain rfl : r = .ok none := by cases r <;> simp_all [Except.toOption]
  exact ⟨w₁, w', w'', (Behaviour.reticent.reaches_run 3 _ [] .init).1, by decide +kernel,
    by decide +kernel, by decide +kernel, hconfirm, hget, hrun⟩

/-- The plain object has what it holds and nothing else, and a read of the wrapper finds
`undefined`. -/
theorem property_presence_held :
    (∃ r w', (Behaviour.reticent.machine 3).run
          (property { root := ⟨1, ⟨0⟩, .object ⟨1, 0⟩⟩ } "x") [] World.reticent = .ok r w'
        ∧ r.toOption.join.isSome = true)
      ∧ (Behaviour.reticent.machine 3).run
          (property { root := ⟨1, ⟨0⟩, .object ⟨1, 0⟩⟩ } "y") [] World.reticent
        = .ok (.ok none) World.reticent
      ∧ ∃ f u, ((Behaviour.reticent.machine 3).inspect ⟨0⟩ ⟨0, 0⟩ ⟨1⟩ "x").run
          (World.reticent.entered ⟨0⟩ ⟨1⟩ [.object ⟨0, 0⟩]) = .ok f u
        ∧ Finding.Gives f (.ok .undefined) := by
  have hplain : (World.reticent.engine ⟨0⟩).heap.get? ⟨1, 0⟩
      = some (.plain (Properties.empty.set "x" .undefined)) := by decide +kernel
  have hreads : (World.reticent.engine ⟨0⟩).loan.allowsRead = true := by decide +kernel
  obtain ⟨hx, -, hwrapper, -⟩ := property_presence (κ := Unit) "x"
  obtain ⟨hy, -⟩ := property_presence (κ := Unit) "y"
  refine ⟨?_, ?_, ?_⟩
  · obtain ⟨x, -, hhas, -⟩ := hx (Behaviour.reticent.machine 3)
      { root := ⟨1, ⟨0⟩, .object ⟨1, 0⟩⟩ } ⟨1, 0⟩ _ World.reticent rfl hreads hplain rfl
    obtain ⟨r, w', hrun, rfl, -⟩ := hhas ⟨.undefined, by simp⟩
    exact ⟨_, w', hrun, rfl⟩
  · obtain ⟨x, -, -, habsent⟩ := hy (Behaviour.reticent.machine 3)
      { root := ⟨1, ⟨0⟩, .object ⟨1, 0⟩⟩ } ⟨1, 0⟩ _ World.reticent rfl hreads hplain rfl
    refine habsent ?_
    rintro ⟨v, hv⟩
    rw [Properties.get?_set_of_ne _ (by decide), Properties.get?_empty] at hv
    cases hv
  · have hget : ((Behaviour.reticent.machine 3).get ⟨0⟩ (.object ⟨0, 0⟩) "x").run.finishes
        World.reticent (fun g _ => g.toOption = some .undefined) = true := by decide +kernel
    obtain ⟨g, w', hget, hg⟩ := exists_of_finishes hget
    obtain rfl : g = .ok .undefined := by cases g <;> simp_all [Except.toOption]
    obtain ⟨f, u, hf, hgives, -⟩ := hwrapper (Behaviour.reticent.machine 3)
      { root := ⟨0, ⟨0⟩, .object ⟨0, 0⟩⟩ } ⟨0, 0⟩ ⟨1⟩ .empty World.reticent w' _ rfl hreads
      (by decide +kernel) hget
    exact ⟨f, u, hf, hgives⟩

end ScriptValue

end EmbeddedScript
