import EmbeddedScript.Proofs.Bridge.Capabilities
import EmbeddedScript.Proofs.Bridge.Failures
import EmbeddedScript.Proofs.Machine.Performing

/-!
# What can be called

Whether a value can be called is decided in several places: when its kind is looked at, when
native code asks for the type of a script value or asks a proxy whether it is a function, and
when it is called. Whoever asks first and calls then relies on these to agree.

They agree because they look at the same object, and a host says itself whether it can be
called. It is asked each time, and it would not do to say yes once and no the next time; so what
is assumed of it is that it gives **the same answer in the worlds that a question can find it
in** (`Machine.Steadfast`): those that differ by the locks, the roots, the loans and the shares
that are taken around a question. What else the host does when it is asked is its own affair.

An adapter asks its bound object, and asks it again before it invokes it. So a call that got as
far as the adapter comes to the invocation (`Behaviour.performs_invoke`).
-/

namespace EmbeddedScript

open Act Machine

variable {κ α : Type} {m : Machine κ} {w w' w₁ : World κ} {e : EngineId} {v this : Value}
  {args : List Value} {h : Handle} {host : NativeId} {expandos : Properties Value}
  {Among : World κ → Prop} {callable : Bool}

/-! ## Worlds in which a question is asked -/

/-- **The worlds differ by what is taken around a question** at most: by locks, roots and loans,
by shares of natives, and by what is on record. A heap that can be read can be read. -/
structure World.Around (w w' : World κ) : Prop where
  /-- Engines have the heaps that they had. -/
  heap : ∀ e, (w'.engine e).heap = (w.engine e).heap
  /-- A heap that could be read can be read. -/
  loan : ∀ e, (w.engine e).loan.allowsRead = true → (w'.engine e).loan.allowsRead = true
  /-- Natives are in the states that they were in. -/
  native? : ∀ id, w'.native? id = w.native? id
  /-- They have the owners that they had, and perhaps more. -/
  owners : ∀ id, w.owners id ≤ w'.owners id
  /-- Beside engines, natives and the journal, everything is as it was. -/
  beside : w' = { w with engines := w'.engines, natives := w'.natives, journal := w'.journal }

namespace World

theorem Around.trans (h : w.Around w₁) (h₁ : w₁.Around w') : w.Around w' where
  heap e := (h₁.heap e).trans (h.heap e)
  loan e hl := h₁.loan e (h.loan e hl)
  native? id := (h₁.native? id).trans (h.native? id)
  owners id := (h.owners id).trans (h₁.owners id)
  beside := by rw [h₁.beside, h.beside]

/-- An engine may do what it likes with everything but its heap, if it does not lend that to a
writer. -/
theorem around_modifyEngine {f : Engine → Engine}
    (hheap : (f (w.engine e)).heap = (w.engine e).heap)
    (hloan : (w.engine e).loan.allowsRead = true → (f (w.engine e)).loan.allowsRead = true) :
    w.Around (w.modifyEngine e f) where
  heap e' := by
    rw [engine_modifyEngine]
    split
    case isTrue he => rw [hheap, he]
    case isFalse => rfl
  loan e' hl := by
    rw [engine_modifyEngine]
    split
    case isTrue he => exact hloan (he ▸ hl)
    case isFalse => exact hl
  native? _ := rfl
  owners _ := le_refl _
  beside := rfl

/-- One more share may be taken. -/
theorem around_share (w : World κ) (host : NativeId) : w.Around (w.modifyOwners host (· + 1)) where
  heap _ := rfl
  loan _ := id
  native? := native?_modifyOwners w host (· + 1)
  owners id := by
    rw [owners, owners, natives_modifyOwners]
    split
    · cases w.natives[id.index]? with
      | none => exact le_refl _
      | some n => exact Nat.le_succ _
    · exact le_refl _
  beside := rfl

/-- Something may be put on record. -/
theorem around_record (w : World κ) (event : Event) : w.Around (w.record event) :=
  ⟨fun _ => rfl, fun _ => id, fun _ => rfl, fun _ => le_refl _, rfl⟩

theorem Around.sound (h : w.Around w') (hw : w.Sound) : w'.Sound := fun e => by
  rw [h.heap]
  exact hw e

/-- **The world in which a call looks at its callee**: the lock is held, and the callee, the
receiver and the arguments are pinned. -/
def calling (w : World κ) (e : EngineId) (vs : List Value) : World κ :=
  (w.relock e Lock.take).push e vs

theorem around_calling (w : World κ) (e : EngineId) (vs : List Value) :
    w.Around (w.calling e vs) :=
  have htake : w.Around (w.relock e Lock.take) := around_modifyEngine rfl id
  htake.trans (around_modifyEngine rfl id)

/-- The heap is lent out as it was. -/
theorem loan_calling (w : World κ) (e : EngineId) (vs : List Value) :
    ((w.calling e vs).engine e).loan = (w.engine e).loan := by
  rw [calling, push, engine_modifyEngine_self, relock, engine_modifyEngine_self]

end World

/-- **Asked this among these worlds, the native always gives the same answer**, and leaves one
of these worlds behind. -/
structure Machine.Steadfast (m : Machine κ) (id : NativeId) (r : Request)
    (Among : World κ → Prop) (x : r.Reply) : Prop where
  /-- It gives the answer. -/
  answer : ∀ {w}, Among w → ∃ w', m.request id r w = .ok x w' ∧ Among w'
  /-- What is taken around a question does not lead out of these worlds. -/
  stays : ∀ {w w'}, Among w → w.Around w' → Among w'

namespace Machine

/-- The answer is given also while the heap is read. -/
theorem Steadfast.reading (hs : m.Steadfast host (.host e .isCallable) Among callable)
    (hw : Among w) :
    ∃ w', Act.reading e (m.askHost e host .isCallable) w = .ok callable w' ∧ Among w' := by
  have hreads : ∀ l : Loan, l.allowsRead = true → l.withReader.allowsRead = true :=
    fun l => by cases l <;> exact id
  have hgives : ∀ l : Loan, l.allowsRead = true → l.withoutReader.allowsRead = true :=
    fun l => by cases l <;> exact id
  obtain ⟨w₁, hask, hw₁⟩ := hs.answer (hs.stays hw
    (World.around_modifyEngine (e := e) (f := fun s => { s with loan := s.loan.withReader }) rfl
      (hreads _)))
  exact ⟨_, within_eq_ok.2 ⟨w₁, hask, rfl⟩, hs.stays hw₁ (World.around_modifyEngine rfl (hgives _))⟩

/-! ## Looking -/

/-- The kind of the object that a value denotes, if its host can be called or cannot. -/
def kindIn (heap : Heap) (callable : Bool) (v : Value) : Option ObjectKind :=
  (v.handle?.bind heap.get?).map (·.kind callable)

/-- **Looking at the kind** comes to the kind of the object. -/
theorem exists_kind (hl : (w.engine e).loan.allowsRead = true)
    (hs : ∀ host, w.host? e v = some host →
      m.Steadfast host (.host e .isCallable) Among callable) (hw : Among w) :
    ∃ w', m.kind e v w = .ok (kindIn (w.engine e).heap callable v) w' := by
  cases v with
  | object h =>
    have hread := readHeap_of_allowsRead hl (Heap.get? · h)
    cases hg : (w.engine e).heap.get? h with
    | none =>
      refine ⟨w, bind_eq_ok.2 ⟨_, w, hread, ?_⟩⟩
      rw [kindIn, Value.handle?_object, Option.bind_some, hg]
      rfl
    | some o =>
      obtain hh | ⟨host, expandos, rfl⟩ := o.hostless_or
      · refine ⟨w, bind_eq_ok.2 ⟨_, w, hread, ?_⟩⟩
        rw [kindIn, Value.handle?_object, Option.bind_some, hg]
        cases o with
        | host host expandos => cases hh
        | _ => rfl
      · obtain ⟨w', hask, -⟩ := (hs host (World.host?_of_get? hg)).reading hw
        refine ⟨w', bind_eq_ok.2 ⟨_, w, hread, ?_⟩⟩
        rw [kindIn, Value.handle?_object, Option.bind_some, hg]
        exact bind_eq_ok.2 ⟨callable, w', hask, rfl⟩
  | _ => exact ⟨w, rfl⟩

/-! ## Calling -/

/-- **What a call does with what its callee resolves to.** -/
def dispatch (m : Machine κ) (e : EngineId) (callee this : Value) (args : List Value) :
    CallTarget → Attempt κ Value
  | .body id => ExceptT.mk (m.sharing id (m.request id (.run e this args)))
  | .hostMethod wrapper name => do
    match ← Act.attempt (host? e (.object wrapper)) with
    | none => throw (.staleHandle wrapper)
    | some id => ExceptT.mk (m.sharing id (m.askHost e id (.invokeMethod name args)))
  | .host id => ExceptT.mk (m.sharing id (m.askHost e id (.call args)))
  | .notCallable => do
    throw (← Act.attempt <| m.raise e .typeError s!"{callee.typeName} is not a function")

/-- **A call resolves its callee and goes on from there.** -/
theorem call_of_target {target : CallTarget}
    (ht : (m.callTarget e v).run (w.calling e (v :: this :: args)) = .ok (.ok target) w₁) :
    (m.call e v this args).run w =
      Act.locked e (Act.pinning e (v :: this :: args) fun _ =>
        (m.dispatch e v this args target).run w₁) w :=
  locked_congr (pinning_congr (andThen_of_ok (f := m.dispatch e v this args) ht))

/-- A call of a stale handle stops there. -/
theorem call_of_error {err : EngineError}
    (ht : (m.callTarget e v).run (w.calling e (v :: this :: args)) = .ok (.error err) w₁) :
    (m.call e v this args).run w =
      Act.locked e (Act.pinning e (v :: this :: args) fun _ => .ok (.error err) w₁) w :=
  locked_congr (pinning_congr (andThen_eq_error.2 (.inl ht)))

/-- **A call runs something**: the body of a function, a method of the host behind a wrapper, or
a host that has said, when the call asked it, that it can be called. -/
inductive Enters (m : Machine κ) (e : EngineId) (w : World κ) (this : Value) (args : List Value) :
    Value → Act κ (Except EngineError Value) → Prop
  /-- The body of a function is run. -/
  | body {h : Handle} {name : String} {id : NativeId} {props : Properties Value}
      (hg : (w.engine e).heap.get? h = some (.function name id props)) :
      Enters m e w this args (.object h) (m.sharing id (m.request id (.run e this args)))
  /-- The host of the wrapper is made to invoke the method. -/
  | hostMethod {h t : Handle} {name : String} {host : NativeId} {expandos : Properties Value}
      (hg : (w.engine e).heap.get? h = some (.hostMethod t name))
      (ht : (w.engine e).heap.get? t = some (.host host expandos)) :
      Enters m e w this args (.object h)
        (m.sharing host (m.askHost e host (.invokeMethod name args)))
  /-- The host is called. -/
  | host {h : Handle} {host : NativeId} {expandos : Properties Value} {w₁ : World κ}
      (hg : (w.engine e).heap.get? h = some (.host host expandos))
      (hask : Act.reading e (m.askHost e host .isCallable)
        (w.calling e (.object h :: this :: args)) = .ok true w₁) :
      Enters m e w this args (.object h) fun _ => m.sharing host (m.askHost e host (.call args)) w₁

/-- What a call throws at a value that is no function. -/
def notAFunction (m : Machine κ) (e : EngineId) (v : Value) : Act κ (Except EngineError Value) :=
  .error <$> m.raise e .typeError s!"{v.typeName} is not a function"

/-- **A call runs nothing**: the handle is stale, or the value is no object, or is one that
cannot be called, or is a wrapper whose host has said so when the call asked it. -/
inductive Declines (m : Machine κ) (e : EngineId) (w : World κ) (this : Value)
    (args : List Value) : Value → Act κ (Except EngineError Value) → Prop
  /-- There is nothing to call. -/
  | stale {h : Handle} (hg : (w.engine e).heap.get? h = none) :
      Declines m e w this args (.object h) (pure (.error (.staleHandle h)))
  /-- There is something else. -/
  | other {v : Value} (hv : ∀ h, v = .object h → ∃ o, (w.engine e).heap.get? h = some o
      ∧ ∀ callable, o.kind callable ≠ .function) :
      Declines m e w this args v (m.notAFunction e v)
  /-- There is a wrapper whose host cannot be called. -/
  | host {h : Handle} {host : NativeId} {expandos : Properties Value} {w₁ : World κ}
      (hg : (w.engine e).heap.get? h = some (.host host expandos))
      (hask : Act.reading e (m.askHost e host .isCallable)
        (w.calling e (.object h :: this :: args)) = .ok false w₁) :
      Declines m e w this args (.object h) fun _ => m.notAFunction e (.object h) w₁

/-- Where there is nothing to dispatch to, an error is thrown. -/
theorem dispatch_notCallable (m : Machine κ) (e : EngineId) (v this : Value) (args : List Value) :
    (m.dispatch e v this args .notCallable).run = m.notAFunction e v := by
  funext w
  show EStateM.bind (EStateM.map Except.ok (m.raise e .typeError _)) _ w
    = EStateM.map Except.error (m.raise e .typeError _) w
  simp only [EStateM.bind, EStateM.map]
  cases m.raise e .typeError (toString v.typeName ++ toString " is not a function") w <;> rfl

/-- The object that a call finds is the one that was there. -/
theorem object_calling (hl : (w.engine e).loan.allowsRead = true) (h : Handle)
    (vs : List Value) :
    (Act.object e h).run (w.calling e vs)
      = .ok ((w.engine e).heap.get h) (w.calling e vs) := by
  have haround := w.around_calling e vs
  show readHeap e (Heap.get · h) (w.calling e vs) = _
  rw [readHeap_of_allowsRead (haround.loan e hl), haround.heap]

/-- **A function** is called by running its body. -/
theorem call_function {name : String} {id : NativeId} {props : Properties Value}
    (hl : (w.engine e).loan.allowsRead = true)
    (hg : (w.engine e).heap.get? h = some (.function name id props)) :
    (m.call e (.object h) this args).run w
      = Act.locked e (Act.pinning e (.object h :: this :: args)
          (m.sharing id (m.request id (.run e this args)))) w := by
  have hobject := object_calling hl h (.object h :: this :: args)
  rw [Heap.get_eq_ok_iff.2 hg] at hobject
  have htarget : (m.callTarget e (.object h)).run (w.calling e (.object h :: this :: args))
      = .ok (.ok (.body id)) (w.calling e (.object h :: this :: args)) :=
    (andThen_of_ok hobject).trans rfl
  exact (call_of_target htarget).trans (locked_congr (pinning_congr rfl))

/-- A stale handle cannot be called. -/
theorem call_stale (hl : (w.engine e).loan.allowsRead = true)
    (hg : (w.engine e).heap.get? h = none) :
    (m.call e (.object h) this args).run w
      = Act.locked e (Act.pinning e (.object h :: this :: args)
          (pure (.error (.staleHandle h)))) w := by
  have hobject := object_calling hl h (.object h :: this :: args)
  rw [Heap.get, hg] at hobject
  exact (call_of_error (andThen_eq_error.2 (.inl hobject))).trans
    (locked_congr (pinning_congr rfl))

/-- Nor can an object that is no function and no wrapper. -/
theorem call_other {o : HeapObject} (hl : (w.engine e).loan.allowsRead = true)
    (hg : (w.engine e).heap.get? h = some o) (ho : ∀ callable, o.kind callable ≠ .function) :
    (m.call e (.object h) this args).run w
      = Act.locked e (Act.pinning e (.object h :: this :: args)
          (m.notAFunction e (.object h))) w := by
  have hobject := object_calling hl h (.object h :: this :: args)
  rw [Heap.get_eq_ok_iff.2 hg] at hobject
  have htarget : (m.callTarget e (.object h)).run (w.calling e (.object h :: this :: args))
      = .ok (.ok .notCallable) (w.calling e (.object h :: this :: args)) := by
    refine (andThen_of_ok hobject).trans ?_
    cases o with
    | plain props => rfl
    | array els => rfl
    | function name id props => exact absurd rfl (ho false)
    | hostMethod t name => exact absurd rfl (ho false)
    | host host expandos => exact absurd rfl (ho true)
  rw [call_of_target htarget, dispatch_notCallable]
  exact locked_congr (pinning_congr rfl)

/-- **A wrapper** is called by calling its host, if that says that it can be called. -/
theorem call_host (hl : (w.engine e).loan.allowsRead = true)
    (hg : (w.engine e).heap.get? h = some (.host host expandos))
    (hask : Act.reading e (m.askHost e host .isCallable)
      (w.calling e (.object h :: this :: args)) = .ok callable w₁) :
    (m.call e (.object h) this args).run w
      = Act.locked e (Act.pinning e (.object h :: this :: args) fun _ =>
          (if callable then m.sharing host (m.askHost e host (.call args))
            else m.notAFunction e (.object h)) w₁) w := by
  have hobject := object_calling hl h (.object h :: this :: args)
  rw [Heap.get_eq_ok_iff.2 hg] at hobject
  have htarget : (m.callTarget e (.object h)).run (w.calling e (.object h :: this :: args))
      = .ok (.ok (if callable then .host host else .notCallable)) w₁ :=
    (andThen_of_ok hobject).trans
      ((andThen_of_ok (attempt_eq_ok.2 ⟨callable, hask, rfl⟩)).trans rfl)
  rw [call_of_target htarget]
  cases callable with
  | true => rfl
  | false =>
    rw [if_neg Bool.false_ne_true, if_neg Bool.false_ne_true, dispatch_notCallable]

/-- **A call runs something if the kind is that of a function**, and nothing if it is not. -/
theorem exists_call (hsound : w.Sound) (hl : (w.engine e).loan.allowsRead = true)
    (hs : ∀ host, w.host? e v = some host →
      m.Steadfast host (.host e .isCallable) Among callable) (hw : Among w)
    (this : Value) (args : List Value) :
    ∃ body, (m.call e v this args).run w
        = Act.locked e (Act.pinning e (v :: this :: args) body) w
      ∧ (kindIn (w.engine e).heap callable v = some .function → m.Enters e w this args v body)
      ∧ (kindIn (w.engine e).heap callable v ≠ some .function →
        m.Declines e w this args v body) := by
  cases v with
  | object h =>
    have hkind : kindIn (w.engine e).heap callable (.object h)
        = ((w.engine e).heap.get? h).map (·.kind callable) := rfl
    cases hg : (w.engine e).heap.get? h with
    | none =>
      rw [hkind, hg]
      exact ⟨_, call_stale hl hg, nofun, fun _ => .stale hg⟩
    | some o =>
      rw [hkind, hg]
      cases o with
      | plain props =>
        exact ⟨_, call_other hl hg fun _ => ObjectKind.noConfusion, nofun, fun _ => .other fun _ hv =>
          ⟨_, Value.object.inj hv ▸ hg, fun _ => ObjectKind.noConfusion⟩⟩
      | array els =>
        exact ⟨_, call_other hl hg fun _ => ObjectKind.noConfusion, nofun, fun _ => .other fun _ hv =>
          ⟨_, Value.object.inj hv ▸ hg, fun _ => ObjectKind.noConfusion⟩⟩
      | function name id props =>
        exact ⟨_, call_function hl hg, fun _ => .body hg, fun hno => absurd rfl hno⟩
      | hostMethod t name =>
        -- the wrapper that the method was read from is there
        obtain ⟨b, hi⟩ := Heap.identity?_of_get? hg
        obtain ⟨_, host, ht⟩ := (hsound e).isHost h t ⟨b, name, hi⟩
        obtain ⟨expandos, ht⟩ := Heap.get?_of_host ht
        have hcall := call_hostMethod (m := m) hg ht this args
        rw [if_pos hl] at hcall
        exact ⟨_, hcall, fun _ => .hostMethod hg ht, fun hno => absurd rfl hno⟩
      | host host expandos =>
        have hhost := hs host (World.host?_of_get? hg)
        obtain ⟨w₁, hask, -⟩ := hhost.reading (hhost.stays hw (w.around_calling e _))
        refine ⟨_, call_host hl hg hask, ?_⟩
        cases callable with
        | true => exact ⟨fun _ => .host hg hask, fun hno => absurd rfl hno⟩
        | false => exact ⟨nofun, fun _ => .host hg hask⟩
  | _ =>
    have htarget : ∀ v : Value, v.handle? = none →
        (m.callTarget e v).run (w.calling e (v :: this :: args))
          = .ok (.ok .notCallable) (w.calling e (v :: this :: args)) := fun v hv => by
      cases v <;> first | rfl | cases hv
    refine ⟨m.notAFunction e _, ?_, nofun, fun _ => .other nofun⟩
    rw [call_of_target (htarget _ rfl), dispatch_notCallable]
    exact locked_congr (pinning_congr rfl)

/-- **An error is thrown** if there is room for one. -/
theorem raise_cases (m : Machine κ) (hl : (w.engine e).loan = .none)
    (hwf : (w.engine e).heap.WellFormed) (cls : ThrownClass) (message : String) :
    ∃ err w', m.raise e cls message w = .ok err w'
      ∧ ((∃ k, err = .exception (.object k)
          ∧ (w'.engine e).heap.get? k = some (errorObject cls message))
        ∨ ∃ limit, err = .heapLimit limit) := by
  cases hr : (w.engine e).heap.refusal? with
  | none =>
    refine ⟨_, _, raise_of_room hl hr cls message, .inl ⟨_, rfl, ?_⟩⟩
    rw [World.engine_modifyEngine_self, Heap.get?_place hwf, if_pos rfl]
  | some err =>
    exact ⟨err, _, raise_of_refusal hl hr cls message, .inr (Heap.eq_heapLimit_of_refusal hr)⟩

/-- **A heap that is read while a host is asked** is given back as it was lent. -/
theorem given_back_of_reading {r : HostRequest} {x : r.Reply} (hm : m.Roams) (hsound : w.Sound)
    (hask : Act.reading e (m.askHost e host r) w = .ok x w₁) :
    (w₁.engine e).loan = (w.engine e).loan ∧ w₁.Sound := by
  obtain ⟨w₂, hasked, rfl⟩ := within_eq_ok.1 hask
  have hsame : ∀ {w : World κ} {f : Engine → Engine}, w.Sound →
      (f (w.engine e)).heap = (w.engine e).heap → (w.modifyEngine e f).Sound := by
    intro w f hw hf e'
    rw [World.engine_modifyEngine]
    split
    case isTrue he => exact hf ▸ hw e
    case isFalse => exact hw e'
  have hreading := hsame (f := fun s => { s with loan := s.loan.withReader }) hsound rfl
  have hx := hm.request host (.host e r) hreading
  have hafter : (m.request host (.host e r)).after _ = w₂ := after_of_ok hasked
  rw [hafter] at hx
  refine ⟨?_, hsame (hreading.excursion hx) rfl⟩
  rw [World.engine_modifyEngine_self, (hx.engine e).2, World.engine_modifyEngine_self,
    withoutReader_withReader]

/-- **A call that runs nothing fails**: with the stale handle, or with a type error, for which
there may be no room. -/
theorem Declines.exists_error (hm : m.Roams) (hsound : w.Sound) (hl : (w.engine e).loan = .none)
    {body : Act κ (Except EngineError Value)} (hd : m.Declines e w this args v body) :
    ∃ err w', Act.locked e (Act.pinning e (v :: this :: args) body) w = .ok (.error err) w'
      ∧ ((∃ h, v = .object h ∧ (w.engine e).heap.get? h = none ∧ err = .staleHandle h)
        ∨ (∃ k, err = .exception (.object k) ∧ (w'.engine e).heap.get? k
          = some (errorObject .typeError s!"{v.typeName} is not a function"))
        ∨ ∃ limit, err = .heapLimit limit) := by
  have hcalling := w.around_calling e (v :: this :: args)
  have hloan := (w.loan_calling e (v :: this :: args)).trans hl
  -- the lock is given back and the pins are taken off, and neither is in the heap
  have hends : ∀ {err w₂}, body (w.calling e (v :: this :: args)) = .ok (.error err) w₂ →
      ∃ w', Act.locked e (Act.pinning e (v :: this :: args) body) w = .ok (.error err) w'
        ∧ (w'.engine e).heap = (w₂.engine e).heap := fun hbody =>
    ⟨_, locked_eq_ok.2 ⟨_, pinning_eq_ok.2 ⟨_, hbody, rfl⟩, rfl⟩, by
      rw [World.engine_modifyEngine_self, World.heap_truncate]⟩
  have hthrows : ∀ {w₁}, (w₁.engine e).loan = .none → w₁.Sound →
      body (w.calling e (v :: this :: args)) = m.notAFunction e v w₁ →
      ∃ err w', Act.locked e (Act.pinning e (v :: this :: args) body) w = .ok (.error err) w'
        ∧ ((∃ k, err = .exception (.object k) ∧ (w'.engine e).heap.get? k
            = some (errorObject .typeError s!"{v.typeName} is not a function"))
          ∨ ∃ limit, err = .heapLimit limit) := by
    intro w₁ hl₁ hs₁ hbody
    obtain ⟨err, w₂, hraise, hcases⟩ := m.raise_cases hl₁ (hs₁ e).wellFormed .typeError
      s!"{v.typeName} is not a function"
    obtain ⟨w', hrun, hheap⟩ := hends (hbody.trans (bind_eq_ok.2 ⟨err, w₂, hraise, rfl⟩))
    rw [← hheap] at hcases
    exact ⟨err, w', hrun, hcases⟩
  cases hd with
  | @stale h hg =>
    obtain ⟨w', hrun, -⟩ := hends rfl
    exact ⟨_, w', hrun, .inl ⟨h, rfl, hg, rfl⟩⟩
  | other hv =>
    obtain ⟨err, w', hrun, hcases⟩ := hthrows hloan (hcalling.sound hsound) rfl
    exact ⟨err, w', hrun, .inr hcases⟩
  | @host h host expandos w₁ hg hask =>
    obtain ⟨hloan₁, hs₁⟩ := given_back_of_reading hm (hcalling.sound hsound) hask
    obtain ⟨err, w', hrun, hcases⟩ := hthrows (hloan₁.trans hloan) hs₁ rfl
    exact ⟨err, w', hrun, .inr hcases⟩

end Machine

/-! ## Adapters -/

namespace Machine

/-- Things that are owned one after another are in the frame in which a program performs what it
performs. -/
theorem performs_foldl_hold {o : Op κ} {p : Program κ α} {ls owned : List Local} :
    m.Performs o w' (ls.foldl (fun body l => .hold l body) p) owned w
      ↔ m.Performs o w' p (ls ++ owned) w := by
  induction ls generalizing p with
  | nil => exact Iff.rfl
  | cons l ls ih => exact ih (p := .hold l p)

end Machine

namespace Behaviour

variable {b : Behaviour κ} {depth : Nat} {a : Adapter}

/-- **One of these worlds, in which the native is an adapter** of the same bound object still,
with whatever class. -/
def Adapts (Among : World κ → Prop) (host : NativeId) (a : Adapter) (w : World κ) : Prop :=
  Among w ∧ w.Sound ∧ ∃ cls, w.native? host = some (.adapter { a with cls := cls })

/-- **An adapter can be called if its bound object says that it is a function**, as long as it
is an adapter of that object, which it always is. -/
theorem steadfast_adapter
    (hs : (b.machine depth).Steadfast a.bound (.bound .isFunction) Among callable) :
    (b.machine (depth + 1)).Steadfast host (.host e .isCallable) (Adapts Among host a)
      callable := by
  refine ⟨?_, fun ⟨hw, hsound, cls, hn⟩ haround =>
    ⟨hs.stays hw haround, haround.sound hsound, cls, (haround.native? host).trans hn⟩⟩
  rintro w ⟨hw, hsound, cls, hn⟩
  have hrecord := w.around_record (.asked host (.host e .isCallable) w.postures)
  obtain ⟨w', hask, hw'⟩ := hs.answer (hs.stays hw hrecord)
  have hx := (b.roams depth).request a.bound (.bound .isFunction) (hrecord.sound hsound)
  have hafter : ((b.machine depth).request a.bound (.bound .isFunction)).after _ = w' :=
    after_of_ok hask
  rw [hafter] at hx
  refine ⟨w', ?_, hw', (hrecord.sound hsound).excursion hx,
    (World.retains_of_reaches hx.reaches).adapter (a := { a with cls := cls }) hn⟩
  exact (askHost_of_adapter b depth e .isCallable hn).trans (run_op_eq_ok.2 hask)

/-- **An adapter that is called invokes its bound object**, if that says that it is a function,
with what stands for the arguments. -/
theorem performs_invoke
    (hs : (b.machine depth).Steadfast a.bound (.bound .isFunction) Among true) (hw : Among w)
    (hsound : w.Sound) (hl : (w.engine e).loan.allowsRead = true) (host : NativeId)
    (args : List Value) :
    ∃ ns w', (b.machine depth).Performs (.ask a.bound (.bound (.invoke ns))) w'
        (a.answer host e (.call args)) [] w
      ∧ args.Forall₂ (w'.StandsFor e a.registry) ns := by
  obtain ⟨w₁, hask, -⟩ := hs.answer hw
  have hx := (b.roams depth).request a.bound (.bound .isFunction) hsound
  have hafter : ((b.machine depth).request a.bound (.bound .isFunction)).after w = w₁ :=
    after_of_ok hask
  rw [hafter] at hx
  obtain ⟨ns, w₂, hconvert, hstand, -⟩ :=
    exists_toNatives (e := e) ((hx.engine e).2 ▸ hl) a.registry args
  -- the lock is given back while the object is invoked, which conversions do not see
  have halike : w₂.ConvertsAlike
      (w₂.modifyEngine e fun s => { s with lock := s.lock.dropAll }) e :=
    ⟨by rw [World.engine_modifyEngine_self], by rw [World.engine_modifyEngine_self],
      fun _ _ hn => hn, fun _ _ hn => hn, rfl⟩
  refine ⟨ns, _, performs_bind.2 (.inl (performs_bind.2 (.inr ⟨true, [], w₁,
    eval_op_eq_ok.2 ⟨rfl, hask⟩, ?_⟩))), hstand.imp fun _ _ h => halike.standsFor h⟩
  rw [if_pos rfl]
  refine performs_bind.2 (.inr ⟨ns, [], w₂, hconvert _ [], performs_foldl_hold.2 ?_⟩)
  exact performs_bind.2 (.inl (performs_bind.2 (.inl (performs_bind.2
    (.inr ⟨_, _, _, eval_op_eq_ok.2 ⟨rfl, rfl⟩, performs_owning.2 (performs_op.2 ⟨rfl, rfl⟩)⟩)))))

end Behaviour

/-! ## The result -/

/-- **What can be called is the same everywhere.** Let the heap be readable, and let the host
behind the value, if there is one, give one answer when it is asked whether it can be called.
Then looking at the kind comes to a kind, and

* native code that holds the value sees a function just if the kind is that of a function, and
  so does native code that holds a proxy of it;
* a call of the value runs the body of a function, a method of a host or a host if the kind is
  that of a function, and otherwise runs nothing;
* if it runs nothing and the heap is not lent out, it fails: with the stale handle, or with a
  type error that says that the value is not a function, or without room for that.

If the host is an adapter, the answer is that of its bound object. And a call that gets as far
as the adapter comes to the invocation of the bound object, with what stands for the
arguments. -/
theorem Behaviour.callability_agrees (b : Behaviour κ) (hw : w.Reachable) (e : EngineId)
    (v : Value) (hl : (w.engine e).loan.allowsRead = true) :
    (∀ (depth : Nat) (Among : World κ → Prop) (callable : Bool),
        (∀ host, w.host? e v = some host →
          (b.machine depth).Steadfast host (.host e .isCallable) Among callable) →
        Among w →
        ∃ t w₁, (b.machine depth).kind e v w = .ok t w₁
          ∧ (∀ s : ScriptValue, s.engine = e → s.value = v →
            (b.machine depth).run s.type [] w = .ok (ValueType.of v t) w₁)
          ∧ (ValueType.of v t = .function ↔ t = some .function)
          ∧ (∀ p : Proxy, p.engine = e → p.value = v →
            (b.machine depth).run (p.answer .isFunction) [] w
              = .ok (decide (t = some .function)) w₁)
          ∧ ∀ (this : Value) (args : List Value),
            (∃ body, ((b.machine depth).call e v this args).run w
                = Act.locked e (Act.pinning e (v :: this :: args) body) w
              ∧ (t = some .function → (b.machine depth).Enters e w this args v body)
              ∧ (t ≠ some .function → (b.machine depth).Declines e w this args v body))
            ∧ (t ≠ some .function → (w.engine e).loan = .none →
              ∃ err w', ((b.machine depth).call e v this args).run w = .ok (.error err) w'
                ∧ ((∃ h, v = .object h ∧ (w.engine e).heap.get? h = none
                    ∧ err = .staleHandle h)
                  ∨ (∃ k, err = .exception (.object k) ∧ (w'.engine e).heap.get? k
                    = some (errorObject .typeError s!"{v.typeName} is not a function"))
                  ∨ ∃ limit, err = .heapLimit limit)))
      ∧ ∀ (depth : Nat) (host : NativeId) (a : Adapter) (Among : World κ → Prop) (yes : Bool),
        w.host? e v = some host → w.native? host = some (.adapter a) →
        (b.machine depth).Steadfast a.bound (.bound .isFunction) Among yes → Among w →
        (∃ Around : World κ → Prop, Around w
            ∧ (b.machine (depth + 1)).Steadfast host (.host e .isCallable) Around yes)
          ∧ (∃ w₁, (b.machine (depth + 1)).kind e v w
            = .ok (some (if yes then .function else .host)) w₁)
          ∧ (yes = true → ∀ (this : Value) (args : List Value),
            ∃ w₁ ns w₂, ((b.machine (depth + 1)).call e v this args).run w
                = Act.locked e (Act.pinning e (v :: this :: args) fun _ =>
                    (b.machine (depth + 1)).sharing host
                      ((b.machine (depth + 1)).askHost e host (.call args)) w₁) w
              ∧ (b.machine (depth + 1)).askHost e host (.call args) (w₁.modifyOwners host (· + 1))
                = (b.machine depth).run (a.answer host e (.call args)) []
                    ((w₁.modifyOwners host (· + 1)).asking e host (.call args))
              ∧ (b.machine depth).Performs (.ask a.bound (.bound (.invoke ns))) w₂
                  (a.answer host e (.call args)) []
                  ((w₁.modifyOwners host (· + 1)).asking e host (.call args))
              ∧ args.Forall₂ (w₂.StandsFor e a.registry) ns) := by
  refine ⟨fun depth Among callable hs hamong => ?_,
    fun depth host a Among yes hhost hn hs hamong => ?_⟩
  · obtain ⟨w₁, hkind⟩ := exists_kind hl hs hamong
    have hfunction : ∀ {t}, kindIn (w.engine e).heap callable v = t →
        (ValueType.of v t = .function ↔ t = some .function) := by
      rintro t rfl
      cases v with
      | object h => exact ValueType.of_eq_function_iff.trans (and_iff_right ⟨h, rfl⟩)
      | _ => exact ValueType.of_eq_function_iff.trans (and_iff_right_of_imp nofun)
    have htype : ∀ s : ScriptValue, s.engine = e → s.value = v →
        (b.machine depth).run s.type [] w
          = .ok (ValueType.of v (kindIn (w.engine e).heap callable v)) w₁ := by
      rintro s rfl rfl
      exact run_map_eq_ok.2 ⟨_, run_op_eq_ok.2 hkind, rfl⟩
    refine ⟨_, w₁, hkind, htype, hfunction rfl, fun p hp hv => ?_, fun this args => ?_⟩
    · refine run_map_eq_ok.2 ⟨_, htype p.subject hp hv, ?_⟩
      exact decide_eq_decide.2 (hfunction rfl).symm
    · obtain ⟨body, hcall, henters, hdeclines⟩ := exists_call hw.sound hl hs hamong this args
      refine ⟨⟨body, hcall, henters, hdeclines⟩, fun hno hnone => ?_⟩
      rw [hcall]
      exact (hdeclines hno).exists_error (b.roams depth) hw.sound hnone
  · obtain ⟨h, expandos, rfl, hg⟩ := exists_get?_of_host? hhost
    have hhosts : (b.machine (depth + 1)).Steadfast host (.host e .isCallable)
        (Adapts Among host a) yes := b.steadfast_adapter hs
    have hadapts : Adapts Among host a w := ⟨hamong, hw.sound, a.cls, hn⟩
    refine ⟨⟨_, hadapts, hhosts⟩, ?_, ?_⟩
    · have honly : ∀ host', w.host? e (.object h) = some host' →
          (b.machine (depth + 1)).Steadfast host' (.host e .isCallable) (Adapts Among host a) yes :=
        fun host' hh => Option.some.inj (hhost.symm.trans hh) ▸ hhosts
      obtain ⟨w₁, hkind⟩ := exists_kind hl honly hadapts
      refine ⟨w₁, hkind.trans ?_⟩
      rw [kindIn, Value.handle?_object, Option.bind_some, hg]
      rfl
    · rintro rfl this args
      have hcalling := w.around_calling e (.object h :: this :: args)
      obtain ⟨w₁, hask, hadapts₁⟩ := hhosts.reading (hhosts.stays hadapts hcalling)
      have hloan₁ := (given_back_of_reading (b.roams (depth + 1)) (hcalling.sound hw.sound) hask).1
      -- the host is shared while it is called, and the call is on record
      have hasking := (w₁.around_share host).trans
        ((w₁.modifyOwners host (· + 1)).around_record (.asked host (.host e (.call args))
          (w₁.modifyOwners host (· + 1)).postures))
      obtain ⟨hamong₂, hsound₂, cls, hn₂⟩ := hhosts.stays hadapts₁ hasking
      obtain ⟨ns, w₂, hperforms, hstand⟩ := b.performs_invoke hs hamong₂ hsound₂
        (hasking.loan e ((congrArg Loan.allowsRead (hloan₁.trans (w.loan_calling e _))).trans hl))
        host args
      have hn₁ : (w₁.modifyOwners host (· + 1)).native? host
          = some (.adapter { a with cls := cls }) := hn₂
      have hasked := b.askHost_of_adapter depth e (.call args) hn₁
      exact ⟨w₁, ns, w₂, (call_host hl hg hask).trans (locked_congr (pinning_congr rfl)), hasked,
        hperforms, hstand⟩

/-- The clumsy object of the failures says that it is a function, wherever it is asked. -/
theorem Behaviour.steadfast_clumsy (depth : Nat) :
    (clumsy.machine (depth + 1)).Steadfast ⟨0⟩ (.bound .isFunction)
      (fun w => w.native? ⟨0⟩ = some (.custom ())) true where
  answer hn := ⟨_, clumsy.request_of_native? depth (.bound .isFunction) hn, hn⟩
  stays hn haround := (haround.native? ⟨0⟩).trans hn

/-- Its wrapper is a function, and a call of it comes to the invocation of the object. The plain
object beside it is none, and a call of that fails. -/
theorem Behaviour.callability_agrees_clumsy :
    (∃ w', (clumsy.machine 2).kind ⟨0⟩ (.object ⟨0, 0⟩) World.clumsy
        = .ok (some .function) w')
      ∧ (∃ ns w₁ w₂, (clumsy.machine 1).Performs (.ask ⟨0⟩ (.bound (.invoke ns))) w₂
          (Adapter.answer ⟨1⟩ ⟨⟨0⟩, ⟨0⟩, some ⟨0⟩⟩ ⟨0⟩ (.call [.null])) [] w₁
        ∧ [Value.null].Forall₂ (w₂.StandsFor ⟨0⟩ ⟨0⟩) ns)
      ∧ ∃ err w', ((clumsy.machine 2).call ⟨0⟩ (.object ⟨1, 0⟩) .undefined [.null]).run
        World.clumsy = .ok (.error err) w' := by
  have hw : World.clumsy.Reachable := (clumsy.reachable_run 3 _ [] .refl).1
  have hcustom : World.clumsy.native? ⟨0⟩ = some (.custom ()) := by decide +kernel
  obtain ⟨-, hadapter⟩ := clumsy.callability_agrees hw ⟨0⟩ (.object ⟨0, 0⟩) (by decide +kernel)
  obtain ⟨-, hkind, hcall⟩ := hadapter 1 ⟨1⟩ ⟨⟨0⟩, ⟨0⟩, some ⟨0⟩⟩ _ true (by decide +kernel)
    (by decide +kernel) (steadfast_clumsy 0) hcustom
  obtain ⟨w₁, ns, w₂, -, -, hperforms, hstand⟩ := hcall rfl .undefined [.null]
  refine ⟨hkind, ⟨ns, _, w₂, hperforms, hstand⟩, ?_⟩
  have hhostless : World.clumsy.host? ⟨0⟩ (.object ⟨1, 0⟩) = none := by decide +kernel
  have hlooked : ((clumsy.machine 2).kind ⟨0⟩ (.object ⟨1, 0⟩)).finishes World.clumsy
      (fun t _ => decide (t = some .plain)) = true := by decide +kernel
  obtain ⟨hplain, -⟩ := clumsy.callability_agrees hw ⟨0⟩ (.object ⟨1, 0⟩) (by decide +kernel)
  obtain ⟨t, w₃, hkind₁, -, -, -, hcall₁⟩ := hplain 2 (fun _ => True) false
    (fun host hh => nomatch hhostless.symm.trans hh) trivial
  obtain ⟨t', w₄, hkind₂, ht'⟩ := exists_of_finishes hlooked
  obtain ⟨rfl, -⟩ := EStateM.Result.ok.inj (hkind₁.symm.trans hkind₂)
  obtain ⟨-, hfails⟩ := hcall₁ .undefined [.null]
  obtain ⟨err, w', hrun, -⟩ := hfails
    (of_decide_eq_true ht' ▸ nofun) (by decide +kernel)
  exact ⟨err, w', hrun⟩

end EmbeddedScript
