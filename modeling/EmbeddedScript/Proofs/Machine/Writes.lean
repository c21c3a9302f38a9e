import EmbeddedScript.Proofs.Heap.Rows
import EmbeddedScript.Proofs.Machine.Running
import EmbeddedScript.Proofs.Machine.Wrappers

/-!
# What is written is read

A write that succeeds is not lost: what is written is read back, and nothing else has
changed. Reading and writing are told apart by the kind of the object and by the name in
different places, and what they have to agree about is where a name lives.

For a wrapper they need not agree, because its host is asked again: **a host may decline
to write a name that it answers for when it is read**, as one does with the names of its
methods. Then it is the host's answer that is read, and the wrapper's own property is
hidden behind it. So for a wrapper it is required that the host declines the name in both
directions. A function has a name of its own, which reading prefers to a property of that
name.
-/

namespace EmbeddedScript

open Act

variable {κ α : Type}

/-! ## Stored entries -/

namespace Properties

variable {name : String}

/-- **The entries of the other names**, oldest first. -/
def others (p : Properties α) (name : String) : List (String × α) :=
  p.entries.filter fun entry => entry.1 ≠ name

theorem filter_setEntries (name : String) (a : α) (l : List (String × α)) :
    ((setEntries name a l).filter fun entry => entry.1 ≠ name)
      = l.filter fun entry => entry.1 ≠ name := by
  induction l with
  | nil => simp [setEntries]
  | cons entry l ih =>
    by_cases hn : entry.1 = name
    · simp [setEntries, hn]
    · simp only [setEntries, if_neg hn, List.filter_cons, ih]

/-- Setting a name leaves the other entries alone, and in their order. -/
theorem others_set (p : Properties α) (name : String) (a : α) :
    (p.set name a).others name = p.others name :=
  filter_setEntries name a p.entries

end Properties

/-- The properties that an object stores by name, if it is of a kind that does. -/
def HeapObject.props? : HeapObject → Option (Properties Value)
  | plain props => some props
  | function _ _ props => some props
  | host _ expandos => some expandos
  | _ => none

namespace Elements

/-- **What is written by name is read by that name**, and what is written to `length` as the
number that it is numerically equal to. -/
theorem property_of_setProperty {els els' : Elements} {name : String} {v : Value}
    (hs : els.setProperty name v = .ok els') :
    els'.property name = v
      ∨ name = "length" ∧ (els'.property name).looseEq v = true := by
  by_cases hn : name = "length"
  · subst hn
    cases hlength : length? v with
    | none => simp [setProperty_length_of_none els hlength] at hs
    | some k =>
      rw [setProperty_length els hlength] at hs
      cases hs
      rw [property_length, size_resize]
      exact .inr ⟨rfl, (length?_eq_some_iff.1 hlength).2⟩
  · cases hindex : index? name with
    | none => simp [setProperty_of_not_index hn hindex] at hs
    | some i =>
      obtain ⟨hi, rfl⟩ := index?_eq_some_iff.1 hindex
      rw [setProperty_write els hi] at hs
      obtain ⟨els₁, hs₁, hrow⟩ : ∃ els₁, els.store i v = .ok els₁ ∧ els₁.row = els.row.store i v :=
        row_store v (.inr hi)
      obtain rfl : els₁ = els' := Except.ok.inj (hs₁.symm.trans hs)
      rw [property_write _ hi, read_eq, hrow, Row.read_store]
      exact .inl rfl

end Elements

namespace Machine

variable {o o' : HeapObject} {name : String} {v : Value}

/-- **What is written is read**, except the name of a function. -/
theorem ownProperty_of_withProperty (hw : withProperty o name v = .ok o')
    (hf : ∀ functionName body props, o = .function functionName body props → name ≠ "name") :
    ownProperty o' name = v
      ∨ (∃ els, o = .array els) ∧ name = "length"
        ∧ (ownProperty o' name).looseEq v = true := by
  cases o with
  | array els =>
    obtain ⟨els', hs, rfl⟩ := eq_array_of_withProperty hw
    exact (Elements.property_of_setProperty hs).imp_right fun h => ⟨⟨els, rfl⟩, h⟩
  | function functionName body props =>
    cases hw
    simp only [ownProperty, if_neg (hf _ _ _ rfl), Properties.get?_set_self]
    exact .inl rfl
  | hostMethod target method => cases hw
  | _ =>
    cases hw
    simp only [ownProperty, Properties.get?_set_self]
    exact .inl rfl

/-- Writing leaves the other entries alone. -/
theorem others_of_withProperty (hw : withProperty o name v = .ok o')
    {props : Properties Value} (hp : o.props? = some props) :
    ∃ props', o'.props? = some props' ∧ props'.others name = props.others name := by
  cases o with
  | array els => cases hp
  | hostMethod target method => cases hw
  | _ =>
    cases hw
    cases hp
    exact ⟨_, rfl, props.others_set name v⟩

end Machine

/-! ## Hosts that decline -/

variable {m : Machine κ} {w w' : World κ} {e : EngineId} {h : Handle} {o : HeapObject}
  {host : NativeId} {expandos : Properties Value} {name : String} {v : Value}

/-- **No engine has changed**, and nothing has another number of owners. -/
structure World.Undisturbed (w w' : World κ) : Prop where
  /-- The engines are the same. -/
  engines : w'.engines = w.engines
  /-- Natives have the owners that they had. -/
  owners : ∀ id, w'.owners id = w.owners id

theorem World.Undisturbed.engine (hu : w.Undisturbed w') (e : EngineId) :
    w'.engine e = w.engine e := by
  rw [World.engine, World.engine, hu.engines]

namespace Machine

/-- **The host declines to write the name**, without side effects. -/
def DeclinesWrite (m : Machine κ) (w : World κ) (e : EngineId) (h : Handle) (host : NativeId)
    (name : String) (v : Value) : Prop :=
  ∃ w₁, m.askHost e host (.setProperty name v) (w.entered e host [.object h, v])
      = .ok (.ok false) w₁
    ∧ (w.entered e host [.object h, v]).Undisturbed w₁

/-- **The host declines to read the name**, as a property and as a method, without side
effects. -/
def DeclinesRead (m : Machine κ) (w : World κ) (e : EngineId) (h : Handle) (host : NativeId)
    (name : String) : Prop :=
  ∃ w₁ w₂, m.askHost e host (.getProperty name) (w.entered e host [.object h])
      = .ok (.ok none) w₁
    ∧ (w.entered e host [.object h]).Undisturbed w₁
    ∧ m.askHost e host (.hasMethod name) w₁ = .ok false w₂ ∧ w₁.Undisturbed w₂

/-- **A declined write is stored in the wrapper**, and the host keeps its owners. -/
theorem set_of_declinesWrite (hl : (w.engine e).loan = .none)
    (hg : (w.engine e).heap.get? h = some (.host host expandos))
    (ha : w.isAlive host = true) (hd : m.DeclinesWrite w e h host name v) :
    ∃ w', (m.set e (.object h) name v).run w = .ok (.ok ()) w'
      ∧ (∀ e', w'.engine e' = (w.storing e h (.host host (expandos.set name v)) v).engine e')
      ∧ w'.owners host = w.owners host := by
  obtain ⟨w₁, hask, hsame⟩ := hd
  have hengine : (w₁.engine e) = { w.engine e with
      lock := (w.engine e).lock.take, roots := (w.engine e).roots.push [.object h, v] } := by
    rw [hsame.engine, World.engine_entered, if_pos rfl]
  have hl₁ : (w₁.engine e).loan.allowsWrite = true := by
    rw [hengine]
    simp [hl, Loan.allowsWrite]
  have hg₁ : (w₁.engine e).heap.get? h = some (.host host expandos) := by rwa [hengine]
  have hbody := writeThrough_of_declined hask hl₁ hg₁
  have ho : (w₁.storing e h (.host host (expandos.set name v)) v).owners host
      = w.owners host + 1 := by
    rw [← World.owners_entered ha e [.object h, v], ← hsame.owners]
    exact World.owners_recordStale w₁ e _ host
  have halive : 0 < w.owners host := of_decide_eq_true ha
  refine ⟨_, (set_of_host m hl hg name v).trans (hosted_of_ok hbody (by omega)), fun e' => ?_, ?_⟩
  · rw [World.engine_left, World.engine_storing, World.engine_storing, World.engine_storing,
      if_pos rfl]
    split
    case isTrue =>
      rw [hengine]
      simp
    case isFalse he => rw [hsame.engine, World.engine_entered, if_neg he]
  · rw [World.owners_left (decide_eq_true (by omega)), ho, Nat.add_sub_cancel]

/-- **A declined read reads the wrapper's own property.** -/
theorem get_of_declinesRead (hl : (w.engine e).loan.allowsRead = true)
    (hg : (w.engine e).heap.get? h = some (.host host expandos))
    (ha : w.isAlive host = true) (hd : m.DeclinesRead w e h host name) :
    ∃ w', (m.get e (.object h) name).run w
      = .ok (.ok ((expandos.get? name).getD .undefined)) w' := by
  obtain ⟨w₁, w₂, hproperty, hsame₁, hmethod, hsame₂⟩ := hd
  have hengine : ((w₂.engine e).heap = (w.engine e).heap)
      ∧ (w₂.engine e).loan = (w.engine e).loan := by
    rw [hsame₂.engine, hsame₁.engine, World.engine_entered, if_pos rfl]
    exact ⟨rfl, rfl⟩
  have hobject := object_of_get? (e := e) (w := w₂) (h := h) (hengine.2 ▸ hl) (hengine.1 ▸ hg)
  have hbody : (m.readThrough e h host name).run (w.entered e host [.object h])
      = .ok (.ok ((expandos.get? name).getD .undefined)) w₂ := by
    refine (andThen_of_ok (x := ExceptT.mk (m.askHost e host (.getProperty name)))
      hproperty).trans ?_
    refine (andThen_of_ok (x := Act.attempt (m.askHost e host (.hasMethod name))) (b := false)
      (attempt_eq_ok.2 ⟨_, hmethod, rfl⟩)).trans ?_
    exact andThen_of_ok hobject
  have ho : 1 < w₂.owners host := by
    rw [hsame₂.owners, hsame₁.owners, World.owners_entered ha]
    exact Nat.succ_lt_succ (of_decide_eq_true ha)
  exact ⟨_, (get_of_host m hl hg name).trans (hosted_of_ok hbody ho)⟩

/-- A write that succeeds found the heap in nobody's hands. -/
theorem loan_of_set (hset : (m.set e (.object h) name v).run w = .ok (.ok ()) w') :
    (w.engine e).loan = .none := by
  obtain ⟨w₁, hbody, -⟩ := locked_eq_ok.1 hset
  obtain ⟨k, w₂, hk, hbody⟩ := andThen_eq_ok.1 hbody
  obtain ⟨-, rfl⟩ := eq_of_expectHandle hk
  obtain ⟨host, w₃, hstore, -⟩ := andThen_eq_ok.1 hbody
  obtain ⟨hl, -⟩ := eq_of_storeHeap (f := storeOwn k name v) hstore
  simpa using hl

/-- **A write that succeeds puts the object that is written in the place of the old one**, if
a host that was asked declined. -/
theorem exists_withProperty_of_set (hg : (w.engine e).heap.get? h = some o)
    (hset : (m.set e (.object h) name v).run w = .ok (.ok ()) w')
    (hhost : ∀ host expandos, o = .host host expandos →
      w.isAlive host = true ∧ m.DeclinesWrite w e h host name v) :
    ∃ o', withProperty o name v = .ok o'
      ∧ (∀ e', w'.engine e' = (w.storing e h o' v).engine e')
      ∧ ∀ host expandos, o = .host host expandos → w'.isAlive host = true := by
  have hl := loan_of_set hset
  cases ho : o.hostless with
  | true =>
    have hne : ∀ host expandos, o ≠ .host host expandos := by
      rintro host expandos rfl
      cases ho
    cases hw : withProperty o name v with
    | error fault =>
      have := (set_of_refusal m name v hl hg ho hw).symm.trans hset
      simp at this
    | ok o' =>
      obtain ⟨-, rfl⟩ := EStateM.Result.ok.inj
        ((set_of_hostless m name v hl hg ho hw).symm.trans hset)
      exact ⟨o', rfl, fun _ => rfl, fun host expandos h => absurd h (hne host expandos)⟩
  | false =>
    cases o with
    | host host expandos =>
      obtain ⟨ha, hd⟩ := hhost host expandos rfl
      obtain ⟨w₁, hrun, hengine, howners⟩ := set_of_declinesWrite hl hg ha hd
      obtain ⟨-, rfl⟩ := EStateM.Result.ok.inj (hrun.symm.trans hset)
      refine ⟨_, rfl, hengine, ?_⟩
      rintro host' expandos' heq
      obtain ⟨rfl, -⟩ := HeapObject.host.inj heq
      rwa [World.isAlive, howners]
    | _ => cases ho

end Machine

/-! ## Hosts that keep to themselves -/

/-- Asking a host of the embedder's is a run of its program, once the request is on
record. -/
theorem Behaviour.askHost_of_custom (b : Behaviour κ) (depth : Nat) (e : EngineId)
    (r : HostRequest) {state : κ} (hn : w.native? host = some (.custom state)) :
    (b.machine (depth + 1)).askHost e host r w
      = (b.machine depth).run (b.answer host state (.host e r)) []
          (w.record (.asked host (.host e r) w.postures)) :=
  b.request_of_native? depth (.host e r) hn

/-- Hosts that have the method `count` and nothing else. -/
def Behaviour.counting : Behaviour Unit where
  answer _ _
    | .host _ (.getProperty _) => .done (.ok none)
    | .host _ (.setProperty _ _) => .done (.ok false)
    | .host _ (.hasMethod name) => .done (name = "count")
    | _ => .panic .noAnswer
  finaliser _ := .done ()

section Counting

variable {w w' : World Unit} (hn : w.native? host = some (.custom ()))
include hn

/-- They have no side effects, whatever they are asked. -/
theorem Behaviour.undisturbed_of_counting {r : HostRequest} {x : r.Reply}
    (hr : (counting.machine 1).askHost e host r w = .ok x w') : w.Undisturbed w' := by
  rw [counting.askHost_of_custom 0 e r hn] at hr
  have hdone : ∀ y : r.Reply, counting.answer host () (.host e r) = .done y →
      w.Undisturbed w' := by
    intro y hy
    rw [hy] at hr
    obtain ⟨-, rfl⟩ := EStateM.Result.ok.inj hr
    exact ⟨rfl, fun _ => rfl⟩
  cases r with
  | getProperty name => exact hdone _ rfl
  | setProperty name v => exact hdone _ rfl
  | hasMethod name => exact hdone _ rfl
  | _ => cases hr

theorem Behaviour.declinesWrite_of_counting (e : EngineId) (h : Handle) (name : String)
    (v : Value) : (counting.machine 1).DeclinesWrite w e h host name v := by
  have hn' : (w.entered e host [.object h, v]).native? host = some (.custom ()) :=
    (World.native?_modifyOwners _ _ _ _).trans hn
  have hask := counting.askHost_of_custom 0 e (.setProperty name v) hn'
  exact ⟨_, hask, undisturbed_of_counting hn' hask⟩

theorem Behaviour.declinesRead_of_counting (e : EngineId) (h : Handle) {name : String}
    (hname : name ≠ "count") : (counting.machine 1).DeclinesRead w e h host name := by
  have hn' : (w.entered e host [.object h]).native? host = some (.custom ()) :=
    (World.native?_modifyOwners _ _ _ _).trans hn
  have hproperty := counting.askHost_of_custom 0 e (.getProperty name) hn'
  have hmethod : (counting.machine 1).askHost e host (.hasMethod name) _ = .ok (decide _) _ :=
    counting.askHost_of_custom 0 e (.hasMethod name) (w := (w.entered e host [.object h]).record
      (.asked host (.host e (.getProperty name)) (w.entered e host [.object h]).postures)) hn'
  rw [decide_eq_false hname] at hmethod
  exact ⟨_, _, hproperty, undisturbed_of_counting hn' hproperty, hmethod,
    undisturbed_of_counting hn' hmethod⟩

end Counting

/-- The native is one of the embedder's. -/
def Native.isCustom : Native κ → Bool
  | .custom _ => true
  | _ => false

theorem World.native?_of_isCustom {w : World Unit} {id : NativeId}
    (h : (w.native? id).any Native.isCustom = true) : w.native? id = some (.custom ()) := by
  obtain ⟨n, hn, hc⟩ := (Option.any_eq_true _ _).1 h
  cases n with
  | custom state => exact hn
  | _ => cases hc

/-- The world with a wrapper of such a host, and a function. -/
def World.counted : World Unit :=
  ((Behaviour.counting.machine 1).run (do
    let host ← Program.op (.spawn (.custom ()))
    let _ ← Program.op (.createHost ⟨0⟩ host)
    let body ← Program.op (.spawn (.custom ()))
    Program.op (.createFunction ⟨0⟩ "f" body)) []).after {}

theorem World.native?_counted : World.counted.native? ⟨0⟩ = some (.custom ()) :=
  World.native?_of_isCustom (by decide +kernel)

/-! ## The result -/

namespace Machine

/-- **A write is not lost.** After a write to a live object that succeeded, which a host that
was asked for it – and is alive, as the host of a wrapper is – had declined without side
effects, the object is the object that it was, with its other entries as they were, and
every other object is what it was. If it is read under the same name right afterwards, what
was written is read, or as the `length` of an array the number that it is numerically equal
to; unless it is read under `name` from a function, or from a wrapper whose host does not
decline to read the name. -/
theorem get_of_set (hg : (w.engine e).heap.get? h = some o)
    (hset : (m.set e (.object h) name v).run w = .ok (.ok ()) w')
    (hhost : ∀ host expandos, o = .host host expandos →
      w.isAlive host = true ∧ m.DeclinesWrite w e h host name v) :
    (w'.identity? e h = w.identity? e h
        ∧ (∀ props, o.props? = some props → ∃ o' props',
          (w'.engine e).heap.get? h = some o' ∧ o'.props? = some props'
            ∧ props'.others name = props.others name)
        ∧ ∀ e' k, e' ≠ e ∨ k ≠ h →
          (w'.engine e').heap.get? k = (w.engine e').heap.get? k)
      ∧ ((∀ functionName body props, o = .function functionName body props → name ≠ "name") →
        (∀ host expandos, o = .host host expandos → m.DeclinesRead w' e h host name) →
        ∃ x w'', (m.get e (.object h) name).run w' = .ok (.ok x) w''
          ∧ (x.sameValue v = true
            ∨ (∃ els, o = .array els) ∧ name = "length" ∧ x.looseEq v = true)) := by
  obtain ⟨o', hw, hengine, halive⟩ := exists_withProperty_of_set hg hset hhost
  have hheap : ∀ e', (w'.engine e').heap
      = if e = e' then (w.engine e).heap.put h o' else (w.engine e').heap := fun e' => by
    rw [hengine, World.engine_storing]
    split <;> rfl
  have hg' : (w'.engine e).heap.get? h = some o' := by
    rw [hheap, if_pos rfl]
    exact Heap.get?_put_self hg o'
  refine ⟨⟨?_, fun props hp => ?_, fun e' k hne => ?_⟩, fun hf hd => ?_⟩
  · rw [World.identity?, World.identity?, hheap, if_pos rfl, Heap.identity?_put]
    intro a ha
    obtain rfl := Option.some.inj (hg.symm.trans ha)
    exact shell_of_withProperty hw
  · obtain ⟨props', hp', hothers⟩ := others_of_withProperty hw hp
    exact ⟨o', props', hg', hp', hothers⟩
  · rw [hheap]
    split
    case isTrue he =>
      subst he
      exact Heap.get?_put_of_ne _ o' (hne.resolve_left fun h => h rfl)
    case isFalse => rfl
  · have hl' : (w'.engine e).loan.allowsRead = true := by
      rw [hengine, World.engine_storing, if_pos rfl]
      simp [loan_of_set hset, Loan.allowsRead, Loan.none]
    have hread := ownProperty_of_withProperty hw hf
    refine ⟨ownProperty o' name, ?_⟩
    have hrun : ∃ w'', (m.get e (.object h) name).run w' = .ok (.ok (ownProperty o' name)) w'' := by
      cases ho : o'.hostless with
      | true => exact ⟨w', get_of_hostless m name hl' hg' ho⟩
      | false =>
        cases o' with
        | host host expandos' =>
          obtain ⟨expandos, rfl⟩ : ∃ expandos, o = .host host expandos := by
            have hshell := shell_of_withProperty hw
            cases o <;> simp_all [HeapObject.shell]
          exact get_of_declinesRead hl' hg' (halive host expandos rfl) (hd host expandos rfl)
        | _ => cases ho
    obtain ⟨w'', hrun⟩ := hrun
    exact ⟨w'', hrun, hread.imp_left Value.sameValue_iff.2⟩

/-- A host that declines to write `count` but has a method of that name, and has no side
effects: the write succeeds, and what is read then is the method. A function takes a write
to `name` and keeps the name that it had. -/
theorem get_of_set_hidden :
    (∃ (k : Handle) (w' w'' : World Unit), World.counted.Reachable
      ∧ (World.counted.engine ⟨0⟩).heap.get? ⟨0, 0⟩ = some (.host ⟨0⟩ .empty)
      ∧ World.counted.isAlive ⟨0⟩ = true
      ∧ (Behaviour.counting.machine 1).DeclinesWrite World.counted ⟨0⟩ ⟨0, 0⟩ ⟨0⟩ "count"
        (.number (Double.ofNat 5))
      ∧ ((Behaviour.counting.machine 1).set ⟨0⟩ (.object ⟨0, 0⟩) "count"
        (.number (Double.ofNat 5))).run World.counted = .ok (.ok ()) w'
      ∧ (∀ (r : HostRequest) (x : r.Reply) (w₁ w₂ : World Unit),
        w₁.native? ⟨0⟩ = w'.native? ⟨0⟩ →
        (Behaviour.counting.machine 1).askHost ⟨0⟩ ⟨0⟩ r w₁ = .ok x w₂ → w₁.Undisturbed w₂)
      ∧ ((Behaviour.counting.machine 1).get ⟨0⟩ (.object ⟨0, 0⟩) "count").run w'
        = .ok (.ok (.object k)) w''
      ∧ (Value.object k).sameValue (.number (Double.ofNat 5)) = false)
    ∧ ∃ w' w'' : World Unit,
      (World.counted.engine ⟨0⟩).heap.get? ⟨1, 0⟩ = some (.function "f" ⟨1⟩ .empty)
      ∧ ((Behaviour.counting.machine 1).set ⟨0⟩ (.object ⟨1, 0⟩) "name" .null).run World.counted
        = .ok (.ok ()) w'
      ∧ ((Behaviour.counting.machine 1).get ⟨0⟩ (.object ⟨1, 0⟩) "name").run w'
        = .ok (.ok (.string "f")) w'' := by
  have hfunction : ((Behaviour.counting.machine 1).set ⟨0⟩ (.object ⟨1, 0⟩) "name"
      .null).run.finishes World.counted (fun r w' => r.isOk
        && ((Behaviour.counting.machine 1).get ⟨0⟩ (.object ⟨1, 0⟩) "name").run.finishes w'
          fun x _ => x.toOption = some (.string "f")) = true := by
    decide +kernel
  have hruns : ((Behaviour.counting.machine 1).set ⟨0⟩ (.object ⟨0, 0⟩) "count"
      (.number (Double.ofNat 5))).run.finishes World.counted (fun r w' => r.isOk
        && (w'.native? ⟨0⟩).any Native.isCustom
        && ((Behaviour.counting.machine 1).get ⟨0⟩ (.object ⟨0, 0⟩) "count").run.finishes w'
          fun x _ => x.toOption = some (.object ⟨2, 0⟩)) = true := by
    decide +kernel
  refine ⟨?_, ?_⟩
  · obtain ⟨r, w', hset, htest⟩ := exists_of_finishes hruns
    simp only [Bool.and_eq_true] at htest
    obtain ⟨⟨hok, hcustom⟩, hget⟩ := htest
    obtain ⟨x, w'', hget, hx⟩ := exists_of_finishes hget
    obtain rfl : r = .ok () := by cases r <;> simp_all [Except.isOk, Except.toBool]
    obtain rfl : x = .ok (.object ⟨2, 0⟩) := by cases x <;> simp_all [Except.toOption]
    refine ⟨_, w', w'', (Behaviour.counting.reaches_run 1 _ [] .init).1, by decide +kernel,
      by decide +kernel, Behaviour.declinesWrite_of_counting World.native?_counted _ _ _ _, hset,
      fun r x w₁ w₂ hsame hr => ?_, hget, by decide⟩
    exact Behaviour.undisturbed_of_counting
      (hsame.trans (World.native?_of_isCustom hcustom)) hr
  · obtain ⟨r, w', hset, htest⟩ := exists_of_finishes hfunction
    obtain ⟨hok, hget⟩ := (Bool.and_eq_true _ _).mp htest
    obtain ⟨x, w'', hget, hx⟩ := exists_of_finishes hget
    obtain rfl : r = .ok () := by cases r <;> simp_all [Except.isOk, Except.toBool]
    obtain rfl : x = .ok (.string "f") := by cases x <;> simp_all [Except.toOption]
    exact ⟨w', w'', by decide +kernel, hset, hget⟩

/-- Another name is declined in both directions, and what was written is read. -/
theorem get_of_set_counted :
    ∃ (x : Value) (w' w'' : World Unit),
      ((Behaviour.counting.machine 1).set ⟨0⟩ (.object ⟨0, 0⟩) "x" .null).run World.counted
        = .ok (.ok ()) w'
      ∧ ((Behaviour.counting.machine 1).get ⟨0⟩ (.object ⟨0, 0⟩) "x").run w'
        = .ok (.ok x) w''
      ∧ x.sameValue .null = true := by
  have hruns : ((Behaviour.counting.machine 1).set ⟨0⟩ (.object ⟨0, 0⟩) "x" .null).run.finishes
      World.counted (fun r w' => r.isOk && (w'.native? ⟨0⟩).any Native.isCustom) = true := by
    decide +kernel
  obtain ⟨r, w', hset, htest⟩ := exists_of_finishes hruns
  obtain ⟨hok, hcustom⟩ := (Bool.and_eq_true _ _).mp htest
  obtain rfl : r = .ok () := by cases r <;> simp_all [Except.isOk, Except.toBool]
  have hg : (World.counted.engine ⟨0⟩).heap.get? ⟨0, 0⟩ = some (.host ⟨0⟩ .empty) := by
    decide +kernel
  obtain ⟨x, w'', hget, hx⟩ := (get_of_set hg hset fun host expandos heq => by
    obtain ⟨rfl, -⟩ := HeapObject.host.inj heq
    exact ⟨by decide +kernel,
      Behaviour.declinesWrite_of_counting World.native?_counted _ _ _ _⟩).2 nofun
    fun host expandos heq => by
      obtain ⟨rfl, -⟩ := HeapObject.host.inj heq
      exact Behaviour.declinesRead_of_counting (World.native?_of_isCustom hcustom) _ _ (by decide)
  refine ⟨x, w', w'', hset, hget, hx.resolve_right ?_⟩
  rintro ⟨⟨els, hels⟩, -⟩
  cases hels

end Machine

end EmbeddedScript
