import EmbeddedScript.Proofs.Heap.Histories
import EmbeddedScript.Proofs.Heap.Rows
import EmbeddedScript.Proofs.Machine.HostMethods
import EmbeddedScript.Proofs.Machine.Wrappers

/-!
# Names that objects have

Reading a name that an object does not have gives `undefined`, and so does reading one that
holds `undefined`. Listing tells them apart, but lists less than can be read: the `length`
of an array and the `name` of a function are not listed. The two together decide whether an
object without a host has a name, because **what is not listed never reads as `undefined`**
(`Machine.mem_ownNames_iff`).

For a wrapper they come from different answers of its host. Reading a wrapper finds a field
or a method of the host, or an entry of the wrapper's own, or nothing (`Finding`); only the
last two and a field can read as `undefined`. What is listed are the names that the host
contributes, which need not be those of the fields that it answers for.
-/

namespace EmbeddedScript

open Act

variable {κ : Type}

/-! ## Objects without a host -/

/-- **The object has a property of the name**: one that it stores, an element or the length
of an array, or the name of something that can be called. -/
def HeapObject.Has (o : HeapObject) (name : String) : Prop :=
  match o with
  | plain props | host _ props => ∃ v, props.get? name = some v
  | array els =>
    name = "length" ∨ ∃ i v, name = Numeral.write i ∧ (Elements.row els).value? i = some v
  | function _ _ props => name = "name" ∨ ∃ v, props.get? name = some v
  | hostMethod _ _ => name = "name"

namespace Machine

variable {o : HeapObject} {name : String}

/-- **A name that reads as something is there.** -/
theorem has_of_ownProperty (hv : ownProperty o name ≠ .undefined) : o.Has name := by
  have hstored : ∀ {props : Properties Value},
      (props.get? name).getD .undefined ≠ .undefined → ∃ v, props.get? name = some v := by
    intro props hne
    cases hg : props.get? name with
    | some v => exact ⟨v, rfl⟩
    | none => exact absurd (by rw [hg]; rfl) hne
  cases o with
  | plain props => exact hstored hv
  | host id expandos => exact hstored hv
  | array els =>
    refine or_iff_not_imp_left.2 fun hlength => ?_
    cases hindex : Elements.index? name with
    | none => exact absurd (Elements.property_of_not_index hlength hindex) hv
    | some i =>
      obtain ⟨hi, rfl⟩ := Elements.index?_eq_some_iff.1 hindex
      rw [ownProperty, Elements.property_write els hi, Elements.read_eq, Row.read] at hv
      cases hvalue : (Elements.row els).value? i with
      | some v => exact ⟨i, v, rfl, hvalue⟩
      | none => exact absurd (by rw [hvalue]; rfl) hv
  | function functionName body props =>
    refine or_iff_not_imp_left.2 fun hname => hstored ?_
    rwa [ownProperty, if_neg hname] at hv
  | hostMethod target method =>
    by_contra hname
    exact hv (if_neg hname)

/-- **Of the names that read as `undefined`, those that are there are listed.** -/
theorem mem_ownNames_iff (hv : ownProperty o name = .undefined) :
    name ∈ ownNames o ↔ o.Has name := by
  cases o with
  | plain props => exact Properties.mem_keys
  | host id expandos => exact Properties.mem_keys
  | array els =>
    refine Elements.mem_names.trans (or_iff_right ?_).symm
    rintro rfl
    rw [ownProperty, Elements.property_length] at hv
    cases hv
  | function functionName body props =>
    refine Properties.mem_keys.trans (or_iff_right ?_).symm
    rintro rfl
    cases hv
  | hostMethod target method =>
    refine iff_of_false List.not_mem_nil ?_
    rintro rfl
    cases hv

end Machine

/-! ## Wrappers -/

/-- The entry that a wrapper has of its own. -/
def World.ownEntry (w : World κ) (e : EngineId) (h : Handle) (name : String) : Option Value :=
  match (w.engine e).heap.get? h with
  | some (.host _ expandos) => expandos.get? name
  | _ => none

/-- **What reading a name of a wrapper finds.** -/
inductive Finding where
  /-- A field that the host answers for. -/
  | field (v : Value)
  /-- A method that the host has. -/
  | method
  /-- Nothing of the host's; this is the entry of the wrapper's own, if there is one. -/
  | own (entry : Option Value)

namespace Finding

/-- Something was found. -/
def present : Finding → Bool
  | field _ | method => true
  | own entry => entry.isSome

/-- **What is read where this is found**: a method becomes an object, for which there must
be room. -/
def Gives : Except EngineError Finding → Except EngineError Value → Prop
  | .error err, g => g = .error err
  | .ok (field v), g => g = .ok v
  | .ok method, g => (∃ k, g = .ok (.object k)) ∨ ∃ limit, g = .error (.heapLimit limit)
  | .ok (own entry), g => g = .ok (entry.getD .undefined)

/-- What reads as something was found. -/
theorem present_of_gives {f : Finding} {x : Value} (hg : Gives (.ok f) (.ok x))
    (hx : x ≠ .undefined) : f.present = true := by
  cases f with
  | field v => rfl
  | method => rfl
  | own entry =>
    cases entry with
    | some v => rfl
    | none => exact absurd (Except.ok.inj hg) hx

end Finding

namespace Machine

variable {m : Machine κ} {w w' : World κ} {e : EngineId} {h : Handle} {host : NativeId}
  {expandos : Properties Value} {name : String}

/-- **Look for a name of a wrapper**: the host is asked for a field, and then for a method;
last come the wrapper's own entries. -/
def inspect (m : Machine κ) (e : EngineId) (h : Handle) (host : NativeId) (name : String) :
    Attempt κ Finding := do
  match ← ExceptT.mk (m.askHost e host (.getProperty name)) with
  | some v => pure (.field v)
  | none =>
    if ← Act.attempt (m.askHost e host (.hasMethod name)) then pure .method
    else
      match ← Act.object e h with
      | .host _ expandos => pure (.own (expandos.get? name))
      | _ => pure (.own none)

/-- Make what was found into what is read. -/
def deliver (m : Machine κ) (e : EngineId) (h : Handle) (name : String) :
    Finding → Attempt κ Value
  | .field v => pure v
  | .method => m.allocate e (.hostMethod h name)
  | .own entry => pure (entry.getD .undefined)

/-- **Reading is looking first.** -/
theorem readThrough_eq (m : Machine κ) (e : EngineId) (h : Handle) (host : NativeId)
    (name : String) :
    m.readThrough e h host name = m.inspect e h host name >>= m.deliver e h name := by
  unfold readThrough inspect
  simp only [bind_assoc]
  refine bind_congr fun p => ?_
  cases p with
  | some v => rfl
  | none =>
    simp only [bind_assoc]
    refine bind_congr fun q => ?_
    cases q with
    | true => rfl
    | false =>
      simp only [Bool.false_eq_true, if_false, bind_assoc]
      refine bind_congr fun o => ?_
      cases o <;> rfl

/-- What is made of what was found. -/
theorem gives_of_deliver {f : Finding} {g : Except EngineError Value}
    (hp : (m.deliver e h name f).run w = .ok g w') : Finding.Gives (.ok f) g := by
  cases f with
  | field v => exact (pure_eq_ok.1 hp).1.symm
  | own entry => exact (pure_eq_ok.1 hp).1.symm
  | method =>
    cases g with
    | ok x =>
      obtain ⟨-, rfl, -⟩ := eq_of_allocate hp
      exact .inl ⟨_, rfl⟩
    | error err =>
      obtain ⟨limit, rfl⟩ := eq_heapLimit_of_allocate hp
      exact .inr ⟨limit, rfl⟩

/-- **A read that comes to a result has looked for the name**, and gives what it found. -/
theorem exists_inspect_of_get {g : Except EngineError Value}
    (hl : (w.engine e).loan.allowsRead = true)
    (hg : (w.engine e).heap.get? h = some (.host host expandos))
    (hget : (m.get e (.object h) name).run w = .ok g w') :
    ∃ f u, (m.inspect e h host name).run (w.entered e host [.object h]) = .ok f u
      ∧ Finding.Gives f g := by
  rw [get_of_host m hl hg, hosted_eq_ok] at hget
  obtain ⟨w₁, -, hread, -⟩ := hget
  rw [readThrough_eq] at hread
  cases g with
  | ok x =>
    obtain ⟨f, u, hf, hdeliver⟩ := andThen_eq_ok.1 hread
    exact ⟨.ok f, u, hf, gives_of_deliver hdeliver⟩
  | error err =>
    rcases andThen_eq_error.1 hread with hf | ⟨f, u, hf, hdeliver⟩
    · exact ⟨.error err, w₁, hf, rfl⟩
    · exact ⟨.ok f, u, hf, gives_of_deliver hdeliver⟩

/-- **What is found is for the host to say**: a field if it answers for one, a method if it
has one, and otherwise the entry that the wrapper has by then. -/
theorem answers_of_inspect {f : Finding}
    (hf : (m.inspect e h host name).run w = .ok (.ok f) w') :
    ∃ p w₁, m.askHost e host (.getProperty name) w = .ok (.ok p) w₁
      ∧ (∀ v, p = some v ↔ f = .field v)
      ∧ (p = none → ∃ q w₂, m.askHost e host (.hasMethod name) w₁ = .ok q w₂
        ∧ (q = true ↔ f = .method) ∧ (q = false → f = .own (w₂.ownEntry e h name))) := by
  obtain ⟨p, w₁, hp, hf⟩ := andThen_eq_ok.1 hf
  refine ⟨p, w₁, hp, ?_⟩
  cases p with
  | some v =>
    obtain ⟨hv, -⟩ := pure_eq_ok.1 hf
    obtain rfl := Except.ok.inj hv
    exact ⟨fun v' => by rw [Option.some.injEq, Finding.field.injEq], nofun⟩
  | none =>
    obtain ⟨q, w₂, hq, hf⟩ := attempt_andThen hf
    cases q with
    | true =>
      obtain ⟨hv, -⟩ := pure_eq_ok.1 hf
      obtain rfl := Except.ok.inj hv
      exact ⟨fun v => by simp, fun _ => ⟨true, w₂, hq, by simp, nofun⟩⟩
    | false =>
      obtain ⟨o, w₃, ho, hf⟩ := andThen_eq_ok.1 hf
      obtain ⟨ho, -⟩ := eq_of_object ho
      obtain rfl : f = .own (w₂.ownEntry e h name) := by
        rw [World.ownEntry, ho]
        cases o <;> exact (Except.ok.inj (pure_eq_ok.1 hf).1).symm
      exact ⟨fun v => by simp, fun _ => ⟨false, w₂, hq, by simp, fun _ => rfl⟩⟩

/-- **What is listed is what the host contributes**, and the entries of the wrapper's own. -/
theorem mem_of_names {names : List String} (hl : (w.engine e).loan.allowsRead = true)
    (hg : (w.engine e).heap.get? h = some (.host host expandos))
    (hn : (m.names e (.object h)).run w = .ok (.ok names) w') :
    ∃ contributed w₁, m.askHost e host .propertyNames (w.entered e host [.object h])
        = .ok contributed w₁
      ∧ ∀ name, name ∈ names ↔ name ∈ contributed ∨ (w₁.ownEntry e h name).isSome = true := by
  rw [names_of_host m hl hg, hosted_eq_ok] at hn
  obtain ⟨_, _, hlist, -⟩ := hn
  obtain ⟨contributed, w₁, hc, hlist⟩ := attempt_andThen hlist
  obtain ⟨o, w₂, ho, hlist⟩ := andThen_eq_ok.1 hlist
  obtain ⟨ho, -⟩ := eq_of_object ho
  refine ⟨contributed, w₁, hc, fun name => ?_⟩
  rw [World.ownEntry, ho]
  cases o with
  | host id own =>
    obtain rfl := Except.ok.inj (pure_eq_ok.1 hlist).1
    simp only [List.mem_append, List.mem_filter, Properties.mem_keys, Option.isSome_iff_exists,
      Bool.not_eq_true', List.contains_eq_mem, decide_eq_false_iff_not]
    tauto
  | _ =>
    obtain rfl := Except.ok.inj (pure_eq_ok.1 hlist).1
    simp

end Machine

end EmbeddedScript
