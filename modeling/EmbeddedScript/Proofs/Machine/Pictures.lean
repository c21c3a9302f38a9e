import EmbeddedScript.Proofs.Machine.Questions

/-!
# Pictures

What is answered about a value is decided by the objects of its engine and by what hosts answer:
by a `Picture` of them. Whether the value can be called, which names it lists and what reading a
name finds are functions of the picture, and the operations of a machine whose hosts answer as
the picture has it come to them (`Machine.Frank`).

A picture says nothing of how many objects the heap would still take. All operations agree with
it nevertheless, but for one: **what a read that finds a method comes to depends on whether there
is room for an object of it** (`Machine.get_of_frank`).
-/

namespace EmbeddedScript

open Act Machine

variable {κ : Type} {m : Machine κ} {w w' : World κ} {e : EngineId} {v : Value} {h : Handle}
  {o : HeapObject} {host : NativeId} {expandos : Properties Value} {name : String}
  {Among : World κ → Prop}

/-- The value that is read where this was found. A method is no value, but becomes one. -/
def Finding.value? : Finding → Option Value
  | .field v => some v
  | .method => none
  | .own entry => some (entry.getD .undefined)

/-- **What there is to be asked about**: the objects of an engine, and what hosts answer. -/
structure Picture where
  /-- The object that a handle denotes. -/
  look : Handle → Option HeapObject
  /-- What a host answers. -/
  answers : NativeId → (r : HostRequest) → r.Reply

namespace Picture

variable {P P' : Picture}

/-- The object that a value denotes. -/
def object? (P : Picture) (v : Value) : Option HeapObject := v.handle?.bind P.look

/-- The kind of the object that a value denotes. -/
def kind? (P : Picture) (v : Value) : Option ObjectKind :=
  match P.object? v with
  | some (.host host expandos) =>
    some ((HeapObject.host host expandos).kind (P.answers host .isCallable))
  | some o => some (o.kind false)
  | none => none

/-- The value can be called. -/
def callable (P : Picture) (v : Value) : Bool := P.kind? v = some .function

/-- The names that a value lists; none if it has no properties. -/
def names (P : Picture) (v : Value) : List String :=
  match P.object? v with
  | some (.host host expandos) =>
    let contributed := P.answers host .propertyNames
    contributed ++ expandos.keys.filter (!contributed.contains ·)
  | some o => ownNames o
  | none => []

/-- What there is of a name behind a wrapper: a field or a method of its host, or an entry of the
wrapper's own. -/
def behind (P : Picture) (host : NativeId) (expandos : Properties Value) (name : String) :
    Option Finding :=
  match P.answers host (.getProperty name) with
  | .error _ => none
  | .ok (some x) => some (.field x)
  | .ok none =>
    if P.answers host (.hasMethod name) then some .method else some (.own (expandos.get? name))

/-- **What reading a name of a value finds**; nothing if that fails. -/
def find (P : Picture) (v : Value) (name : String) : Option Finding :=
  match P.object? v with
  | some (.host host expandos) => P.behind host expandos name
  | some o => some (.own (some (ownProperty o name)))
  | none => none

/-- **A member of the name can be called**: a host's method if there is room for an object of
it, and anything else if what it reads as can be called. -/
def hasMethod (P : Picture) (room : Bool) (v : Value) (name : String) : Bool :=
  match P.find v name with
  | some .method => room
  | some found => found.value?.any P.callable
  | none => false

theorem object?_eq_some : P.object? v = some o ↔ ∃ h, v = .object h ∧ P.look h = some o := by
  cases v <;> simp [object?, Value.handle?]

/-- What is there without a host has the names that it stores. -/
theorem names_of_hostless (ho : P.object? v = some o) (hh : o.hostless = true) :
    P.names v = ownNames o := by
  rw [names, ho]
  cases o with
  | host id expandos => cases hh
  | _ => rfl

theorem find_of_hostless (ho : P.object? v = some o) (hh : o.hostless = true) (name : String) :
    P.find v name = some (.own (some (ownProperty o name))) := by
  rw [find, ho]
  cases o with
  | host id expandos => cases hh
  | _ => rfl

theorem find_of_host (ho : P.object? v = some (.host host expandos)) (name : String) :
    P.find v name = P.behind host expandos name := by
  rw [find, ho]

/-- A member that reads as a value can be called if the value can. -/
theorem hasMethod_of_value? {found : Finding} {x : Value} (hf : P.find v name = some found)
    (hx : found.value? = some x) (room : Bool) : P.hasMethod room v name = P.callable x := by
  rw [hasMethod, hf]
  cases found <;> cases hx <;> rfl

/-- **One picture shows what another shows**, and perhaps more. -/
structure Extends (P P' : Picture) : Prop where
  /-- The objects are there. -/
  look : ∀ {h o}, P.look h = some o → P'.look h = some o
  /-- Hosts answer the same. -/
  answers : P'.answers = P.answers

namespace Extends

variable (hP : P.Extends P')
include hP

theorem object? (ho : P.object? v = some o) : P'.object? v = some o := by
  obtain ⟨h, rfl, ho⟩ := object?_eq_some.1 ho
  exact hP.look ho

/-- What has a kind keeps it. -/
theorem kind? {t : ObjectKind} (ht : P.kind? v = some t) : P'.kind? v = some t := by
  unfold Picture.kind? at ht ⊢
  cases ho : P.object? v with
  | none =>
    rw [ho] at ht
    cases ht
  | some o =>
    rw [ho] at ht
    rwa [hP.object? ho, hP.answers]

/-- What was found is found again. -/
theorem find {found : Finding} (hf : P.find v name = some found) :
    P'.find v name = some found := by
  have hbehind : P'.behind = P.behind := by
    funext host expandos name
    rw [behind, behind, hP.answers]
  unfold Picture.find at hf ⊢
  cases ho : P.object? v with
  | none =>
    rw [ho] at hf
    cases hf
  | some o =>
    rw [ho] at hf
    rwa [hP.object? ho, hbehind]

theorem callable (hc : P.callable v = true) : P'.callable v = true :=
  decide_eq_true (hP.kind? (of_decide_eq_true hc))

end Extends

end Picture

/-- The picture of an engine whose hosts answer like this. -/
def World.picture (w : World κ) (e : EngineId) (answers : NativeId → (r : HostRequest) → r.Reply) :
    Picture :=
  ⟨(w.engine e).heap.get?, answers⟩

/-- **Hosts are discreet** among these worlds, **and answer like this** whenever they are asked. -/
structure Machine.Frank (m : Machine κ) (e : EngineId) (Among : World κ → Prop)
    (answers : NativeId → (r : HostRequest) → r.Reply) : Prop extends m.Tactful e Among where
  /-- A host answers what it answers. -/
  answer : ∀ {w h host expandos w'} {r : HostRequest} {x : r.Reply}, Among w →
    (w.engine e).heap.get? h = some (.host host expandos) → r.IsQuestion →
    m.askHost e host r w = .ok x w' → x = answers host r

variable {answers : NativeId → (r : HostRequest) → r.Reply}

/-- While a host is asked, the picture is the same. -/
theorem World.picture_entered (w : World κ) (e : EngineId) (host : NativeId) (vs : List Value) :
    (w.entered e host vs).picture e answers = w.picture e answers := by
  rw [picture, engine_entered, if_pos rfl]
  rfl

/-- Where nothing was touched, the picture is the same. -/
theorem World.Untouched.picture (hu : w.Untouched w') :
    w'.picture e answers = w.picture e answers := by
  rw [World.picture, hu.engine]
  rfl

/-- What is in the picture is there. -/
theorem World.get?_of_object? (ho : (w.picture e answers).object? v = some o) :
    ∃ h, v = .object h ∧ (w.engine e).heap.get? h = some o :=
  Picture.object?_eq_some.1 ho

namespace Machine

/-! ## What is left behind -/

namespace Materialised

variable {g : Except EngineError Value} (hm : Materialised e h name Among w g w')
  (hwf : (w.engine e).heap.WellFormed)
include hm hwf

theorem wellFormed : (w'.engine e).heap.WellFormed := by
  rw [hm.placed.engine, if_pos rfl]
  exact hwf.place _

/-- Everything else is still there. -/
theorem picture : (w.picture e answers).Extends (w'.picture e answers) where
  look {k o} hg := by
    replace hg : (w.engine e).heap.get? k = some o := hg
    show (w'.engine e).heap.get? k = some o
    rw [hm.placed.engine, if_pos rfl]
    exact Heap.get?_place_of_some hwf _ hg
  answers := rfl

end Materialised

/-! ## Looking at the kind -/

/-- **The kind of a value** is the one in the picture. -/
theorem kind_of_frank {t : Option ObjectKind} (hf : m.Frank e Among answers) (hw : Among w)
    (hk : m.kind e v w = .ok t w') : t = (w.picture e answers).kind? v := by
  obtain ⟨rfl, -, hnone⟩ | ⟨h, o, rfl, hg, hh, rfl, -⟩
    | ⟨h, host, expandos, callable, rfl, hg, hreading, rfl⟩ := kind_cases hk
  · have hobject : (w.picture e answers).object? v = none := by
      by_contra hsome
      obtain ⟨o, ho⟩ := Option.ne_none_iff_exists'.1 hsome
      obtain ⟨h, rfl, hg⟩ := World.get?_of_object? ho
      exact hnone h o rfl hg
    rw [Picture.kind?, hobject]
  · have hobject : (w.picture e answers).object? (.object h) = some o := hg
    rw [Picture.kind?, hobject]
    cases o with
    | host host expandos => cases hh
    | _ => rfl
  · have hobject : (w.picture e answers).object? (.object h) = some (.host host expandos) := hg
    obtain ⟨w₁, hask, -⟩ := within_eq_ok.1 hreading
    obtain rfl := hf.answer (r := .isCallable) (hf.stays hw (World.resembles_modifyEngine rfl))
      (by rw [World.engine_modifyEngine_self]; exact hg) trivial hask
    rw [Picture.kind?, hobject]
    rfl

/-! ## Listing -/

/-- **Listing a wrapper** gives what its host contributes, and then the entries of its own. -/
theorem listThrough_of_frank {l : Except EngineError (List String)}
    (hf : m.Frank e Among answers) (hw : Among w)
    (hg : (w.engine e).heap.get? h = some (.host host expandos))
    (hl : (m.listThrough e h host).run w = .ok l w') :
    l = .ok ((w.picture e answers).names (.object h)) := by
  have hobject : (w.picture e answers).object? (.object h) = some (.host host expandos) := hg
  obtain ⟨contributed, w₁, hask, hl⟩ := attempt_andThen hl
  obtain rfl := hf.answer (r := .propertyNames) hw hg trivial hask
  -- the wrapper is still there
  have hcalm := hf.discreet (r := .propertyNames) hw hg trivial hask
  have hlist := (pure_eq_ok.1 (object_andThen (by rw [hcalm.untouched.engine, hg]) hl)).1
  rw [Picture.names, hobject]
  exact hlist.symm

/-- **The names of a value** are those in the picture; where listing fails there are none. -/
theorem names_of_frank {l : Except EngineError (List String)} (hf : m.Frank e Among answers)
    (hw : Among w) (hn : (m.names e v).run w = .ok l w') :
    l.toOption.getD [] = (w.picture e answers).names v := by
  cases ho : (w.picture e answers).object? v with
  | none =>
    rw [Picture.names, ho]
    cases l with
    | error err => rfl
    | ok l =>
      obtain ⟨h, o, rfl, hg⟩ := exists_get?_of_locked hn
      cases ho.symm.trans hg
  | some o =>
    obtain ⟨h, rfl, hg⟩ := World.get?_of_object? ho
    have hl := allowsRead_of_locked hn
    obtain hh | ⟨host, expandos, rfl⟩ := o.hostless_or
    · obtain ⟨rfl, -⟩ :=
        EStateM.Result.ok.inj (hn.symm.trans (names_of_hostless m hl hg hh))
      exact (Picture.names_of_hostless ho hh).symm
    · have ha := hf.alive hw hg
      rw [names_of_host m hl hg] at hn
      obtain ⟨w₁, -, hlist, -⟩ := hosted_eq_ok.1 hn
      rw [listThrough_of_frank hf (hf.stays hw (World.resembles_entered ha _))
        (World.get?_entered hg) hlist, World.picture_entered]
      rfl

/-! ## Reading -/

/-- **Looking for a name of a wrapper** finds what the picture has. -/
theorem inspect_of_frank {f : Except EngineError Finding} (hf : m.Frank e Among answers)
    (hw : Among w) (hg : (w.engine e).heap.get? h = some (.host host expandos))
    (hi : (m.inspect e h host name).run w = .ok f w') :
    f.toOption = (w.picture e answers).behind host expandos name := by
  have hbehind : (w.picture e answers).behind host expandos name
      = match answers host (.getProperty name) with
        | .error _ => none
        | .ok (some x) => some (Finding.field x)
        | .ok none =>
          if answers host (.hasMethod name) then some .method
          else some (.own (expandos.get? name)) := rfl
  rw [hbehind]
  obtain ⟨p, w₁, hp, hrest⟩ := andThen_cases hi
  obtain rfl := hf.answer (r := .getProperty name) hw hg trivial hp
  have hcalm := hf.discreet (r := .getProperty name) hw hg trivial hp
  have hg₁ : (w₁.engine e).heap.get? h = some (.host host expandos) := by
    rw [hcalm.untouched.engine, hg]
  obtain ⟨err, herr, rfl, -⟩ | ⟨p, hok, hi⟩ := hrest
  · rw [herr]
    rfl
  · rw [hok]
    cases p with
    | some x =>
      obtain ⟨rfl, -⟩ := pure_eq_ok.1 hi
      rfl
    | none =>
      obtain ⟨yes, w₂, hask, hi⟩ := attempt_andThen hi
      have hcalm₁ := hf.discreet (r := .hasMethod name) hcalm.among hg₁ trivial hask
      have hyes : yes = answers host (.hasMethod name) :=
        hf.answer (r := .hasMethod name) hcalm.among hg₁ trivial hask
      rw [← hyes]
      cases yes with
      | true =>
        obtain ⟨rfl, -⟩ := pure_eq_ok.1 hi
        rfl
      | false =>
        obtain ⟨rfl, -⟩ :=
          pure_eq_ok.1 (object_andThen (by rw [hcalm₁.untouched.engine, hg₁]) hi)
        rfl

/-- What is read is what was found, if that was no method. -/
theorem toOption_of_gives {f : Except EngineError Finding} {g : Except EngineError Value}
    (hg : Finding.Gives f g) (hm : f = .ok .method → ∃ err, g = .error err) :
    g.toOption = f.toOption.bind Finding.value? := by
  cases f with
  | error err =>
    obtain rfl : g = .error err := hg
    rfl
  | ok found =>
    cases found with
    | method =>
      obtain ⟨err, rfl⟩ := hm rfl
      rfl
    | field x =>
      obtain rfl : g = .ok x := hg
      rfl
    | own entry =>
      obtain rfl : g = .ok (entry.getD .undefined) := hg
      rfl

/-- **What a read comes to** is what the picture has, unless that is a method: then it comes to
an object if there is room for one, and fails if there is none. -/
theorem get_of_frank {g : Except EngineError Value} (hf : m.Frank e Among answers)
    (hw : Among w) (hwf : (w.engine e).heap.WellFormed)
    (hget : (m.get e v name).run w = .ok g w') :
    (∃ h, v = .object h ∧ (w.picture e answers).find v name = some .method
        ∧ Materialised e h name Among w g w')
      ∨ w.Calm Among w' ∧ g.toOption = ((w.picture e answers).find v name).bind Finding.value?
        ∧ ((w.picture e answers).find v name = some .method →
          (w.engine e).heap.refusal?.isNone = false) := by
  cases ho : (w.picture e answers).object? v with
  | none =>
    have hfind : (w.picture e answers).find v name = none := by rw [Picture.find, ho]
    rw [hfind]
    rcases get_of_tactful hf.toTactful hw hwf hget with hc | ⟨h, _, _, rfl, hg, -⟩
    · refine .inr ⟨hc, ?_, nofun⟩
      cases g with
      | error err => rfl
      | ok x =>
        obtain ⟨h, o, rfl, hg⟩ := exists_get?_of_locked hget
        cases ho.symm.trans hg
    · cases ho.symm.trans hg
  | some o =>
    obtain ⟨h, rfl, hg⟩ := World.get?_of_object? ho
    have hl := allowsRead_of_locked hget
    obtain hh | ⟨host, expandos, rfl⟩ := o.hostless_or
    · obtain ⟨rfl, rfl⟩ :=
        EStateM.Result.ok.inj (hget.symm.trans (get_of_hostless m name hl hg hh))
      rw [Picture.find_of_hostless ho hh]
      exact .inr ⟨.refl hw, rfl, nofun⟩
    · have ha := hf.alive hw hg
      obtain ⟨f, u, hi, hgives, hcase⟩ := get_of_wrapper hf.toTactful hw hwf hg hget
      have hfind := inspect_of_frank hf (hf.stays hw (World.resembles_entered ha _))
        (World.get?_entered hg) hi
      rw [World.picture_entered] at hfind
      rw [Picture.find_of_host ho, ← hfind]
      rcases hcase with ⟨rfl, hm⟩ | ⟨hc, hrefused⟩
      · exact .inl ⟨h, rfl, rfl, hm⟩
      · refine .inr ⟨hc, toOption_of_gives hgives fun hm => ?_, fun hm => ?_⟩
        · obtain ⟨err, -, rfl⟩ := hrefused hm
          exact ⟨err, rfl⟩
        · obtain rfl : f = .ok .method := by
            cases f with
            | error err => cases hm
            | ok found => exact congrArg _ (Option.some.inj hm)
          obtain ⟨err, hfull, -⟩ := hrefused rfl
          rw [hfull]
          rfl

end Machine

end EmbeddedScript
