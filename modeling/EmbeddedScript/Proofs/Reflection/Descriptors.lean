import EmbeddedScript.Proofs.Machine.Evaluation

/-!
# Descriptors are confirmed once and kept

A lookup of a member asks the bound object only if the class does not remember the name
(`Machine.lookup`). An answer of no leaves no trace, so the next lookup asks again; an
answer of yes is remembered, and **what is remembered first is what every later lookup
gives**, without asking.

The bound object may do anything while it is asked, and look up the same name. Then the
inner lookup is the one that stores the descriptor, and the outer one, which has found
nothing and goes on to store its own, gives the one that it finds stored by then. What
carries this through whole runs is that no step makes a class forget or confuse anything
(`World.Learns`), and that a name comes to be remembered only by being interned.
-/

namespace EmbeddedScript

variable {κ : Type}

namespace World

variable {w w' w'' : World κ} {c : ClassId} {kind : MemberKind} {name : String}
  {d : Descriptor}

/-! ## What classes remember along a run -/

/-- No run takes a class away. -/
theorem size_classes_le_of_reaches (hr : Reaches w w') : w.classes.size ≤ w'.classes.size := by
  induction hr with
  | refl => exact Nat.le_refl _
  | tail _ hs ih => exact Nat.le_trans ih hs.learns.size_le

/-- **What is remembered stays remembered**, however many steps are taken. -/
theorem recalls?_of_reaches (hr : Reaches w w') (hd : w.recalls? c kind name = some d) :
    w'.recalls? c kind name = some d := by
  induction hr with
  | refl => exact hd
  | tail _ hs ih => exact hs.learns.recalls? ih

/-- **What came to be remembered was interned on the way**, when nothing else was stored
under the name. -/
theorem exists_intern_of_reaches (hr : Reaches w w') (hnone : w.recalls? c kind name = none)
    (hd : w'.recalls? c kind name = some d) :
    ∃ w₁ w₂, Reaches w w₁ ∧ w₁.recalls? c kind name = none ∧ Step w₁ w₂ ∧ Reaches w₂ w'
      ∧ w₂.classes = (w₁.intern c kind name).2.classes ∧ (w₁.intern c kind name).1 = d := by
  induction hr with
  | refl =>
    rw [hnone] at hd
    cases hd
  | @tail w₁ w₂ hr hs ih =>
    rcases hs.learns.recalls?_before hd with hbefore | ⟨hbefore, hclasses, hintern⟩
    · obtain ⟨w₃, w₄, hr₃, hnone₃, hs₃, hr₄, hclasses, hintern⟩ := ih hbefore
      exact ⟨w₃, w₄, hr₃, hnone₃, hs₃, hr₄.tail hs, hclasses, hintern⟩
    · exact ⟨w₁, w₂, hr, hbefore, hs, .refl, hclasses, hintern⟩

/-- **A descriptor is remembered under its own name.** -/
theorem Reachable.name_of_recalls? (hw : w.Reachable) (hd : w.recalls? c kind name = some d) :
    d.name = name := by
  have hnone : ({} : World κ).recalls? c kind name = none := by
    show ((#[] : Array ReflectedClass).getD c.index {}).cached? kind name = none
    cases kind <;> rfl
  obtain ⟨w₁, -, -, hnone₁, -, -, -, hintern⟩ := exists_intern_of_reaches hw hnone hd
  rw [← hintern]
  exact name_intern_of_none hnone₁

/-- What is interned has the name that it is interned under. -/
theorem Reachable.name_intern (hw : w.Reachable) (c : ClassId) (kind : MemberKind)
    (name : String) : (w.intern c kind name).1.name = name := by
  cases hd : w.recalls? c kind name with
  | none => exact name_intern_of_none hd
  | some d =>
    rw [intern_of_recalls? hd]
    exact hw.name_of_recalls? hd

end World

/-! ## One lookup -/

namespace Machine

variable {m : Machine κ} {w w' w₁ : World κ} {c : ClassId} {kind : MemberKind}
  {name : String} {e : EngineId} {bound : NativeId} {d : Descriptor}

/-- Ask a bound object whether it has a member. -/
def confirm (m : Machine κ) (kind : MemberKind) (bound : NativeId) (name : String) :
    Act κ Bool :=
  match kind with
  | .method => m.request bound (.bound (.hasMethod name))
  | .field => m.request bound (.bound (.hasProperty name))

/-- **What a lookup does**: nothing if the class remembers the name; otherwise it asks the
bound object, once, and stores a descriptor if the answer is yes. -/
def lookup (m : Machine κ) (kind : MemberKind) (c : ClassId) (e : EngineId)
    (bound : NativeId) (name : String) : Act κ (Option Descriptor) := fun w =>
  match w.recalls? c kind name with
  | some d => .ok (some d) w
  | none =>
    match m.confirm kind bound name w with
    | .ok true w =>
      .ok (some (w.intern c kind name).1)
        (((w.relock e Lock.take).intern c kind name).2.relock e fun l => l.undo .level)
    | .ok false w => .ok none w
    | .error x w => .error x w

/-- **The program of a lookup does this.** -/
theorem run_find (m : Machine κ) (kind : MemberKind) (c : ClassId) (e : EngineId)
    (bound : NativeId) (name : String) :
    m.run (kind.find c e bound name) [] = m.lookup kind c e bound name := by
  funext w
  unfold lookup MemberKind.find
  have hcached : m.perform (.cached c kind name) w = .ok (w.recalls? c kind name) w := rfl
  show m.run (.perform (.cached c kind name) _) [] w = _
  rw [run_perform, orUnwind, hcached]
  cases hd : w.recalls? c kind name with
  | some d => rfl
  | none =>
    cases kind with
    | method =>
      have hask : m.perform (.ask bound (.bound (.hasMethod name))) w
          = m.confirm .method bound name w := rfl
      show m.run (.perform (.ask bound (.bound (.hasMethod name))) _) [] w = _
      rw [run_perform, orUnwind, hask]
      rcases m.confirm .method bound name w with ⟨_ | _, _⟩ | _ <;> rfl
    | field =>
      have hask : m.perform (.ask bound (.bound (.hasProperty name))) w
          = m.confirm .field bound name w := rfl
      show m.run (.perform (.ask bound (.bound (.hasProperty name))) _) [] w = _
      rw [run_perform, orUnwind, hask]
      rcases m.confirm .field bound name w with ⟨_ | _, _⟩ | _ <;> rfl

/-- What is remembered is not asked for. -/
theorem lookup_of_recalls? (hd : w.recalls? c kind name = some d) :
    m.lookup kind c e bound name w = .ok (some d) w := by
  rw [lookup, hd]

/-- What is not remembered is asked for. -/
theorem lookup_of_none (hnone : w.recalls? c kind name = none) :
    m.lookup kind c e bound name w =
      match m.confirm kind bound name w with
      | .ok true w =>
        .ok (some (w.intern c kind name).1)
          (((w.relock e Lock.take).intern c kind name).2.relock e fun l => l.undo .level)
      | .ok false w => .ok none w
      | .error x w => .error x w := by
  rw [lookup, hnone]

/-- **A lookup that gives a descriptor** found it remembered, or asked and was told yes. -/
theorem lookup_eq_some (h : m.lookup kind c e bound name w = .ok (some d) w') :
    (w.recalls? c kind name = some d ∧ w' = w)
      ∨ ∃ w₁, w.recalls? c kind name = none ∧ m.confirm kind bound name w = .ok true w₁
        ∧ (w₁.intern c kind name).1 = d
        ∧ w'.classes = (w₁.intern c kind name).2.classes := by
  cases hd : w.recalls? c kind name with
  | some d' =>
    rw [lookup_of_recalls? hd] at h
    cases h
    exact .inl ⟨rfl, rfl⟩
  | none =>
    rw [lookup_of_none hd] at h
    cases hc : m.confirm kind bound name w with
    | ok confirmed w₁ =>
      rw [hc] at h
      cases confirmed with
      | true =>
        cases h
        exact .inr ⟨w₁, rfl, rfl, rfl, rfl⟩
      | false => cases h
    | error x w₁ =>
      rw [hc] at h
      cases h

/-- What was cut short stays so, however the frame is unwound. -/
theorem map_ensuring_throw {α β : Type} (f : α → β) (x : Abort) (exit : Act κ Unit) :
    f <$> Act.ensuring (throw x) exit = Act.ensuring (throw x) exit := by
  funext w
  have hthrow : ∀ {δ : Type}, (throw x : Act κ δ) w = .error x w := rfl
  show EStateM.map f (Act.ensuring (throw x) exit) w = _
  simp only [EStateM.map, Act.ensuring, hthrow]
  cases exit w <;> rfl

/-- **A result that is converted** when the program is done. -/
theorem run_map {α β : Type} (m : Machine κ) (f : α → β) (p : Program κ α)
    (owned : List Local) : m.run (f <$> p) owned = f <$> m.run p owned := by
  have hcut : ∀ {γ : Type} (owned : List Local) (a : Act κ γ) (g : γ → Act κ α),
      m.orUnwind owned a (fun x => f <$> g x) = f <$> m.orUnwind owned a g := by
    intro γ owned a g
    funext w
    show _ = EStateM.map f (m.orUnwind owned a g) w
    cases ha : a w with
    | ok x w₁ =>
      simp only [EStateM.map, orUnwind, ha]
      rfl
    | error x w₁ =>
      have hcut := congrFun (map_ensuring_throw f x (m.unwind owned)) w₁
      simp only [EStateM.map, orUnwind, ha]
      exact hcut.symm
  show m.run (p.bind (.done ∘ f)) owned = _
  induction p generalizing owned with
  | done a => exact (map_bind f (m.unwind owned) fun _ => pure a).symm
  | panic p => exact (map_bind f (m.unwind owned) fun _ => Act.panic p).symm
  | perform op next ih =>
    rw [run_perform, ← hcut, Program.bind, run_perform]
    exact congrArg (m.orUnwind owned (m.perform op)) (funext fun r => ih r owned)
  | hold l next ih => exact ih (l :: owned)
  | drop next ih =>
    cases owned with
    | nil => exact ih []
    | cons l owned =>
      rw [run_drop, ← hcut, Program.bind, run_drop]
      exact congrArg (m.orUnwind owned (m.dropLocal l)) (funext fun _ => ih owned)
  | forget next ih => exact ih owned.tail

end Machine

/-! ## Lookups along a run -/

section Runs

variable {b : Behaviour κ} {depth : Nat} {w w' w₁ : World κ} {c : ClassId}
  {kind : MemberKind} {name : String} {e : EngineId} {bound : NativeId} {d : Descriptor}

/-- To ask a bound object is to take steps. -/
theorem Behaviour.reaches_confirm {answer : Bool} (hw : w.Sound)
    (h : (b.machine depth).confirm kind bound name w = .ok answer w₁) : w.Reaches w₁ := by
  have hrun : w.Reaches (((b.machine depth).confirm kind bound name).after w) := by
    cases kind with
    | method => exact ((b.roams depth).request bound _ hw).reaches
    | field => exact ((b.roams depth).request bound _ hw).reaches
  rwa [Act.after_of_ok h] at hrun

/-- **What a lookup gives has the name that was looked up.** -/
theorem Behaviour.name_of_lookup (hw : w.Reachable)
    (h : (b.machine depth).lookup kind c e bound name w = .ok (some d) w') : d.name = name := by
  rcases Machine.lookup_eq_some h with ⟨hd, -⟩ | ⟨w₁, -, hconfirm, rfl, -⟩
  · exact hw.name_of_recalls? hd
  · have hw₁ : w₁.Reachable := hw.trans (Behaviour.reaches_confirm hw.sound hconfirm)
    exact hw₁.name_intern c kind name

/-- **What a lookup gives is remembered from then on.** -/
theorem Behaviour.recalls?_of_lookup (hw : w.Sound) (hc : c.index < w.classes.size)
    (h : (b.machine depth).lookup kind c e bound name w = .ok (some d) w') :
    w'.recalls? c kind name = some d := by
  rcases Machine.lookup_eq_some h with ⟨hd, rfl⟩ | ⟨w₁, -, hconfirm, rfl, hclasses⟩
  · exact hd
  · have hreach := Behaviour.reaches_confirm hw hconfirm
    have hlt : c.index < w₁.classes.size :=
      Nat.lt_of_lt_of_le hc (World.size_classes_le_of_reaches hreach)
    rw [World.recalls?_congr hclasses, World.recalls?_intern, if_pos ⟨⟨rfl, hlt⟩, rfl, rfl⟩]

/-- **What an adapter lists as the methods of a name** is what the lookup in its class
gives. -/
theorem Behaviour.exists_of_methodsNamed {self : NativeId} {a : Adapter} {ms : List Descriptor}
    (h : (b.machine depth).run (Adapter.methodsNamed self a e name) [] w = .ok ms w') :
    ∃ cls w₁ r, (b.machine depth).perform (.adapterClass self) w = .ok cls w₁
      ∧ (b.machine depth).lookup .method cls e a.bound name w₁ = .ok r w' ∧ ms = r.toList := by
  unfold Adapter.methodsNamed at h
  change (b.machine depth).run (.perform (.adapterClass self) _) [] w = _ at h
  rw [Machine.run_perform, Machine.orUnwind] at h
  cases hclass : (b.machine depth).perform (.adapterClass self) w with
  | error x w₁ =>
    rw [hclass] at h
    exact absurd h Machine.ensuring_throw_ne_ok
  | ok cls w₁ =>
    rw [hclass] at h
    change (b.machine depth).run
      (Option.toList <$> MemberKind.method.find cls e a.bound name) [] w₁ = _ at h
    rw [Machine.run_map, Machine.run_find, map_eq_pure_bind, Act.bind_eq_ok] at h
    obtain ⟨r, w₂, hr, hms⟩ := h
    obtain ⟨rfl, rfl⟩ := Act.pure_eq_ok.1 hms
    exact ⟨cls, w₁, r, rfl, hr, rfl⟩

/-- **The methods of a name are at most one**, of that name. -/
theorem Behaviour.methodsNamed_of_run {self : NativeId} {a : Adapter} {ms : List Descriptor}
    (hw : w.Reachable)
    (h : (b.machine depth).run (Adapter.methodsNamed self a e name) [] w = .ok ms w') :
    ms.length ≤ 1 ∧ ∀ d ∈ ms, d.name = name := by
  obtain ⟨cls, w₁, r, hclass, hr, rfl⟩ := Behaviour.exists_of_methodsNamed h
  cases r with
  | none => exact ⟨Nat.zero_le 1, fun d hd => absurd hd List.not_mem_nil⟩
  | some d' =>
    refine ⟨Nat.le_refl 1, fun d hd => ?_⟩
    rw [List.mem_singleton.1 hd]
    have hclassed := ((b.roams depth).perform (.adapterClass self) hw.sound).reaches
    rw [Act.after_of_ok hclass] at hclassed
    have hw₁ : w₁.Reachable := hw.trans hclassed
    exact Behaviour.name_of_lookup hw₁ hr

/-- **Descriptors are confirmed once and kept.** Take any lookup of a name in a class, in
any world that embedders' natives can bring about, with natives that may answer differently
each time and look names up themselves.

* If the class remembers the name, the lookup gives what is remembered, and nothing
  happens: nobody is asked.
* Otherwise the bound object is asked, once. If it is cut short, so is the lookup. If it
  says no, the lookup gives nothing and leaves the world as the bound object left it. If it
  says yes, the lookup gives one descriptor: the one that was stored while the bound object
  was asked, if there is one. Under other names, for the other kind of member and in other
  classes, everything is remembered as before.
* What a lookup gave has the name, and every lookup of the name from then on gives it and
  asks nobody.
* Any two lookups in one history that give descriptors for the name give the same, one
  within the other or one after the other.
* What an adapter lists as the methods of the name is at most one descriptor, of the name.
* Nothing is remembered that was not interned, which is the last thing that a lookup does
  that was told yes. -/
theorem Behaviour.lookups_first_wins (b : Behaviour κ) (kind : MemberKind) (name : String)
    (hw : w.Reachable) (hc : c.index < w.classes.size) (depth : Nat) (e : EngineId)
    (bound : NativeId) :
    (∀ d, w.recalls? c kind name = some d →
      (b.machine depth).run (kind.find c e bound name) [] w = .ok (some d) w)
    ∧ (w.recalls? c kind name = none →
      match (b.machine depth).confirm kind bound name w with
      | .error x w₁ => (b.machine depth).run (kind.find c e bound name) [] w = .error x w₁
      | .ok false w₁ => (b.machine depth).run (kind.find c e bound name) [] w = .ok none w₁
      | .ok true w₁ => ∃ d w',
          (b.machine depth).run (kind.find c e bound name) [] w = .ok (some d) w'
          ∧ (∀ d', w₁.recalls? c kind name = some d' → d = d')
          ∧ ∀ c' kind' name', ¬ (c = c' ∧ kind = kind' ∧ name = name') →
              w'.recalls? c' kind' name' = w₁.recalls? c' kind' name')
    ∧ (∀ d w', (b.machine depth).run (kind.find c e bound name) [] w = .ok (some d) w' →
      d.name = name
      ∧ ∀ w₂, w'.Reaches w₂ → ∀ depth₂ e₂ bound₂,
          (b.machine depth₂).run (kind.find c e₂ bound₂ name) [] w₂ = .ok (some d) w₂)
    ∧ (∀ d w', (b.machine depth).run (kind.find c e bound name) [] w = .ok (some d) w' →
      ∀ w₂ d₂ w₂', w₂.Reachable → c.index < w₂.classes.size → ∀ depth₂ e₂ bound₂,
        (b.machine depth₂).run (kind.find c e₂ bound₂ name) [] w₂ = .ok (some d₂) w₂' →
        w'.Reaches w₂' → d₂ = d)
    ∧ (∀ self a ms w',
      (b.machine depth).run (Adapter.methodsNamed self a e name) [] w = .ok ms w' →
      ms.length ≤ 1 ∧ ∀ d ∈ ms, d.name = name)
    ∧ (∀ (w₀ : World κ) d, w₀.Reaches w → w₀.recalls? c kind name = none →
      w.recalls? c kind name = some d →
      ∃ w₁ w₂, w₀.Reaches w₁ ∧ w₁.recalls? c kind name = none ∧ World.Step w₁ w₂
        ∧ w₂.Reaches w ∧ w₂.classes = (w₁.intern c kind name).2.classes
        ∧ (w₁.intern c kind name).1 = d) := by
  simp only [Machine.run_find]
  refine ⟨fun d hd => Machine.lookup_of_recalls? hd, fun hnone => ?_, fun d w' h => ?_,
    fun d w' h w₂ d₂ w₂' hw₂ hc₂ depth₂ e₂ bound₂ h₂ hr => ?_,
    fun self a ms w' h => Behaviour.methodsNamed_of_run hw h,
    fun w₀ d hr hnone hd => World.exists_intern_of_reaches hr hnone hd⟩
  · rw [Machine.lookup_of_none hnone]
    cases hconfirm : (b.machine depth).confirm kind bound name w with
    | error x w₁ => rfl
    | ok answer w₁ =>
      cases answer with
      | false => rfl
      | true =>
        refine ⟨_, _, rfl, fun d' hd' => World.intern_of_recalls? hd',
          fun c' kind' name' hother => ?_⟩
        have hlearned : ((w₁.relock e Lock.take).intern c kind name).2.recalls? c' kind' name'
            = w₁.recalls? c' kind' name' := by
          rw [World.recalls?_intern, if_neg fun h => hother ⟨h.1.1, h.2⟩]
          rfl
        exact hlearned
  · have hrecalls := Behaviour.recalls?_of_lookup hw.sound hc h
    exact ⟨Behaviour.name_of_lookup hw h, fun w₂ hr depth₂ e₂ bound₂ =>
      Machine.lookup_of_recalls? (World.recalls?_of_reaches hr hrecalls)⟩
  · have hrecalls := World.recalls?_of_reaches hr (Behaviour.recalls?_of_lookup hw.sound hc h)
    have hrecalls₂ := Behaviour.recalls?_of_lookup hw₂.sound hc₂ h₂
    exact Option.some.inj (hrecalls₂.symm.trans hrecalls)

end Runs

/-- Bound objects that look a method up themselves when they are first asked for it, and
then have it. -/
def Behaviour.inquisitive : Behaviour Bool where
  answer id asked
    | .bound (.hasMethod name) =>
      if asked then .done true
      else (Program.op (.become id true)).bind fun _ =>
        (MemberKind.method.find ⟨0⟩ ⟨0⟩ id name).bind fun _ => .done true
    | _ => .panic .noAnswer
  finaliser _ := .done ()

/-- The world with one such bound object and one class. -/
def World.unasked : World Bool :=
  ((Behaviour.inquisitive.machine 0).run (do
    let _ ← Program.op (.spawn (.custom false))
    let _ ← Program.op .newClass) []).after {}

/-- **The inner lookup comes first.** The outer one gives the descriptor that the inner one
stored, and so does any lookup after it, with another bound object and another engine. -/
theorem Behaviour.lookups_first_wins_nested :
    ∃ w', (inquisitive.machine 3).run (MemberKind.method.find ⟨0⟩ ⟨0⟩ ⟨0⟩ "run") []
          World.unasked = .ok (some ⟨0, "run"⟩) w'
      ∧ w'.descriptorsMade = 2
      ∧ (inquisitive.machine 0).run (MemberKind.method.find ⟨0⟩ ⟨1⟩ ⟨7⟩ "run") [] w'
          = .ok (some ⟨0, "run"⟩) w' := by
  have hw : World.unasked.Reachable := (inquisitive.reachable_run 0 _ [] .refl).1
  have hfirst : ((inquisitive.machine 3).run
      (MemberKind.method.find ⟨0⟩ ⟨0⟩ ⟨0⟩ "run") []).finishes World.unasked
        (fun r w' => r = some ⟨0, "run"⟩ && w'.descriptorsMade = 2) = true := by
    decide +kernel
  obtain ⟨r, w', hrun, htest⟩ := Act.exists_of_finishes hfirst
  simp only [Bool.and_eq_true, decide_eq_true_eq] at htest
  obtain ⟨rfl, hmade⟩ := htest
  obtain ⟨-, -, hlater, -⟩ := inquisitive.lookups_first_wins .method "run" hw (c := ⟨0⟩)
    (by decide +kernel) 3 ⟨0⟩ ⟨0⟩
  exact ⟨w', hrun, hmade, (hlater _ _ hrun).2 w' .refl 0 ⟨1⟩ ⟨7⟩⟩

end EmbeddedScript
