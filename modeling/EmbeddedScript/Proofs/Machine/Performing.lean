import EmbeddedScript.Proofs.Machine.Evaluation
import EmbeddedScript.Proofs.Machine.Reports

/-!
# What a run performs

Which operations the run of a program performs depends on what the earlier ones came to.
`Machine.Performs` says of an operation that the run comes to it, and in which world. It
distributes over sequences just as evaluation does (`Machine.performs_bind`), so that what a
long program performs is what its pieces perform, each where the last one has led.

Two things are said of runs in these terms. One that neither adds to the reports of an
engine nor takes them leaves them to natives (`Machine.ReportsWithin.run`), and a call that
the program makes throws (`Machine.Throws`) when it is performed and comes to an exception.
-/

namespace EmbeddedScript

variable {κ α β : Type}

namespace Machine

open Act

variable {m : Machine κ} {e : EngineId} {R : List String → List String → Prop}

/-- **The operation is performed** in a world when the program is run. -/
def Performs (m : Machine κ) (o : Op κ) (w' : World κ) :
    Program κ α → List Local → World κ → Prop
  | .done _, _, _ | .panic _, _, _ => False
  | .perform o' next, owned, w =>
    (o' = o ∧ w = w') ∨ ∃ r w₁, m.perform o' w = .ok r w₁ ∧ m.Performs o w' (next r) owned w₁
  | .hold l next, owned, w => m.Performs o w' next (l :: owned) w
  | .drop next, owned, w =>
    match owned with
    | [] => m.Performs o w' next [] w
    | l :: owned => ∃ w₁, m.dropLocal l w = .ok () w₁ ∧ m.Performs o w' next owned w₁
  | .forget next, owned, w => m.Performs o w' next owned.tail w

variable {o : Op κ} {w w' : World κ} {owned : List Local}

theorem performs_op {o' : Op κ} :
    m.Performs o w' (Program.op o') owned w ↔ o' = o ∧ w = w' := by
  show ((o' = o ∧ w = w') ∨ ∃ r w₁, m.perform o' w = .ok r w₁ ∧ False) ↔ _
  simp

/-- **A sequence performs** what its first piece performs, and what its second performs
where the first has led. -/
theorem performs_bind {p : Program κ α} {f : α → Program κ β} :
    m.Performs o w' (p >>= f) owned w ↔
      m.Performs o w' p owned w
        ∨ ∃ x rest w₁, m.eval p owned w = .ok (x, rest) w₁ ∧ m.Performs o w' (f x) rest w₁ := by
  show m.Performs o w' (p.bind f) owned w ↔ _
  induction p generalizing owned w with
  | done x =>
    show m.Performs o w' (f x) owned w ↔ False ∨ ∃ y rest w₁,
      (pure (x, owned) : Act κ (α × List Local)) w = .ok (y, rest) w₁ ∧ _
    constructor
    · intro h
      exact .inr ⟨x, owned, w, rfl, h⟩
    · rintro (h | ⟨y, rest, w₁, hy, h⟩)
      · exact h.elim
      · obtain ⟨hresult, rfl⟩ := pure_eq_ok.1 hy
        obtain ⟨rfl, rfl⟩ := Prod.mk.inj hresult
        exact h
  | panic p =>
    show False ↔ False ∨ ∃ y rest w₁, Act.panic p w = .ok (y, rest) w₁ ∧ _
    constructor
    · exact False.elim
    · rintro (h | ⟨y, rest, w₁, hy, -⟩)
      · exact h
      · cases hy
  | perform o' next ih =>
    show ((o' = o ∧ w = w') ∨ ∃ r w₁, m.perform o' w = .ok r w₁
        ∧ m.Performs o w' ((next r).bind f) owned w₁)
      ↔ ((o' = o ∧ w = w') ∨ ∃ r w₁, m.perform o' w = .ok r w₁
        ∧ m.Performs o w' (next r) owned w₁)
        ∨ ∃ x rest w₁, (m.perform o' >>= fun r => m.eval (next r) owned) w = _ ∧ _
    simp only [ih, bind_eq_ok]
    constructor
    · rintro (h | ⟨r, w₁, hr, h | ⟨x, rest, w₂, hx, h⟩⟩)
      · exact .inl (.inl h)
      · exact .inl (.inr ⟨r, w₁, hr, h⟩)
      · exact .inr ⟨x, rest, w₂, ⟨r, w₁, hr, hx⟩, h⟩
    · rintro ((h | ⟨r, w₁, hr, h⟩) | ⟨x, rest, w₂, ⟨r, w₁, hr, hx⟩, h⟩)
      · exact .inl h
      · exact .inr ⟨r, w₁, hr, .inl h⟩
      · exact .inr ⟨r, w₁, hr, .inr ⟨x, rest, w₂, hx, h⟩⟩
  | hold l next ih => exact ih
  | drop next ih =>
    cases owned with
    | nil => exact ih
    | cons l owned =>
      show (∃ w₁, m.dropLocal l w = .ok () w₁ ∧ m.Performs o w' (next.bind f) owned w₁)
        ↔ (∃ w₁, m.dropLocal l w = .ok () w₁ ∧ m.Performs o w' next owned w₁)
          ∨ ∃ x rest w₁, (m.dropLocal l >>= fun _ => m.eval next owned) w = _ ∧ _
      simp only [ih, bind_eq_ok]
      constructor
      · rintro ⟨w₁, hl, h | ⟨x, rest, w₂, hx, h⟩⟩
        · exact .inl ⟨w₁, hl, h⟩
        · exact .inr ⟨x, rest, w₂, ⟨(), w₁, hl, hx⟩, h⟩
      · rintro (⟨w₁, hl, h⟩ | ⟨x, rest, w₂, ⟨_, w₁, hl, hx⟩, h⟩)
        · exact ⟨w₁, hl, .inl h⟩
        · exact ⟨w₁, hl, .inr ⟨x, rest, w₂, hx, h⟩⟩
  | forget next ih => exact ih

/-- A program that owns something performs what it performs in the larger frame. -/
theorem performs_owning {l : Local} {p : Program κ α} :
    m.Performs o w' (Program.owning l p) owned w ↔ m.Performs o w' p (l :: owned) w := by
  show m.Performs o w' (p >>= fun y => Program.drop (.done y)) (l :: owned) w ↔ _
  refine performs_bind.trans (or_iff_left ?_)
  rintro ⟨y, rest, w₁, -, h⟩
  cases rest with
  | nil => exact h.elim
  | cons l' rest =>
    obtain ⟨_, -, hnone⟩ := h
    exact hnone.elim

/-- **The world in which an operation is performed** is one that an excursion leads to. -/
theorem Roams.excursion_of_performs (hm : m.Roams) {p : Program κ α}
    (h : m.Performs o w' p owned w) (hw : w.Sound) : World.Excursion True w w' := by
  induction p generalizing owned w with
  | done x => exact h.elim
  | panic p => exact h.elim
  | perform o' next ih =>
    rcases h with ⟨-, rfl⟩ | ⟨r, w₁, hr, h⟩
    · exact .refl w
    · have hx := hm.perform o' hw
      rw [after_of_ok hr] at hx
      exact hx.trans (ih r h (hw.excursion hx))
  | hold l next ih => exact ih h hw
  | drop next ih =>
    cases owned with
    | nil => exact ih h hw
    | cons l owned =>
      obtain ⟨w₁, hl, h⟩ := h
      have hx := hm.dropLocal l hw
      rw [after_of_ok hl] at hx
      exact hx.trans (ih h (hw.excursion hx))
  | forget next ih => exact ih h hw

/-- **A piece of a program in which nothing is reported** leaves the list to natives. -/
theorem ReportsWithin.eval (hm : m.ReportsWithin e R) {p : Program κ α} {x : α × List Local}
    (h : ∀ o w', m.Performs o w' p owned w → ¬ o.Reports e) (hx : m.eval p owned w = .ok x w') :
    R (w.reported e) (w'.reported e) := by
  induction p generalizing owned w with
  | done y =>
    obtain ⟨-, rfl⟩ := pure_eq_ok.1 hx
    exact hm.refl _
  | panic p => cases hx
  | perform o next ih =>
    obtain ⟨r, w₁, hr, hx⟩ := bind_eq_ok.1 hx
    exact hm.trans (hm.rel_perform (h o w (.inl ⟨rfl, rfl⟩)) hr)
      (ih r (fun o' w' ho' => h o' w' (.inr ⟨r, w₁, hr, ho'⟩)) hx)
  | hold l next ih => exact ih h hx
  | drop next ih =>
    cases owned with
    | nil => exact ih h hx
    | cons l owned =>
      obtain ⟨u, w₁, hl, hx⟩ := bind_eq_ok.1 hx
      exact hm.trans (hm.rel_dropLocal hl) (ih (fun o' w' ho' => h o' w' ⟨w₁, hl, ho'⟩) hx)
  | forget next ih => exact ih h hx

/-- **A run in which nothing is reported**, and no reports are taken, leaves the list to
natives, however it ends. -/
theorem ReportsWithin.run (hm : m.ReportsWithin e R) {p : Program κ α}
    (h : ∀ o w', m.Performs o w' p owned w → ¬ o.Reports e) :
    R (w.reported e) (((m.run p owned).after w).reported e) := by
  -- what is left of a frame is dropped when an action was cut short
  have hcut : ∀ {γ : Type} (a : Act κ γ) (f : γ → Act κ α) (o : List Local) (w : World κ),
      R (w.reported e) ((a.after w).reported e) →
      (∀ x w₁, a w = .ok x w₁ → R (w₁.reported e) (((f x).after w₁).reported e)) →
      R (w.reported e) (((m.orUnwind o a f).after w).reported e) := by
    intro γ a f o w ha hf
    unfold after orUnwind
    cases hr : a w with
    | ok x w₁ =>
      rw [after_of_ok hr] at ha
      exact hm.trans ha (hf x w₁ hr)
    | error x w₁ =>
      rw [after_of_error hr] at ha
      have hu := (Act.Abides.ensuring (.throw (α := α) x) (fun w₂ _ _ => hm.unwind (w := w₂) o)
        (w := w₁) trivial).2
      exact hm.trans ha hu
  induction p generalizing owned w with
  | done x => exact ((hm.unwind owned).bind (fun _ _ _ _ _ => .pure x) trivial).2
  | panic p => exact ((hm.unwind owned).bind (fun _ _ _ _ _ => .panic p) trivial).2
  | perform o next ih =>
    rw [run_perform]
    refine hcut _ _ owned w (hm.perform (h o w (.inl ⟨rfl, rfl⟩)) trivial).2 fun r w₁ hr => ?_
    exact ih r fun o' w' ho' => h o' w' (.inr ⟨r, w₁, hr, ho'⟩)
  | hold l next ih => exact ih h
  | drop next ih =>
    cases owned with
    | nil => exact ih h
    | cons l owned =>
      rw [run_drop]
      refine hcut _ _ owned w (hm.dropLocal l trivial).2 fun _ w₁ hl => ?_
      exact ih fun o' w' ho' => h o' w' ⟨w₁, hl, ho'⟩
  | forget next ih => exact ih h

/-! ## Calls that throw -/

/-- **A call that the program makes throws** a value, and leaves this world behind. -/
def Throws (m : Machine κ) (e : EngineId) (p : Program κ α) (owned : List Local) (w : World κ)
    (thrown : Value) (w' : World κ) : Prop :=
  ∃ callee this args w₀, m.Performs (.call e callee this args) w₀ p owned w
    ∧ m.perform (.call e callee this args) w₀ = .ok (.error (.exception thrown)) w'

variable {p : Program κ α} {f : α → Program κ β} {thrown : Value}

/-- What throws in a sequence throws in one of its pieces. -/
theorem throws_bind :
    m.Throws e (p >>= f) owned w thrown w' ↔
      m.Throws e p owned w thrown w'
        ∨ ∃ x rest w₁, m.eval p owned w = .ok (x, rest) w₁
          ∧ m.Throws e (f x) rest w₁ thrown w' := by
  constructor
  · rintro ⟨callee, this, args, w₀, hp, hr⟩
    rcases performs_bind.1 hp with h | ⟨x, rest, w₁, hx, h⟩
    · exact .inl ⟨callee, this, args, w₀, h, hr⟩
    · exact .inr ⟨x, rest, w₁, hx, callee, this, args, w₀, h, hr⟩
  · rintro (⟨callee, this, args, w₀, h, hr⟩ | ⟨x, rest, w₁, hx, callee, this, args, w₀, h, hr⟩)
    · exact ⟨callee, this, args, w₀, performs_bind.2 (.inl h), hr⟩
    · exact ⟨callee, this, args, w₀, performs_bind.2 (.inr ⟨x, rest, w₁, hx, h⟩), hr⟩

theorem throws_owning {l : Local} :
    m.Throws e (Program.owning l p) owned w thrown w' ↔
      m.Throws e p (l :: owned) w thrown w' := by
  simp only [Throws, performs_owning]

theorem throws_op {o : Op κ} :
    m.Throws e (Program.op o) owned w thrown w' ↔
      ∃ callee this args, o = .call e callee this args
        ∧ (m.call e callee this args).run w = .ok (.error (.exception thrown)) w' := by
  constructor
  · rintro ⟨callee, this, args, w₀, hp, hr⟩
    obtain ⟨rfl, rfl⟩ := performs_op.1 hp
    exact ⟨callee, this, args, rfl, hr⟩
  · rintro ⟨callee, this, args, rfl, hr⟩
    exact ⟨callee, this, args, w, performs_op.2 ⟨rfl, rfl⟩, hr⟩

/-- **A call comes to nothing where the heap cannot be read**: the callee is looked at, or
an error object is made. -/
theorem allowsRead_of_call {callee this : Value} {args : List Value}
    {r : Except EngineError Value} (h : (m.call e callee this args).run w = .ok r w') :
    (w.engine e).loan.allowsRead = true := by
  by_contra hl
  rw [Bool.not_eq_true] at hl
  obtain ⟨w₁, hlocked, -⟩ := locked_eq_ok.1 h
  obtain ⟨w₂, hbody, -⟩ := pinning_eq_ok.1 hlocked
  have hlent : ((World.push (w.modifyEngine e fun s => { s with lock := s.lock.take }) e
      (callee :: this :: args)).engine e).loan.allowsRead = false := by
    rw [World.push, World.engine_modifyEngine_self, World.engine_modifyEngine_self]
    exact hl
  generalize World.push _ e (callee :: this :: args) = w₃ at hbody hlent
  obtain ⟨target, w₄, htarget, hrest⟩ := bind_eq_ok.1 hbody
  cases callee with
  | object k =>
    have hread : (Act.object e k).run w₃ = .error (.panicked .heapLent) w₃ :=
      readHeap_of_lent hlent (Heap.get · k)
    have hcut : (m.callTarget e (.object k)).run w₃ = .error (.panicked .heapLent) w₃ :=
      andThen_of_cut hread
    cases hcut.symm.trans htarget
  | _ =>
    -- nothing is read, but the error object is not placed either
    have hwrites : (w₃.engine e).loan.allowsWrite = false := by
      cases hloan : (w₃.engine e).loan with
      | shared readers => rw [hloan] at hlent; cases hlent
      | exclusive => rfl
    obtain ⟨rfl, rfl⟩ := pure_eq_ok.1 htarget
    obtain ⟨_, _, hattempt, -⟩ := bind_eq_ok.1 hrest
    obtain ⟨_, hraise, -⟩ := attempt_eq_ok.1 hattempt
    obtain ⟨_, _, hallocate, -⟩ := bind_eq_ok.1 hraise
    obtain ⟨_, _, hwrite, -⟩ := bind_eq_ok.1 hallocate
    cases (writeHeap_of_lent hwrites _).symm.trans hwrite

/-- **Where a call threw, the heap can be read.** -/
theorem Throws.allowsRead (ht : m.Throws e p owned w thrown w') (hm : m.Roams) (hw : w.Sound) :
    (w'.engine e).loan.allowsRead = true := by
  obtain ⟨callee, this, args, w₀, hp, hr⟩ := ht
  have hw₀ := hw.excursion (hm.excursion_of_performs hp hw)
  have hx := hm.perform (.call e callee this args) hw₀
  rw [after_of_ok hr] at hx
  rw [(hx.engine e).2]
  exact allowsRead_of_call hr

end Machine

/-! ## Flat programs -/

/-- **The program only performs operations of a kind**, and its frame is none of its
concern. -/
def Program.Flat (P : Op κ → Prop) : Program κ α → Prop
  | .done _ | .panic _ => True
  | .perform o next => P o ∧ ∀ r, (next r).Flat P
  | .hold .. | .drop _ | .forget _ => False

namespace Program.Flat

variable {P : Op κ → Prop} {m : Machine κ} {p : Program κ α} {f : α → Program κ β} {o : Op κ}
  {w w' : World κ} {owned : List Local}

theorem bind (hp : p.Flat P) (hf : ∀ x, (f x).Flat P) : (p >>= f).Flat P := by
  show (p.bind f).Flat P
  induction p with
  | done x => exact hf x
  | panic reason => exact trivial
  | perform o next ih => exact ⟨hp.1, fun r => ih r (hp.2 r)⟩
  | _ => exact hp.elim

theorem map {g : α → β} (hp : p.Flat P) : (g <$> p).Flat P := hp.bind fun _ => trivial

theorem op {o : Op κ} (ho : P o) : (Program.op o).Flat P := ⟨ho, fun _ => trivial⟩

/-- Every operation that it performs is of the kind. -/
theorem of_performs (hp : p.Flat P) (h : m.Performs o w' p owned w) : P o := by
  induction p generalizing owned w with
  | done x => exact h.elim
  | panic reason => exact h.elim
  | perform o' next ih =>
    rcases h with ⟨rfl, -⟩ | ⟨r, w₁, -, h⟩
    · exact hp.1
    · exact ih r (hp.2 r) h
  | _ => exact hp.elim

/-- It leaves its frame as it was. -/
theorem eq_of_eval (hp : p.Flat P) {x : α} {rest : List Local}
    (h : m.eval p owned w = .ok (x, rest) w') : rest = owned := by
  induction p generalizing owned w with
  | done y =>
    obtain ⟨hresult, -⟩ := Act.pure_eq_ok.1 h
    exact (Prod.mk.inj hresult).2.symm
  | panic reason => cases h
  | perform o' next ih =>
    obtain ⟨r, w₁, -, h⟩ := Act.bind_eq_ok.1 h
    exact ih r (hp.2 r) h
  | _ => exact hp.elim

end Program.Flat

/-- The operation is a call. -/
def Op.Calls : Op κ → Prop
  | .call .. => True
  | _ => False

/-- The operation neither calls nor writes to reports. -/
def Op.Plain : Op κ → Prop
  | .call .. | .report .. | .takeReported .. => False
  | _ => True

/-- **The program only performs such operations.** -/
abbrev Program.Plain (p : Program κ α) : Prop := p.Flat Op.Plain

variable {m : Machine κ} {p : Program κ α} {e : EngineId} {owned : List Local} {w w' : World κ}

/-- Where nothing is called, nothing is thrown. -/
theorem Program.Flat.not_throws (hp : p.Flat fun o => ¬ o.Calls) {thrown : Value} :
    ¬ m.Throws e p owned w thrown w' :=
  fun ⟨_, _, _, _, h, _⟩ => hp.of_performs h trivial

namespace Program.Plain

theorem not_throws (hp : p.Plain) {thrown : Value} : ¬ m.Throws e p owned w thrown w' :=
  fun ⟨_, _, _, _, h, _⟩ => hp.of_performs h

/-- It reports nothing. -/
theorem not_reports (hp : p.Plain) (o : Op κ) (w' : World κ) (h : m.Performs o w' p owned w) :
    ¬ o.Reports e := by
  have ho := hp.of_performs h
  cases o <;> first | exact ho.elim | exact id

end Program.Plain

end EmbeddedScript
