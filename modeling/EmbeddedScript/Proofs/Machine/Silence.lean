import EmbeddedScript.Proofs.Machine.Running

/-!
# Programs that ask nobody

A program whose operations are all the engine's own, and none of them one in which a native
may be asked, comes out the same **however natives answer** (`Machine.run_of_asksNobody`).
It may still let go of natives, or collect, and so run what they do at their end: that is
the other half of a machine.
-/

namespace EmbeddedScript

variable {κ α β : Type} {m m' : Machine κ}

/-- **The operation asks no native.** It may drop some, though. -/
def Op.AsksNobody : Op κ → Prop
  | .get .. | .set .. | .names .. | .call .. | .toPrimitive .. | .display .. | .kind ..
  | .describe .. | .report .. | .ask .. => False
  | _ => True

/-- **The program asks no native.** -/
def Program.AsksNobody : Program κ α → Prop
  | .done _ | .panic _ => True
  | .perform o next => o.AsksNobody ∧ ∀ r, (next r).AsksNobody
  | .hold _ next | .drop next | .forget next => next.AsksNobody

namespace Machine

theorem release_of_finalise (hf : m'.finalise = m.finalise) : m'.release = m.release := by
  unfold release
  rw [hf]

theorem releaseAll_of_finalise (hf : m'.finalise = m.finalise) :
    m'.releaseAll = m.releaseAll := by
  funext freed
  induction freed with
  | nil => rfl
  | cons o rest ih => rw [releaseAll, releaseAll, release_of_finalise hf, ih]

theorem taken_of_finalise (hf : m'.finalise = m.finalise) : m'.taken = m.taken := by
  funext e o outcome
  cases outcome with
  | ok h => rfl
  | error err => rw [taken, taken, releaseAll_of_finalise hf]

/-- **How natives answer makes no difference to such an operation**: it runs natives only
where it drops some. -/
theorem perform_of_asksNobody (hf : m'.finalise = m.finalise) {o : Op κ} (ho : o.AsksNobody) :
    m'.perform o = m.perform o := by
  have htaken := taken_of_finalise hf
  have hreleaseAll := releaseAll_of_finalise hf
  cases o with
  | get | set | names | call | toPrimitive | display | kind | describe | report | ask =>
    exact False.elim ho
  | createObject e => simp only [perform, createObject, allocate, htaken]
  | createArray e length => simp only [perform, createArray, allocate, htaken]
  | createArrayOf e items => simp only [perform, createArrayOf, htaken]
  | createFunction e name body => simp only [perform, createFunction, allocate, htaken]
  | createHost e host => simp only [perform, createHost, allocate, htaken]
  | raise e cls message => simp only [perform, raise, allocate, htaken]
  | collect e => simp only [perform, collect, hreleaseAll]
  | safepoint e => simp only [perform, safepoint, collect, hreleaseAll]
  | release id => exact congrFun (release_of_finalise hf) id
  | _ => rfl

/-- It makes none to what a frame owns. -/
theorem dropLocal_of_finalise (hf : m'.finalise = m.finalise) (l : Local) :
    m'.dropLocal l = m.dropLocal l := by
  cases l with
  | native id => exact congrFun (release_of_finalise hf) id
  | _ => rfl

theorem unwind_of_finalise (hf : m'.finalise = m.finalise) (owned : List Local) :
    m'.unwind owned = m.unwind owned := by
  induction owned with
  | nil => rfl
  | cons l rest ih => rw [unwind, unwind, dropLocal_of_finalise hf, ih]

theorem orUnwind_of_finalise (hf : m'.finalise = m.finalise) (owned : List Local)
    (x : Act κ β) (f : β → Act κ α) : m'.orUnwind owned x f = m.orUnwind owned x f := by
  unfold orUnwind
  rw [unwind_of_finalise hf]

/-- **It makes none to a program that asks nobody.** -/
theorem run_of_asksNobody (hf : m'.finalise = m.finalise) {p : Program κ α}
    (hp : p.AsksNobody) (owned : List Local) : m'.run p owned = m.run p owned := by
  induction p generalizing owned with
  | done x =>
    show (m'.unwind owned >>= fun _ => pure x) = m.unwind owned >>= fun _ => pure x
    rw [unwind_of_finalise hf]
  | panic reason =>
    show (m'.unwind owned >>= fun _ => Act.panic reason)
      = m.unwind owned >>= fun _ => Act.panic reason
    rw [unwind_of_finalise hf]
  | perform o next ih =>
    rw [run_perform, run_perform, orUnwind_of_finalise hf, perform_of_asksNobody hf hp.1]
    exact congrArg _ (funext fun r => ih r (hp.2 r) owned)
  | hold l next ih => exact ih hp (l :: owned)
  | drop next ih =>
    cases owned with
    | nil => exact ih hp []
    | cons l owned =>
      rw [run_drop, run_drop, orUnwind_of_finalise hf, dropLocal_of_finalise hf]
      exact congrArg _ (funext fun _ => ih hp owned)
  | forget next ih => exact ih hp owned.tail

end Machine

namespace Program.AsksNobody

variable {p : Program κ α} {f : α → Program κ β}

/-- One piece after another. -/
theorem bind (hp : p.AsksNobody) (hf : ∀ x, (f x).AsksNobody) : (p >>= f).AsksNobody := by
  show (p.bind f).AsksNobody
  induction p with
  | done x => exact hf x
  | panic reason => exact trivial
  | perform o next ih => exact ⟨hp.1, fun r => ih r (hp.2 r)⟩
  | hold l next ih => exact ih hp
  | drop next ih => exact ih hp
  | forget next ih => exact ih hp

theorem map {g : α → β} (hp : p.AsksNobody) : (g <$> p).AsksNobody := hp.bind fun _ => trivial

/-- A single operation. -/
theorem op {o : Op κ} (ho : o.AsksNobody) : (Program.op o).AsksNobody := ⟨ho, fun _ => trivial⟩

theorem owning (l : Local) (hp : p.AsksNobody) : (Program.owning l p).AsksNobody :=
  hp.bind fun _ => trivial

theorem dropping (x : α) (n : Nat) : (Program.dropping x n : Program κ α).AsksNobody := by
  induction n with
  | zero => exact trivial
  | succ n ih => exact ih

theorem owningValue (v : NativeValue) (hp : p.AsksNobody) :
    (Program.owningValue v p).AsksNobody := by
  unfold Program.owningValue
  split
  · exact hp.owning _
  · exact hp

/-- A bound object into script. -/
theorem expose (e : EngineId) (registry : RegistryId) (bound : NativeId) :
    (Program.expose e registry bound : Program κ _).AsksNobody := by
  refine (op (o := .look bound) trivial).bind fun n => ?_
  split
  · exact trivial
  · refine (op (o := .retain bound) trivial).bind fun _ => ?_
    refine (op (o := .spawn (.adapter ⟨bound, registry, none⟩)) trivial).bind fun adapter => ?_
    exact op (o := .createHost e adapter) trivial

theorem toScriptValue (e : EngineId) (registry : RegistryId) (v : NativeValue) :
    (Program.toScriptValue e registry v : Program κ _).AsksNobody := by
  have hscript : (Program.toScript e registry v : Program κ _).AsksNobody := by
    cases v with
    | object bound => exact expose e registry bound
    | _ => exact trivial
  refine hscript.bind fun r => ?_
  cases r with
  | ok v =>
    have hadopt : (ScriptValue.adopt e v : Program κ _).AsksNobody :=
      (op (o := .root e v) trivial).bind fun _ => trivial
    exact hadopt.map
  | error err => exact trivial

end Program.AsksNobody

end EmbeddedScript
