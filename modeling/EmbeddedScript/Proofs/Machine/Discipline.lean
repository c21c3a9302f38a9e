import EmbeddedScript.Proofs.Machine.Running

/-!
# The discipline of the lock

Every engine operation gives back each level of a lock that it takes. What natives do to
a lock is up to them, so an operation **leaves the lock as it found it** if the natives
that it runs drop their guards, innermost first (`Program.Orderly`).

That is not asked of natives that run while the lock is released: dropping the release
restores a depth that was remembered, whatever became of the lock meanwhile. What they
do is therefore taken from another embedder's natives, which may do anything
(`Behaviour.diverted`).

An adapter makes its windowed requests with the lock released. Natives may answer them in
any way at other depths than zero, and leave any lock behind, and no program that makes
them only there comes out differently (`Machine.AgreesReleased`).
-/

namespace EmbeddedScript

open Act
open World (Excursion)

variable {κ α β : Type} {e : EngineId}

/-! ## Guards in a frame -/

/-- It is a guard of the engine's lock. -/
def Local.Guards (e : EngineId) : Local → Prop
  | guard e' _ => e' = e
  | _ => False

/-- The lock of an engine after something was dropped. -/
def Lock.dropping (e : EngineId) (lock : Lock) : Local → Lock
  | .guard e' g => if e' = e then lock.undo g else lock
  | _ => lock

/-- **The lock of an engine after a frame was unwound.** -/
def Lock.unwound (e : EngineId) (lock : Lock) (owned : List Local) : Lock :=
  owned.foldl (Lock.dropping e) lock

@[simp] theorem Lock.dropping_guard (e : EngineId) (lock : Lock) (g : Guard) :
    lock.dropping e (.guard e g) = lock.undo g :=
  if_pos rfl

theorem Lock.dropping_of_not_guards {l : Local} (hl : ¬ l.Guards e) (lock : Lock) :
    lock.dropping e l = lock := by
  cases l with
  | guard e' g => exact if_neg hl
  | _ => rfl

@[simp] theorem Lock.unwound_cons (e : EngineId) (lock : Lock) (l : Local)
    (owned : List Local) : lock.unwound e (l :: owned) = (lock.dropping e l).unwound e owned :=
  rfl

/-- A release restores what it remembers, whatever became of the lock. -/
theorem Lock.unwound_release (e : EngineId) (lock lock' : Lock) (saved : Nat)
    (owned : List Local) :
    lock'.unwound e (.guard e (.release saved) :: owned)
      = lock.unwound e (.guard e (.release saved) :: owned) := by
  rw [unwound_cons, unwound_cons, dropping_guard, dropping_guard]
  rfl

theorem Lock.unwound_take (e : EngineId) (lock : Lock) (owned : List Local) :
    lock.take.unwound e (.guard e .level :: owned) = lock.unwound e owned := by
  rw [unwound_cons, dropping_guard, undo_level_take]

theorem Lock.unwound_dropAll (e : EngineId) (lock : Lock) (owned : List Local) :
    lock.dropAll.unwound e (.guard e (.release lock.depth) :: owned) = lock.unwound e owned := by
  rw [unwound_cons, dropping_guard, undo_release_dropAll]

/-! ## Orderly programs -/

/-- The operation is no change of an engine's lock, and no windowed request unless those
may be made **bare**, at any depth. -/
def Op.Keeps (e : EngineId) (bare : Prop) : Op κ → Prop
  | .lock e' | .releaseLock e' => e' ≠ e
  | .ask _ r => r.IsWindowed → bare
  | _ => True

theorem Op.keeps_of_ne {o : Op κ} (hl : o ≠ .lock e) (hr : o ≠ .releaseLock e) :
    o.Keeps e True := by
  cases o with
  | lock e' => exact fun h => hl (h ▸ rfl)
  | releaseLock e' => exact fun h => hr (h ▸ rfl)
  | ask id r => exact fun _ => trivial
  | _ => trivial

/-- **The program drops the guards of an engine's lock that it takes**, innermost first,
in a frame that owns some things already. It may release the lock for a request. -/
inductive Program.Orderly (e : EngineId) (bare : Prop) : List Local → Program κ α → Prop
  /-- It returns, and what it owns is dropped. -/
  | done {owned : List Local} (a : α) : Orderly e bare owned (.done a)
  /-- It panics, and what it owns is dropped. -/
  | panic {owned : List Local} (p : Panic) : Orderly e bare owned (.panic p)
  /-- It performs an operation. -/
  | perform {owned : List Local} {o : Op κ} {next : o.Reply → Program κ α} (ho : o.Keeps e bare)
      (hn : ∀ r, Orderly e bare owned (next r)) : Orderly e bare owned (.perform o next)
  /-- It takes a level of the lock. -/
  | lock {owned : List Local} {next : Unit → Program κ α}
      (hn : Orderly e bare (.guard e .level :: owned) (next ())) :
      Orderly e bare owned (.perform (.lock e) fun u => .hold (.guard e .level) (next u))
  /-- It releases the lock. -/
  | release {owned : List Local} {next : Nat → Program κ α}
      (hn : ∀ saved, Orderly e bare (.guard e (.release saved) :: owned) (next saved)) :
      Orderly e bare owned
        (.perform (.releaseLock e) fun saved => .hold (.guard e (.release saved)) (next saved))
  /-- It makes a request with the lock released. -/
  | window {owned : List Local} {id : NativeId} {r : Request} {next : r.Reply → Program κ α}
      (hn : ∀ x, Orderly e bare owned (next x)) :
      Orderly e bare owned ((unlocked e (op (.ask id r))).bind next)
  /-- It owns something else. -/
  | hold {owned : List Local} {l : Local} {next : Program κ α} (hl : ¬ l.Guards e)
      (hn : Orderly e bare (l :: owned) next) : Orderly e bare owned (.hold l next)
  /-- It drops what it owned last. -/
  | drop {owned : List Local} {l : Local} {next : Program κ α}
      (hn : Orderly e bare owned next) : Orderly e bare (l :: owned) (.drop next)
  /-- It owns nothing that it could drop. -/
  | dropNone {next : Program κ α} (hn : Orderly e bare [] next) : Orderly e bare [] (.drop next)
  /-- It forgets what it owned last, which is no guard. -/
  | forget {owned : List Local} {l : Local} {next : Program κ α} (hl : ¬ l.Guards e)
      (hn : Orderly e bare owned next) : Orderly e bare (l :: owned) (.forget next)
  /-- It owns nothing that it could forget. -/
  | forgetNone {next : Program κ α} (hn : Orderly e bare [] next) :
      Orderly e bare [] (.forget next)

namespace Terrain

/-- All sound worlds, with one engine's lock watched. -/
def watching (e : EngineId) : Terrain κ := { everywhere κ with Watched := (· = e) }

/-- All sound worlds, but natives are not followed at windowed requests. -/
def windowless : Terrain κ := { everywhere κ with Windows := False }

theorem allows_watching {o : Op κ} {bare : Prop} (ho : o.Keeps e bare) :
    (watching e).Allows o := by
  cases o with
  | collect e' => exact trivial
  | safepoint e' => exact trivial
  | lock e' => exact ho
  | releaseLock e' => exact ho
  | ask id r => exact fun _ => trivial
  | _ => trivial

theorem allows_windowless {o : Op κ} (ho : o.Keeps e False) : windowless.Allows o := by
  cases o with
  | collect e' => exact trivial
  | safepoint e' => exact trivial
  | lock e' => exact id
  | releaseLock e' => exact id
  | ask id r => exact ho
  | _ => trivial

end Terrain

/-! ## Windows -/

/-- **Run an action with the lock released**, and restore it exactly. -/
def Act.unlocked (e : EngineId) (a : Act κ α) : Act κ α := fun w =>
  Act.within (·.relock e Lock.dropAll) (·.relock e fun _ => (w.engine e).lock) a w

namespace Machine

/-- Unwinding a frame that has released the lock restores the lock before all else. -/
theorem unwind_release (m : Machine κ) (saved : Nat) (owned : List Local) (w : World κ) :
    m.unwind (.guard e (.release saved) :: owned) w
      = m.unwind owned (w.relock e fun _ => ⟨saved⟩) := by
  show Act.ensuring (Act.update (·.relock e fun _ => ⟨saved⟩)) (m.unwind owned) w = _
  simp only [Act.ensuring, Act.update]
  cases m.unwind owned (w.relock e fun _ => ⟨saved⟩) <;> rfl

/-- **A request with the lock released** begins with no level taken, and the lock is
restored before anything else is done, whether the request was answered or cut short. -/
theorem runDiverted_unlocked (m inner : Machine κ) (id : NativeId) (r : Request)
    (next : r.Reply → Program κ α) (owned : List Local) :
    m.runDiverted inner e ((Program.unlocked e (Program.op (.ask id r))).bind next) owned
      = m.orUnwind owned (Act.unlocked e (inner.request id r))
          fun x => m.runDiverted inner e (next x) owned := by
  funext w
  -- the release cannot be cut short, and what follows it is diverted
  show m.orUnwind (.guard e (.release (w.engine e).lock.depth) :: owned)
      ((m.divert inner e (.guard e (.release (w.engine e).lock.depth) :: owned)).perform
        (.ask id r))
      (fun x => m.runDiverted inner e (.drop (next x))
        (.guard e (.release (w.engine e).lock.depth) :: owned)) (w.relock e Lock.dropAll) = _
  rw [divert_release]
  simp only [orUnwind, perform, Act.unlocked, Act.within, Act.ensuring, Act.update]
  cases inner.request id r (w.relock e Lock.dropAll) with
  | ok x w' => rfl
  | error x w' =>
    show Act.ensuring (throw x) (m.unwind (.guard e (.release _) :: owned)) w' =
      Act.ensuring (throw x) (m.unwind owned) (w'.relock e fun _ => (w.engine e).lock)
    simp only [Act.ensuring, unwind_release]
    rfl

end Machine

/-! ## What becomes of the lock -/

/-- **The action goes on an excursion, and leaves an engine's lock like this**, however it
ends. -/
def Act.Relocks (e : EngineId) (lock : Lock) (a : Act κ α) (w : World κ) : Prop :=
  w.Sound → Excursion True w (a.after w) ∧ ((a.after w).engine e).lock = lock

namespace Act.Relocks

variable {m : Machine κ} {w : World κ} {lock lock' : Lock}

/-- An action that leaves the lock as it was. -/
theorem of_tracks {a : Act κ α} (ha : Act.Tracks (.watching e) a a w) :
    Relocks e (w.engine e).lock a w := fun hw =>
  have hx := (ha hw).2
  ⟨hx.1, hx.2 e rfl⟩

theorem tracks {a : Act κ α} (ha : Relocks e (w.engine e).lock a w) :
    Act.Tracks (.watching e) a a w := by
  refine .of_rel fun hw => ?_
  obtain ⟨hx, hl⟩ := ha hw
  refine ⟨hx, ?_⟩
  rintro e' rfl
  exact hl

/-- A change of the world, which may happen. -/
theorem of_after {a : Act κ α} {w' : World κ} (ha : a.after w = w')
    (hx : Excursion True w w') (hl : (w'.engine e).lock = lock) : Relocks e lock a w :=
  fun _ => ha ▸ ⟨hx, hl⟩

/-- What is done after an action, whether that finished or was cut short. -/
theorem ensuring {a : Act κ α} {exit : Act κ Unit} (ha : Relocks e lock a w)
    (hx : ∀ w', (w'.engine e).lock = lock → Relocks e lock' exit w') :
    Relocks e lock' (Act.ensuring a exit) w := by
  intro hw
  obtain ⟨hxa, hl⟩ := ha hw
  obtain ⟨hxe, hl'⟩ := hx _ hl ((Terrain.everywhere κ).after hw hxa)
  rw [after_ensuring]
  exact ⟨hxa.trans hxe, hl'⟩

/-- **With the lock released**, whatever is done to it meanwhile. -/
theorem unlocked {a : Act κ α} (ha : ∀ w, w.Sound → Excursion True w (a.after w)) :
    Relocks e (w.engine e).lock (Act.unlocked e a) w := by
  intro hw
  have hin : Excursion True w (w.relock e Lock.dropAll) := .move (.relocked True w e _)
  have hbody := ha _ ((Terrain.everywhere κ).after hw hin)
  have hafter : (Act.unlocked e a).after w
      = (a.after (w.relock e Lock.dropAll)).relock e fun _ => (w.engine e).lock :=
    after_within _ _ a w
  rw [hafter, World.lock_relock_self]
  exact ⟨(hin.trans hbody).trans (.move (.relocked True _ e _)), rfl⟩

/-- **Dropping what a frame owned**: only a guard changes the lock. -/
theorem dropLocal (hm : Machine.Tracks (.watching e) m m) (hl : (w.engine e).lock = lock)
    (l : Local) : Relocks e (lock.dropping e l) (m.dropLocal l) w := by
  subst hl
  cases l with
  | guard e' g =>
    refine .of_after rfl (.move (.relocked True w e' (Lock.undo · g))) ?_
    exact World.lock_relock w e' e (Lock.undo · g)
  | root r => exact .of_after rfl (.move (.unrooted r)) (World.lock_dropRoot w r e)
  | native id => exact of_tracks hm.release

/-- **Unwinding a frame**, also when dropping something was cut short. -/
theorem unwind (hm : Machine.Tracks (.watching e) m m) (hl : (w.engine e).lock = lock)
    (owned : List Local) : Relocks e (lock.unwound e owned) (m.unwind owned) w := by
  induction owned generalizing w lock with
  | nil => exact .of_after rfl (.refl w) hl
  | cons l rest ih => exact (dropLocal hm hl l).ensuring fun w' hw' => ih hw'

/-- Returning or panicking, after the frame was unwound. -/
theorem unwinding {a : Act κ α} (hm : Machine.Tracks (.watching e) m m)
    (hl : (w.engine e).lock = lock) (owned : List Local) (ha : ∀ w', a.after w' = w') :
    Relocks e (lock.unwound e owned) (m.unwind owned >>= fun _ => a) w := by
  have hafter : (m.unwind owned >>= fun _ => a).after w = (m.unwind owned).after w := by
    show after (EStateM.bind (m.unwind owned) fun _ => a) w = _
    simp only [after, EStateM.bind]
    cases m.unwind owned w with
    | ok x w' => exact ha w'
    | error x w' => rfl
  unfold Relocks
  rw [hafter]
  exact unwind hm hl owned

/-- An action in a frame that cannot be cut short. -/
theorem orUnwind_of_ok {owned : List Local} {a : Act κ β} {f : β → Act κ α} {x : β}
    {w' : World κ} (ha : a w = .ok x w') (hx : Excursion True w w')
    (hf : Relocks e lock (f x) w') : Relocks e lock (m.orUnwind owned a f) w := by
  intro hw
  obtain ⟨hxf, hl⟩ := hf ((Terrain.everywhere κ).after hw hx)
  have hafter : (m.orUnwind owned a f).after w = (f x).after w' := by
    simp only [after, Machine.orUnwind, ha]
  rw [hafter]
  exact ⟨hx.trans hxf, hl⟩

/-- **An action in a frame**, which is unwound when the action is cut short. -/
theorem orUnwind (hm : Machine.Tracks (.watching e) m m) {owned : List Local}
    {a : Act κ β} {f : β → Act κ α} (ha : Relocks e lock a w)
    (hf : ∀ x w', a w = .ok x w' → (w'.engine e).lock = lock →
      Relocks e (lock.unwound e owned) (f x) w') :
    Relocks e (lock.unwound e owned) (m.orUnwind owned a f) w := by
  intro hw
  obtain ⟨hxa, hl⟩ := ha hw
  have hw' := (Terrain.everywhere κ).after hw hxa
  cases hr : a w with
  | ok x w' =>
    rw [after_of_ok hr] at hxa hl hw'
    exact orUnwind_of_ok hr hxa (hf x w' hr hl) hw
  | error x w' =>
    rw [after_of_error hr] at hxa hl hw'
    obtain ⟨hxu, hl'⟩ := unwind hm hl owned hw'
    have hafter : (m.orUnwind owned a f).after w = (m.unwind owned).after w' := by
      have hexit := after_ensuring (throw x : Act κ α) (m.unwind owned) w'
      simp only [after, Machine.orUnwind, hr] at hexit ⊢
      exact hexit
    rw [hafter]
    exact ⟨hxa.trans hxu, hl'⟩

end Act.Relocks

namespace Machine

variable {m inner : Machine κ} {w : World κ} {lock : Lock} {bare : Prop} {owned : List Local}

/-- **An operation that a frame performs** leaves a lock of which unwinding the frame makes
what it would have made of it before: outside windows the lock is as it was, and in a
window it is restored. -/
theorem exists_relocks_divert (hm : Machine.Tracks (.watching e) m m) (hi : inner.Roams)
    {o : Op κ} (ho : o.Keeps e bare) (owned : List Local) (hl : (w.engine e).lock = lock) :
    ∃ lock', lock'.unwound e owned = lock.unwound e owned
      ∧ ((m.divert inner e owned).perform o).Relocks e lock' w := by
  subst hl
  have houtside := Act.Relocks.of_tracks (hm.perform (w := w) o (Terrain.allows_watching ho))
  unfold divert
  split
  · split
    case isTrue saved rest he =>
      subst he
      exact ⟨_, Lock.unwound_release _ _ _ _ _, fun hw => ⟨hi.perform o hw, rfl⟩⟩
    case isFalse => exact ⟨_, rfl, houtside⟩
  · exact ⟨_, rfl, houtside⟩

/-- **An orderly program leaves the lock as unwinding its frame does**, however it ends and
whatever is done in its windows. -/
theorem relocks_runDiverted (hm : Machine.Tracks (.watching e) m m) (hi : inner.Roams)
    {p : Program κ α} (hp : p.Orderly e bare owned) (hl : (w.engine e).lock = lock) :
    (m.runDiverted inner e p owned).Relocks e (lock.unwound e owned) w := by
  induction hp generalizing w lock with
  | done a => exact .unwinding hm hl _ fun _ => rfl
  | panic p => exact .unwinding hm hl _ fun _ => rfl
  | @perform owned o next ho hn ih =>
    obtain ⟨lock', hu, hrelocks⟩ := exists_relocks_divert hm hi ho owned hl
    rw [← hu]
    exact hrelocks.orUnwind hm fun r w' _ hl' => ih r hl'
  | lock hn ih =>
    subst hl
    have hbody := ih (World.lock_relock_self w e Lock.take)
    rw [Lock.unwound_take] at hbody
    exact .orUnwind_of_ok rfl (.move (.relocked True w e Lock.take)) hbody
  | release hn ih =>
    subst hl
    have hbody := ih (w.engine e).lock.depth (World.lock_relock_self w e Lock.dropAll)
    rw [Lock.unwound_dropAll] at hbody
    exact .orUnwind_of_ok rfl (.move (.relocked True w e Lock.dropAll)) hbody
  | @window owned id r next hn ih =>
    rw [runDiverted_unlocked]
    subst hl
    exact (Act.Relocks.unlocked fun _ => hi.request id r).orUnwind hm fun x w' _ hl' => ih x hl'
  | hold hl' hn ih =>
    have hrest := ih hl
    rwa [Lock.unwound_cons, Lock.dropping_of_not_guards hl'] at hrest
  | drop hn ih =>
    exact (Act.Relocks.dropLocal hm hl _).orUnwind hm fun _ w' _ hl' => ih hl'
  | dropNone hn ih => exact ih hl
  | forget hl' hn ih =>
    rw [Lock.unwound_cons, Lock.dropping_of_not_guards hl']
    exact ih hl
  | forgetNone hn ih => exact ih hl

/-! ## Requests with the lock released -/

/-- **The machines do the same, but for windowed requests.** While the lock is held they may
answer these in any way, and where it is released they may leave another lock behind. So
what comes out the same on all such machines makes them with the lock released, and does
not depend on what becomes of it. -/
structure AgreesReleased (e : EngineId) (m m' : Machine κ) : Prop where
  /-- When a native is asked something else. -/
  ask : ∀ id r w, ¬ r.IsWindowed → m'.ask id r w = m.ask id r w
  /-- When it is asked with the lock released. -/
  window : ∀ id r w, r.IsWindowed → (w.engine e).lock.depth = 0 → ∀ lock,
    Act.ensuring (m'.ask id r) (Act.update (·.relock e fun _ => lock)) w
      = Act.ensuring (m.ask id r) (Act.update (·.relock e fun _ => lock)) w
  /-- When a native is finalised. -/
  finalise : ∀ n w, m'.finalise n w = m.finalise n w

namespace AgreesReleased

variable {m' inner' : Machine κ}

/-- They track each other where natives are not followed at windowed requests. -/
theorem tracks (ha : m.AgreesReleased e m') (hm : m.Roams) :
    Machine.Tracks .windowless m m' :=
  ⟨fun id r w hr hw => ⟨ha.ask id r w hr, hm.ask id r w hw, nofun⟩,
    fun n w hw => ⟨ha.finalise n w, hm.finalise n w hw, nofun⟩⟩

/-- **With the lock released** any request is followed, since the lock is restored. -/
theorem unlocked (ha : m.AgreesReleased e m') (hm : m.Roams) (id : NativeId) (r : Request) :
    Act.Tracks .windowless (Act.unlocked e (m.request id r)) (Act.unlocked e (m'.request id r))
      w := by
  intro hw
  refine ⟨?_, (Act.Relocks.unlocked (fun _ => hm.request id r) hw).1, nofun⟩
  by_cases hr : r.IsWindowed
  · have hz : ((w.relock e Lock.dropAll).engine e).lock.depth = 0 := by
      rw [World.lock_relock_self]
      rfl
    exact ha.window id r ((w.relock e Lock.dropAll).record
      (.asked id r (w.relock e Lock.dropAll).postures)) hr hz (w.engine e).lock
  · have heq : m'.ask id r = m.ask id r := funext fun w => ha.ask id r w hr
    simp only [Act.unlocked, Machine.request, heq]

/-- **An orderly program does the same on both**, if it makes no windowed request but with
the lock released. -/
theorem runDiverted (ha : m.AgreesReleased e m') (hm : m.Roams)
    (hi : inner.AgreesReleased e inner') (hin : inner.Roams) {p : Program κ α}
    (hp : p.Orderly e False owned) :
    Act.Tracks .windowless (m.runDiverted inner e p owned) (m'.runDiverted inner' e p owned) w := by
  have ht := ha.tracks hm
  have hd := ht.divert (e := e) (hi.tracks hin)
  have hu : ∀ e', ¬ (Terrain.windowless (κ := κ)).Watched e' := fun _ => id
  induction hp generalizing w with
  | done a => exact (ht.unwind hu _).bind fun _ _ _ _ _ => .pure a
  | panic p => exact (ht.unwind hu _).bind fun _ _ _ _ _ => .panic p
  | perform ho hn ih =>
    exact ht.orUnwind hu _ ((hd _).perform _ (Terrain.allows_windowless ho)) fun r _ _ => ih r
  | lock hn ih => exact ht.orUnwind hu _ ((hd _).perform (.lock e) id) fun _ _ _ => ih
  | release hn ih =>
    exact ht.orUnwind hu _ ((hd _).perform (.releaseLock e) id) fun saved _ _ => ih saved
  | @window owned id r next hn ih =>
    rw [runDiverted_unlocked, runDiverted_unlocked]
    exact ht.orUnwind hu _ (hi.unlocked hin id r) fun x _ _ => ih x
  | hold hl hn ih => exact ih
  | drop hn ih => exact ht.orUnwind hu _ (ht.dropLocal hu _) fun _ _ _ => ih
  | dropNone hn ih => exact ih
  | forget hl hn ih => exact ih
  | forgetNone hn ih => exact ih

end AgreesReleased

end Machine

/-! ## Natives -/

namespace Behaviour

/-- **The natives outside and inside the windows**: outside, natives do what one embedder's
natives do, and while a program has the engine's lock released, what another's do. -/
def diverted (b c : Behaviour κ) (e : EngineId) : Nat → Machine κ
  | 0 => b.machine 0
  | depth + 1 =>
    { ask := fun id r => do
        match ← Act.view (·.native? id) with
        | some n => (b.diverted c e depth).runDiverted (c.machine depth) e (b.program id n r) []
        | none => Act.panic .noAnswer
      finalise := fun n =>
        (b.diverted c e depth).runDiverted (c.machine depth) e (b.finalProgram n) [] }

/-- When the natives are the same, that is the machine of their nesting. -/
theorem diverted_self (b : Behaviour κ) (e : EngineId) (depth : Nat) :
    b.diverted b e depth = b.machine depth := by
  induction depth with
  | zero => rfl
  | succ depth ih =>
    have hrun : ∀ {α : Type} (p : Program κ α),
        (b.diverted b e depth).runDiverted (b.machine depth) e p [] = (b.machine depth).run p [] :=
      fun p => by rw [ih, Machine.runDiverted_self]
    refine congrArg₂ Machine.mk (funext fun id => funext fun r => ?_) (funext fun n => hrun _)
    refine congrArg (Act.view (·.native? id) >>= ·) (funext fun n => ?_)
    cases n with
    | some n => exact hrun _
    | none => rfl

/-- **An embedder's natives are orderly**: whatever they are asked, they drop the guards of
the engine's lock that they take, innermost first. -/
structure Orderly (b : Behaviour κ) (e : EngineId) : Prop where
  /-- When they are asked. -/
  answer : ∀ id state r, (b.answer id state r).Orderly e True []
  /-- When they are finalised. -/
  finaliser : ∀ state, (b.finaliser state).Orderly e True []

end Behaviour

end EmbeddedScript
