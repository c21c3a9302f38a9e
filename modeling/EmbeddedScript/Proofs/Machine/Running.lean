import EmbeddedScript.Run
import EmbeddedScript.Proofs.Machine.Operations

/-!
# Programs go on excursions

A program performs operations one after another and drops what it owns on the way
out, so **running one is an excursion** (`Machine.Tracks.run`), however it ends. Since
natives are programs that run natives, the same holds of every machine that an
embedder's natives make (`Behaviour.roams`), by induction on how deeply they are
nested.

It makes no difference which natives those are, and not even that they are the same all
along: what a program does while it has a lock released may be diverted to another machine
(`Machine.runDiverted`).
-/

namespace EmbeddedScript

open World (Move Step Excursion)

variable {κ α : Type}

/-- **The operation is a collection**, or one when enough was allocated. -/
def Op.Collects : Op κ → Prop
  | collect _ | safepoint _ => True
  | _ => False

/-- **The operation is allowed**: it collects only where that may happen, changes no lock
that is watched, and asks natives nothing but what they are followed at. -/
def Terrain.Allows (T : Terrain κ) : Op κ → Prop
  | .collect _ | .safepoint _ => T.Collects
  | .lock e | .releaseLock e => ¬ T.Watched e
  | .ask _ r => r.IsWindowed → T.Windows
  | _ => True

/-- Where anything is allowed, every operation is. -/
theorem Terrain.Free.allows {T : Terrain κ} (hT : T.Free) (o : Op κ) : T.Allows o := by
  cases o with
  | collect e => exact hT.collects
  | safepoint e => exact hT.collects
  | lock e => exact hT.unwatched e
  | releaseLock e => exact hT.unwatched e
  | ask id r => exact fun _ => hT.windows
  | _ => trivial

/-- Where nothing is collected, everything else is. -/
theorem Terrain.allows_quiet {o : Op κ} (ho : ¬ o.Collects) : (quiet κ).Allows o := by
  cases o with
  | collect e => exact absurd trivial ho
  | safepoint e => exact absurd trivial ho
  | lock e => exact id
  | releaseLock e => exact id
  | ask id r => exact fun _ => trivial
  | _ => trivial

namespace Machine

open Act

variable {T : Terrain κ} {m m' inner inner' : Machine κ} {w : World κ} {e : EngineId}

/-! ## Operations -/

/-- A native's new state lies beside the engines. -/
theorem aside_become (w : World κ) (id : NativeId) (state : κ) :
    World.Aside w (w.become id state) := by
  unfold World.become
  split
  case h_1 s hs =>
    exact ⟨rfl, rfl, rfl, rfl, World.retains_setNative hs (.custom s state), .of_classes rfl,
      World.adheres_setNative_custom hs _⟩
  case h_2 => exact .refl w

/-- Looking up a class changes nothing but registries and classes. -/
theorem aside_classFor (w : World κ) (r : RegistryId) (bound : NativeId) :
    World.Aside w (w.classFor r bound).2 := by
  have hadheres := World.adheres_classFor w r bound
  unfold World.classFor at hadheres ⊢
  split at hadheres
  · exact .refl w
  · exact ⟨rfl, rfl, rfl, rfl, .of_natives rfl, (World.learns_addClass w).congr rfl, hadheres⟩

/-- Looking up the class of an adapter moreover writes it into the adapter. -/
theorem aside_adapterClass {w : World κ} {id : NativeId} {a : Adapter}
    (hn : w.native? id = some (.adapter a)) : World.Aside w (w.adapterClass id a).2 := by
  have h := aside_classFor w a.registry a.bound
  have hadheres := World.adheres_adapterClass hn
  unfold World.adapterClass at hadheres ⊢
  split at hadheres
  · exact .refl w
  · refine ⟨h.engines, h.roots, h.rootsMade, h.journal, h.natives.trans ?_, h.classes.congr rfl,
      hadheres⟩
    obtain ⟨cls, hn'⟩ := h.natives.adapter hn
    exact World.retains_setNative hn' (.adapter _ _)

/-- **Performing an operation.** -/
theorem Tracks.perform (hm : Machine.Tracks T m m') (o : Op κ) (ho : T.Allows o) :
    Act.Tracks T (m.perform o) (m'.perform o) w := by
  cases o with
  | newEngine options =>
    simp only [Machine.perform]
    exact .extract (Terrain.Leads.move (.opened options) (World.lock_addEngine w options))
  | createObject e => exact hm.createObject
  | createArray e length => exact hm.createArray length
  | createArrayOf e items => exact hm.createArrayOf items
  | createFunction e name body => exact hm.createFunction name body
  | createHost e host => exact hm.createHost host
  | get e target name => exact Tracks.get (fun _ _ => hm.release) (hm.pinned w e _) name
  | set e target name value =>
    exact Tracks.set (fun _ _ => hm.release) (hm.pinned w e _) name
  | names e target => exact Tracks.names (fun _ _ => hm.release) (hm.pinned w e _)
  | arrayLength e v => exact Tracks.withArray v (draws_read Array.size)
  | arrayGet e v i => exact Tracks.withArray v (draws_read (Elements.read · i))
  | arraySet e v i value => exact Tracks.storeElement v value (draws_store i value)
  | arrayPush e v value => exact Tracks.storeElement v value (draws_push value)
  | arrayPop e v => exact Tracks.withArray v draws_pop
  | call e callee this args => exact Tracks.call (hm.pinned w e _)
  | toPrimitive e v hint =>
    exact Tracks.toPrimitive (fun _ _ => hm.release) (hm.pinned w e _) (fun _ _ => hm.display v)
      hint
  | display e v => exact hm.display v
  | kind e v => exact hm.kind v
  | hostOf e v => exact abides_hostOf (Terrain.Leads.modifyOwners T) v
  | boundOf e v => exact abides_boundOf (Terrain.Leads.modifyOwners T) v
  | isLive e v => exact abides_isLive v
  | liveObjects e => exact .readHeap _
  | protect e v =>
    exact .update (Terrain.Leads.move (.pinned e v) fun e' => World.lock_modifyEngine rfl e')
  | unprotect e v =>
    exact .update (Terrain.Leads.move (.unpinned e v) fun e' => World.lock_modifyEngine rfl e')
  | root e v =>
    simp only [Machine.perform]
    exact .extract (Terrain.Leads.move (.rooted e v) (World.lock_addRoot w e · v))
  | unroot r => exact .update (Terrain.Leads.move (.unrooted r) (World.lock_dropRoot w r))
  | collect e => exact hm.collect ho
  | safepoint e => exact hm.safepoint ho
  | raise e cls message => exact hm.raise cls message
  | describe e err => exact hm.describe err
  | report e err => exact hm.report err
  | takeReported e => exact Tracks.takeReported
  | lock e => exact .update (Terrain.Leads.relocked ho)
  | releaseLock e =>
    simp only [Machine.perform]
    exact .extract (Terrain.Leads.relocked ho)
  | spawn n =>
    simp only [Machine.perform]
    exact .extract (Terrain.Leads.aside (.addNative w n))
  | retain id => exact .update (Terrain.Leads.modifyOwners T w id _)
  | release id => exact hm.release
  | ask id r => exact hm.request r ho
  | become id state => exact .update (Terrain.Leads.aside (aside_become w id state))
  | newRegistry room =>
    simp only [Machine.perform]
    exact .extract (Terrain.Leads.aside
      ⟨rfl, rfl, rfl, rfl, .of_natives rfl, .of_classes rfl, World.adheres_addRegistry w room⟩)
  | classFor r bound =>
    simp only [Machine.perform]
    exact .extract (Terrain.Leads.aside (aside_classFor w r bound))
  | finalizeRegistry r =>
    exact .update (Terrain.Leads.aside
      ⟨rfl, rfl, rfl, rfl, .of_natives rfl, .of_classes rfl, World.adheres_finalize w r⟩)
  | newClass =>
    simp only [Machine.perform]
    exact .extract (Terrain.Leads.aside
      ⟨rfl, rfl, rfl, rfl, .of_natives rfl, World.learns_addClass w, World.adheres_addClass w⟩)
  | adapterClass id =>
    refine (Act.Abides.view _).bind fun n w₁ hn _ _ => ?_
    obtain ⟨rfl, rfl⟩ : w.native? id = n ∧ w = w₁ := by simpa [Act.view] using hn
    cases hn' : w.native? id with
    | none => exact .panic _
    | some n =>
      cases n with
      | adapter a => exact .extract (Terrain.Leads.aside (aside_adapterClass hn'))
      | _ => exact .panic _
  | intern c kind name =>
    simp only [Machine.perform]
    exact .extract (Terrain.Leads.aside
      ⟨rfl, rfl, rfl, rfl, .of_natives rfl, .interned c kind name rfl,
        World.adheres_intern w c kind name⟩)
  | note n => exact .update (Terrain.Leads.aside (.of_tables rfl rfl rfl rfl rfl rfl rfl))
  | takeNotes =>
    simp only [Machine.perform]
    exact .extract (Terrain.Leads.aside (.of_tables rfl rfl rfl rfl rfl rfl rfl))
  | _ => exact .view _

/-! ## Programs -/

/-- Dropping what a frame owned. -/
theorem Tracks.dropLocal (hm : Machine.Tracks T m m') (hu : ∀ e, ¬ T.Watched e) (l : Local) :
    Act.Tracks T (m.dropLocal l) (m'.dropLocal l) w := by
  cases l with
  | guard e g =>
    exact .update (Terrain.Leads.relocked (f := fun l => l.undo g) (hu e))
  | root r => exact .update (Terrain.Leads.move (.unrooted r) (World.lock_dropRoot w r))
  | native id => exact hm.release

theorem abides_unwind {R : Regime κ}
    (hd : ∀ l w, Act.Abides R (m.dropLocal l) (m'.dropLocal l) w) (owned : List Local) :
    Act.Abides R (m.unwind owned) (m'.unwind owned) w := by
  induction owned generalizing w with
  | nil => exact .pure _
  | cons l rest ih => exact Act.Abides.ensuring (hd l w) fun _ _ _ => ih

theorem Tracks.unwind (hm : Machine.Tracks T m m') (hu : ∀ e, ¬ T.Watched e)
    (owned : List Local) :
    Act.Tracks T (m.unwind owned) (m'.unwind owned) w :=
  abides_unwind (fun l _ => hm.dropLocal hu l) owned

/-- **Go on with what an action came to**, or drop what the frame owns when the action
was cut short. -/
def orUnwind {β : Type} (m : Machine κ) (owned : List Local) (a : Act κ β)
    (f : β → Act κ α) : Act κ α := fun w =>
  match a w with
  | .ok x w => f x w
  | .error x w => Act.ensuring (throw x) (m.unwind owned) w

theorem run_perform (m : Machine κ) (op : Op κ) (next : op.Reply → Program κ α)
    (owned : List Local) :
    m.run (.perform op next) owned =
      m.orUnwind owned (m.perform op) fun r => m.run (next r) owned := by
  funext w
  simp only [Machine.run, orUnwind]
  cases m.perform op w <;> rfl

theorem run_drop (m : Machine κ) (next : Program κ α) (l : Local) (owned : List Local) :
    m.run (.drop next) (l :: owned) =
      m.orUnwind owned (m.dropLocal l) fun _ => m.run next owned := by
  funext w
  simp only [Machine.run, orUnwind]
  cases m.dropLocal l w <;> rfl

/-- **Which machine a frame performs operations on**, if those that it performs while it
has an engine's lock released are diverted to another. -/
def divert (m inner : Machine κ) (e : EngineId) : List Local → Machine κ
  | .guard e' (.release _) :: _ => if e' = e then inner else m
  | _ => m

/-- **Run a program**, and divert to another machine what it does while it has an
engine's lock released. -/
def runDiverted (m inner : Machine κ) (e : EngineId) :
    Program κ α → List Local → Act κ α
  | .done a, owned => do
    m.unwind owned
    pure a
  | .panic p, owned => do
    m.unwind owned
    Act.panic p
  | .perform op next, owned =>
    m.orUnwind owned ((m.divert inner e owned).perform op) fun r =>
      m.runDiverted inner e (next r) owned
  | .hold l next, owned => m.runDiverted inner e next (l :: owned)
  | .drop next, [] => m.runDiverted inner e next []
  | .drop next, l :: owned =>
    m.orUnwind owned (m.dropLocal l) fun _ => m.runDiverted inner e next owned
  | .forget next, owned => m.runDiverted inner e next owned.tail

/-- What is diverted to the machine itself is not diverted. -/
@[simp] theorem divert_self (m : Machine κ) (e : EngineId) (owned : List Local) :
    m.divert m e owned = m := by
  unfold divert
  split
  · split <;> rfl
  · rfl

/-- What a frame does right after it released the lock is diverted. -/
@[simp] theorem divert_release (m inner : Machine κ) (e : EngineId) (saved : Nat)
    (owned : List Local) : m.divert inner e (.guard e (.release saved) :: owned) = inner :=
  if_pos rfl

theorem runDiverted_self (m : Machine κ) (e : EngineId) (p : Program κ α)
    (owned : List Local) : m.runDiverted m e p owned = m.run p owned := by
  induction p generalizing owned with
  | done a => rfl
  | panic p => rfl
  | perform op next ih =>
    rw [run_perform, runDiverted, divert_self]
    exact congrArg (m.orUnwind owned (m.perform op)) (funext fun r => ih r owned)
  | hold l next ih => exact ih (l :: owned)
  | drop next ih =>
    cases owned with
    | nil => exact ih []
    | cons l owned =>
      rw [run_drop, runDiverted]
      exact congrArg (m.orUnwind owned (m.dropLocal l)) (funext fun _ => ih owned)
  | forget next ih => exact ih owned.tail

theorem Tracks.divert (hm : Machine.Tracks T m m') (hi : Machine.Tracks T inner inner')
    (owned : List Local) :
    Machine.Tracks T (m.divert inner e owned) (m'.divert inner' e owned) := by
  unfold Machine.divert
  split
  · split
    · exact hi
    · exact hm
  · exact hm

theorem abides_orUnwind {R : Regime κ} {β : Type} {owned : List Local}
    (hu : ∀ w, Act.Abides R (m.unwind owned) (m'.unwind owned) w) {a a' : Act κ β}
    {f f' : β → Act κ α} (ha : Act.Abides R a a' w)
    (hf : ∀ x w', a w = .ok x w' → Act.Abides R (f x) (f' x) w') :
    Act.Abides R (m.orUnwind owned a f) (m'.orUnwind owned a' f') w := by
  intro hw
  obtain ⟨he, hx⟩ := ha hw
  cases hr : a w with
  | ok x w' =>
    rw [after_of_ok hr] at hx
    obtain ⟨he', hx'⟩ := hf x w' hr (R.after hw hx)
    refine ⟨by simp only [Machine.orUnwind, he, hr, he'], ?_⟩
    simp only [after, Machine.orUnwind, hr]
    exact R.trans hx hx'
  | error x w' =>
    rw [after_of_error hr] at hx
    obtain ⟨he', hx'⟩ := Act.Abides.ensuring (.throw (α := α) x) (fun _ _ _ => hu _)
      (R.after hw hx)
    refine ⟨by simp only [Machine.orUnwind, he, hr]; exact he', ?_⟩
    simp only [after, Machine.orUnwind, hr]
    exact R.trans hx hx'

theorem Tracks.orUnwind (hm : Machine.Tracks T m m') (hu : ∀ e, ¬ T.Watched e) {β : Type}
    {a a' : Act κ β} {f f' : β → Act κ α} (owned : List Local) (ha : Act.Tracks T a a' w)
    (hf : ∀ x w', a w = .ok x w' → Act.Tracks T (f x) (f' x) w') :
    Act.Tracks T (m.orUnwind owned a f) (m'.orUnwind owned a' f') w :=
  abides_orUnwind (fun _ => hm.unwind hu owned) ha hf

/-- **Running a program in a regime** in which its operations are followed, and what it
owns is dropped. -/
theorem abides_runDiverted {R : Regime κ}
    (hd : ∀ l w, Act.Abides R (m.dropLocal l) (m'.dropLocal l) w)
    (hp : ∀ owned (op : Op κ) w, Act.Abides R ((m.divert inner e owned).perform op)
      ((m'.divert inner' e owned).perform op) w) (p : Program κ α) (owned : List Local) :
    Act.Abides R (m.runDiverted inner e p owned) (m'.runDiverted inner' e p owned) w := by
  have hu : ∀ owned w, Act.Abides R (m.unwind owned) (m'.unwind owned) w :=
    fun owned _ => abides_unwind hd owned
  induction p generalizing owned w with
  | done a => exact (hu owned w).bind fun _ _ _ _ _ => .pure a
  | panic p => exact (hu owned w).bind fun _ _ _ _ _ => .panic p
  | perform op next ih => exact abides_orUnwind (hu owned) (hp owned op w) fun r _ _ => ih r owned
  | hold l next ih => exact ih (l :: owned)
  | drop next ih =>
    cases owned with
    | nil => exact ih []
    | cons l owned => exact abides_orUnwind (hu owned) (hd l w) fun _ _ _ => ih owned
  | forget next ih => exact ih owned.tail

theorem abides_run {R : Regime κ}
    (hd : ∀ l w, Act.Abides R (m.dropLocal l) (m'.dropLocal l) w)
    (hp : ∀ (op : Op κ) w, Act.Abides R (m.perform op) (m'.perform op) w) (p : Program κ α)
    (owned : List Local) : Act.Abides R (m.run p owned) (m'.run p owned) w := by
  rw [← runDiverted_self m ⟨0⟩, ← runDiverted_self m' ⟨0⟩]
  refine abides_runDiverted hd (fun owned op w => ?_) p owned
  rw [divert_self, divert_self]
  exact hp op w

/-- **Running a program**, in a frame that owns some things already. -/
theorem Tracks.run (hm : Machine.Tracks T m m') (hT : T.Free) (p : Program κ α)
    (owned : List Local) : Act.Tracks T (m.run p owned) (m'.run p owned) w :=
  abides_run (fun l _ => hm.dropLocal hT.unwatched l) (fun op _ => hm.perform op (hT.allows op))
    p owned

end Machine

/-! ## Natives -/

/-- **Natives run programs**: whatever one does when it is asked or finalised is an
excursion. -/
structure Machine.Roams (m : Machine κ) : Prop where
  /-- When it is asked. -/
  ask : ∀ id r w, w.Sound → Excursion True w ((m.ask id r).after w)
  /-- When it is finalised. -/
  finalise : ∀ n w, w.Sound → Excursion True w ((m.finalise n).after w)

/-- What goes on excursions in all sound worlds, whatever is asked, roams. -/
theorem Machine.Tracks.roams {m : Machine κ} {T : Terrain κ} (hm : Machine.Tracks T m m)
    (hsound : ∀ {w}, w.Sound → T.Holds w) (hwindows : T.Windows) : m.Roams :=
  ⟨fun id r w hw => (hm.ask id r w (fun _ => hwindows) (hsound hw)).2.1.mono fun _ => trivial,
    fun n w hw => (hm.finalise n w (hsound hw)).2.1.mono fun _ => trivial⟩

/-- Natives that run programs go on excursions everywhere. -/
theorem Machine.Roams.tracks {m : Machine κ} (hm : m.Roams) {T : Terrain κ} (hT : T.Free) :
    Machine.Tracks T m m :=
  ⟨fun id r w _ => .of_rel fun hw =>
      ⟨(hm.ask id r w (T.sound hw)).mono fun _ => hT.collects,
        fun e he => absurd he (hT.unwatched e)⟩,
    fun n w => .of_rel fun hw =>
      ⟨(hm.finalise n w (T.sound hw)).mono fun _ => hT.collects,
        fun e he => absurd he (hT.unwatched e)⟩⟩

namespace Machine.Roams

variable {m : Machine κ} {w : World κ}

/-- So it is an excursion to make a request. -/
theorem request (hm : m.Roams) (id : NativeId) (r : Request) (hw : w.Sound) :
    Excursion True w ((m.request id r).after w) :=
  ((hm.tracks Terrain.Free.everywhere).request r (fun _ => trivial) hw).2.1

theorem release (hm : m.Roams) (id : NativeId) (hw : w.Sound) :
    Excursion True w ((m.release id).after w) :=
  have hrelease : Act.Tracks (.everywhere κ) (m.release id) (m.release id) w :=
    (hm.tracks .everywhere).release
  (hrelease hw).2.1

/-- And to perform an operation. -/
theorem perform (hm : m.Roams) (o : Op κ) (hw : w.Sound) :
    Excursion True w ((m.perform o).after w) :=
  ((hm.tracks Terrain.Free.everywhere).perform o (Terrain.Free.everywhere.allows o) hw).2.1

theorem dropLocal (hm : m.Roams) (l : Local) (hw : w.Sound) :
    Excursion True w ((m.dropLocal l).after w) :=
  ((hm.tracks Terrain.Free.everywhere).dropLocal Terrain.Free.everywhere.unwatched l hw).2.1

/-- And to run a program. -/
theorem run (hm : m.Roams) (p : Program κ α) (owned : List Local) (hw : w.Sound) :
    Excursion True w ((m.run p owned).after w) :=
  ((hm.tracks Terrain.Free.everywhere).run Terrain.Free.everywhere p owned hw).2.1

/-- And to find out what is called. -/
theorem callTarget (hm : m.Roams) (e : EngineId) (callee : Value) (hw : w.Sound) :
    Excursion True w ((m.callTarget e callee).run.after w) :=
  ((hm.tracks Terrain.Free.everywhere).callTarget callee hw).2.1

end Machine.Roams

/-- So they do where operands are pinned. -/
theorem Machine.Roams.tracks_pinned {m : Machine κ} (hm : m.Roams) (w : World κ)
    (e : EngineId) (vs : List Value) :
    Machine.Tracks ((Terrain.everywhere κ).pinned w e vs) m m :=
  hm.tracks (Terrain.Free.everywhere.pinned w e vs)

/-- **Operands stay pinned until a host has answered**, whatever it does until then. -/
theorem Machine.Roams.asked {m : Machine κ} (hm : m.Roams) {w₀ w w' : World κ} {e e' : EngineId}
    {vs : List Value} {host : NativeId} {r : HostRequest} {x : r.Reply}
    (hw : ((Terrain.everywhere κ).pinned w₀ e vs).Holds w)
    (hask : m.askHost e' host r w = .ok x w') :
    ((Terrain.everywhere κ).pinned w₀ e vs).Holds w' ∧ World.Excursion True w w' := by
  have hx := Act.after_of_ok hask ▸ ((hm.tracks_pinned w₀ e vs).askHost r hw).2.1
  exact ⟨Terrain.after _ hw hx, hx⟩

/-- **The natives of an embedder are followed in a regime** in which programs are whenever
the natives that they ask are. -/
theorem Behaviour.follows (b : Behaviour κ) {R : Regime κ}
    (hrun : ∀ depth, Machine.Follows R (b.machine depth) (b.machine depth) →
      ∀ (α : Type) (p : Program κ α) (w : World κ),
        Act.Abides R ((b.machine depth).run p []) ((b.machine depth).run p []) w) (depth : Nat) :
    Machine.Follows R (b.machine depth) (b.machine depth) := by
  -- a native at one depth runs a program whose natives are those of the depth below
  induction depth with
  | zero => exact ⟨fun _ _ _ => .throw _, fun _ _ => .throw _⟩
  | succ depth ih =>
    refine ⟨fun id r w => ?_, fun n w => hrun _ ih _ (b.finalProgram n) w⟩
    refine (Act.Abides.view _).bind fun n w _ _ _ => ?_
    cases n with
    | some n => exact hrun _ ih _ (b.program id n r) w
    | none => exact .panic _

/-- **The natives of an embedder run programs**, however deeply they may be nested. -/
theorem Behaviour.roams (b : Behaviour κ) (depth : Nat) : (b.machine depth).Roams := by
  have hfollows := b.follows (R := (Terrain.everywhere κ).regime)
    (fun _ hm _ p _ => Machine.Tracks.run ⟨fun id r w _ => hm.ask id r w, hm.finalise⟩
      .everywhere p []) depth
  exact Machine.Tracks.roams ⟨fun id r w _ => hfollows.ask id r w, hfollows.finalise⟩ id trivial

/-- **To ask a native is to run its program**, once the request is on record. -/
theorem Behaviour.request_of_native? (b : Behaviour κ) (depth : Nat) {id : NativeId}
    {n : Native κ} (r : Request) {w : World κ} (hn : w.native? id = some n) :
    (b.machine (depth + 1)).request id r w
      = (b.machine depth).run (b.program id n r) [] (w.record (.asked id r w.postures)) := by
  have hview : Act.view (·.native? id) (w.record (.asked id r w.postures))
      = .ok (some n) (w.record (.asked id r w.postures)) :=
    congrArg (EStateM.Result.ok · _) hn
  show (b.machine (depth + 1)).ask id r (w.record _) = _
  simp only [Behaviour.machine, bind, EStateM.bind, hview]

/-- **The second machine does what the first does** wherever the first asks a native from
a world and leaves one that are related in one way, and wherever it finalises one from a
world and leaves one that are related in another. Elsewhere it may do anything, so what
comes out the same on all such machines does not depend on natives elsewhere. -/
structure Machine.Agrees (m m' : Machine κ) (asked finalised : World κ → World κ → Prop) :
    Prop where
  /-- When a native is asked. -/
  ask : ∀ id r w, asked w ((m.ask id r).after w) → m'.ask id r w = m.ask id r w
  /-- When a native is finalised. -/
  finalise : ∀ n w, finalised w ((m.finalise n).after w) → m'.finalise n w = m.finalise n w

/-- A machine that agrees in the worlds of a regime is followed there. -/
theorem Machine.Follows.of_agrees {R : Regime κ} {m m' : Machine κ}
    {asked finalised : World κ → World κ → Prop} (hm : Machine.Follows R m m)
    (ha : m.Agrees m' asked finalised)
    (hasked : ∀ w w', R.Holds w → R.Holds w' → asked w w')
    (hfinalised : ∀ w w', R.Holds w → R.Holds w' → finalised w w') :
    Machine.Follows R m m' := by
  refine ⟨fun id r w hw => ?_, fun n w hw => ?_⟩
  · obtain ⟨-, hx⟩ := hm.ask id r w hw
    exact ⟨ha.ask id r w (hasked _ _ hw (R.after hw hx)), hx⟩
  · obtain ⟨-, hx⟩ := hm.finalise n w hw
    exact ⟨ha.finalise n w (hfinalised _ _ hw (R.after hw hx)), hx⟩

/-- A machine that agrees on a terrain tracks one whose natives go on excursions. -/
theorem Machine.Tracks.of_agrees {T : Terrain κ} {m m' : Machine κ}
    {asked finalised : World κ → World κ → Prop} (hm : Machine.Tracks T m m)
    (ha : m.Agrees m' asked finalised)
    (hasked : ∀ w w', T.Holds w → T.Holds w' → asked w w')
    (hfinalised : ∀ w w', T.Holds w → T.Holds w' → finalised w w') :
    Machine.Tracks T m m' := by
  refine ⟨fun id r w hr hw => ?_, fun n w hw => ?_⟩
  · obtain ⟨-, hx⟩ := hm.ask id r w hr hw
    exact ⟨ha.ask id r w (hasked _ _ hw (T.after hw hx.1)), hx⟩
  · obtain ⟨-, hx⟩ := hm.finalise n w hw
    exact ⟨ha.finalise n w (hfinalised _ _ hw (T.after hw hx.1)), hx⟩

/-- **Running a program takes steps only**, and runs natives in worlds that steps lead
to: what natives do in any other world makes no difference. -/
theorem Behaviour.reaches_run (b : Behaviour κ) (depth : Nat) (p : Program κ α)
    (owned : List Local) {w : World κ} (hw : w.Sound) :
    w.Reaches (((b.machine depth).run p owned).after w)
      ∧ ∀ m', (b.machine depth).Agrees m' (fun w₁ w₂ => w.Reaches w₁ ∧ w.Reaches w₂)
            (fun w₁ w₂ => w.Reaches w₁ ∧ w.Reaches w₂) →
          m'.run p owned w = (b.machine depth).run p owned w := by
  have hT := Terrain.Free.reachedFrom w hw
  have htracks := (b.roams depth).tracks hT
  refine ⟨(htracks.run hT p owned .refl).2.1.reaches, fun m' hm' => ?_⟩
  have htracks' := htracks.of_agrees hm' (fun _ _ hw hw' => ⟨hw, hw'⟩)
    (fun _ _ hw hw' => ⟨hw, hw'⟩)
  exact (htracks'.run hT p owned .refl).1

/-- **Programs come to worlds that can come about**, and run natives in such worlds. -/
theorem Behaviour.reachable_run (b : Behaviour κ) (depth : Nat) (p : Program κ α)
    (owned : List Local) {w : World κ} (hw : w.Reachable) :
    (((b.machine depth).run p owned).after w).Reachable
      ∧ ∀ m', (b.machine depth).Agrees m' (fun w₁ w₂ => w₁.Reachable ∧ w₂.Reachable)
            (fun w₁ w₂ => w₁.Reachable ∧ w₂.Reachable) →
          m'.run p owned w = (b.machine depth).run p owned w := by
  obtain ⟨hreach, hagrees⟩ := b.reaches_run depth p owned hw.sound
  refine ⟨hw.trans hreach, fun m' ha => hagrees m' ⟨fun id r w₁ hr => ?_, fun n w₁ hr => ?_⟩⟩
  · exact ha.ask id r w₁ ⟨hw.trans hr.1, hw.trans hr.2⟩
  · exact ha.finalise n w₁ ⟨hw.trans hr.1, hw.trans hr.2⟩

end EmbeddedScript
