import EmbeddedScript.Proofs.Bridge.Balance
import EmbeddedScript.Proofs.Bridge.Exclusivity
import EmbeddedScript.Proofs.Bridge.Methods
import EmbeddedScript.Proofs.Bridge.Passage
import EmbeddedScript.Proofs.Bridge.Shares
import EmbeddedScript.Proofs.Heap.Representation
import EmbeddedScript.Proofs.Machine.Reports

/-!
# Failures of bound objects

A bound object that is invoked from script may fail. What it says about that does not
cross: script sees an error object that says what was invoked, and where the heap has no
room for the error it sees that instead.

On its way the failure passes the adapter, which lets go of its arguments, the operation,
which lets go of the adapter, takes its pins off and gives the lock back, and before all of
these the window in which the bound object ran with the lock released. **None of them
leaves anything behind** (`World.Surfaces`): the books are what the bound object left,
without the shares of the arguments; the lock is the one that the call found, whatever the
bound object did to it; and nothing is reported.

That nobody is finalised on the way is because wrappers own their adapters, and these
their bound objects, and the wrappers among the operands are pinned; here it is a condition
on the owners that there are when the bound object has failed (`World.Spares`).
-/

namespace EmbeddedScript

open Act Machine

variable {κ α : Type} {w w' w₀ w₁ w₂ w₃ : World κ} {e : EngineId} {host : NativeId}
  {a : Adapter} {message : String}

/-! ## Raising the error -/

namespace Heap

/-- **No object can be put into the heap**: it holds as many as it may, or no index is left
for another slot. -/
def IsFull (heap : Heap) : Prop :=
  (0 < heap.limit ∧ heap.limit ≤ heap.live)
    ∨ (heap.free = [] ∧ indexBound ≤ heap.slots.size)

instance (heap : Heap) : Decidable heap.IsFull :=
  inferInstanceAs (Decidable (_ ∨ _))

/-- A heap refuses objects when it is full. -/
theorem refusal?_eq_none_iff (heap : Heap) : heap.refusal? = none ↔ ¬ heap.IsFull := by
  rw [refusal?_eq, IsFull]
  split
  · next h => simp [h]
  · next h => split <;> simp_all

/-- **An error is raised**: it is a new object with a name and a message, unless the heap is
full. No other object is affected. -/
structure Raises (heap heap' : Heap) (message : String) (err : EngineError) : Prop where
  /-- Where there is room, the error object is thrown. -/
  thrown : ¬ heap.IsFull → ∃ h, err = .exception (.object h) ∧ heap.get? h = none
    ∧ heap'.identity? h = some ⟨heap.births, .plain .empty⟩
    ∧ heap'.get? h
      = some (.plain ⟨[("name", .string "Error"), ("message", .string message)]⟩)
  /-- Where there is none, that is the error. -/
  refused : heap.IsFull → ∃ limit, err = .heapLimit limit
  /-- The other objects are what they were. -/
  kept : ∀ h o, heap.get? h = some o → heap'.get? h = some o

end Heap

/-- **Raising an error comes to one**, and changes nothing but the heap. -/
theorem Machine.exists_raise (m : Machine κ) (hw : w.Sound) (hl : (w.engine e).loan = .none)
    (message : String) :
    ∃ err heap w', m.raise e .error message w = .ok err w'
      ∧ (w.engine e).heap.Raises heap message err
      ∧ (∀ e', w'.engine e' = if e = e' then { w.engine e with heap := heap } else w.engine e')
      ∧ w'.natives = w.natives ∧ w'.books = w.books := by
  have hwf := (hw e).wellFormed
  by_cases hfull : (w.engine e).heap.IsFull
  · obtain ⟨limit, hr⟩ : ∃ limit, (w.engine e).heap.refusal? = some (.heapLimit limit) := by
      obtain ⟨err, hr⟩ := Option.ne_none_iff_exists'.1
        (mt (Heap.refusal?_eq_none_iff _).1 (not_not_intro hfull))
      obtain ⟨limit, rfl⟩ := Heap.eq_heapLimit_of_refusal hr
      exact ⟨limit, hr⟩
    refine ⟨_, (w.engine e).heap, _, raise_of_refusal hl hr _ _,
      ⟨fun h => absurd hfull h, fun _ => ⟨limit, rfl⟩, fun _ _ h => h⟩, fun e' => ?_, rfl, ?_⟩
    · rw [World.lend, World.lend, World.modifyEngine_modifyEngine, World.engine_modifyEngine]
      split
      · show { w.engine e with loan := .none } = _
        rw [← hl]
      · rfl
    · rw [World.lend, World.lend, World.books_modifyEngine, World.books_modifyEngine]
  · have hr := (Heap.refusal?_eq_none_iff _).2 hfull
    refine ⟨_, ((w.engine e).heap.place (errorObject .error message)).2, _,
      raise_of_room hl hr _ _,
      ⟨fun _ => ⟨_, rfl, Heap.get?_place_fst hwf _, ?_, ?_⟩, fun h => absurd h hfull,
        fun h o hg => ?_⟩, fun e' => World.engine_modifyEngine w e e' _, rfl,
      World.books_modifyEngine w e _⟩
    · rw [Heap.identity?_place hwf, if_pos rfl]
      rfl
    · rw [Heap.get?_place hwf, if_pos rfl]
      rfl
    · have hne : h ≠ ((w.engine e).heap.place (errorObject .error message)).1 := by
        rintro rfl
        rw [Heap.get?_place_fst hwf] at hg
        cases hg
      rw [Heap.get?_place hwf, if_neg hne, hg]

/-! ## The failure on its way -/

/-- **A failure surfaces** in the second world as an error. In the first, the bound object
has failed, and nothing else has happened since. -/
structure World.Surfaces (w w' : World κ) (e : EngineId) (message : String)
    (ns : List NativeValue) (err : EngineError) : Prop where
  /-- The error is raised in the heap that the bound object has left. -/
  raises : (w.engine e).heap.Raises (w'.engine e).heap message err
  /-- Nothing is reported. -/
  reported : ∀ e', w'.reported e' = w.reported e'
  /-- The shares of the arguments are let go of, and no root is made. -/
  books : w'.books = w.books.settled (NativeValue.shares ns)

/-- The operation lets go of the adapter, takes its pins off and gives the lock back: none of
that affects heaps, reports or books. -/
theorem World.LetsGo.surfaces {ns : List NativeValue} {err : EngineError} {heap : Heap}
    (height : Nat) (hgone : w₂.LetsGo w₃ (ns.filterMap NativeValue.object?))
    (hraises : (w₃.engine e).heap.Raises heap message err)
    (hengine : ∀ e', w'.engine e' = if e = e' then { w₃.engine e with heap := heap }
      else w₃.engine e')
    (hbooks : w'.books = w₃.books) (hhost : w'.books.proxies host = none) :
    w₂.Surfaces (((w'.modifyOwners host (· - 1)).truncate e height).relock e (Lock.undo · .level))
      e message ns err where
  raises := by
    have hheap : (w₃.engine e).heap = (w₂.engine e).heap :=
      show (w₃.engine e).rootless.heap = (w₂.engine e).rootless.heap by rw [hgone.rootless]
    have hleft : ((((w'.modifyOwners host (· - 1)).truncate e height).relock e
        (Lock.undo · .level)).engine e).heap = heap := by
      rw [World.relock, World.engine_modifyEngine_self, World.heap_truncate,
        World.engine_modifyOwners, hengine, if_pos rfl]
    rw [hleft, ← hheap]
    exact hraises
  reported e' := by
    have hkept : w₃.reported e' = w₂.reported e' :=
      show (w₃.engine e').rootless.reported = (w₂.engine e').rootless.reported by
        rw [hgone.rootless]
    have hraised : w'.reported e' = w₃.reported e' := by
      rw [World.reported, hengine]
      split
      · next he => rw [he, ← World.reported]
      · rfl
    rw [World.relock, World.reported_modifyEngine rfl, World.truncate,
      World.reported_modifyEngine rfl]
    exact hraised.trans hkept
  books := by
    have hshare : (w'.modifyOwners host (· - 1)).books = w'.books := by
      rw [World.books_letGo (by simp [hhost]), Books.letGo_of_none hhost]
    rw [World.relock, World.books_modifyEngine, World.truncate, World.books_modifyEngine, hshare,
      hbooks, hgone.books]
    rfl

/-- **The invocation of a bound object**: of a method by its name, or of the object itself. -/
def Machine.invoked (m : Machine κ) (bound : NativeId) (method? : Option String)
    (ns : List NativeValue) : Act κ (Except NativeError NativeValue) :=
  match method? with
  | some name => m.request bound (.bound (.invokeMethod name ns))
  | none => m.request bound (.bound (.invoke ns))

/-- What script sees of its failure. -/
def InvocationFault.of : Option String → InvocationFault
  | some name => .method name
  | none => .function

/-- **A call whose bound object fails comes to an error.** In the first world the call
begins, and in the second its arguments are still to be converted, before the bound object
is invoked with the lock released. Whenever that fails, and nobody let go of shares of
others, the call comes to the error that surfaces in the end. The level of the lock is
given back that was taken, stacks are as they were, and if the bound object kept nothing,
so are the tables of persistent roots. -/
def Behaviour.FailureSurfaces (b : Behaviour κ) (depth : Nat) (e : EngineId) (host : NativeId)
    (a : Adapter) (method? : Option String) (args : List Value)
    (called : Act κ (Except EngineError Value)) (w w₀ : World κ) : Prop :=
  ∃ ns w₁, (b.machine depth).run (Program.toNatives e a.registry args) [] w₀ = .ok ns w₁
    ∧ w₀.Converts w₁ e a.registry args ns
    ∧ ∀ failure w₂,
      Act.unlocked e ((b.machine depth).invoked a.bound method? ns) w₁
        = .ok (.error failure) w₂ →
      w₂.Spares (host :: ns.filterMap NativeValue.object?) →
      ∃ err w', called w = .ok (.error err) w'
        ∧ w₂.Surfaces w' e (InvocationFault.of method?).message ns err
        ∧ (w'.engine e).lock = (w₀.engine e).lock.undo .level
        ∧ (∀ e', (w'.engine e').roots.stack = (w.engine e').roots.stack)
        ∧ (w₀.Tidy → w₂.books = w₁.books → (∀ e' h, w'.Matched e' h) →
          ∀ e', (w'.engine e').roots.persistent.Perm (w₀.engine e').roots.persistent)

/-! ## The adapter -/

/-- The invocation as a program. -/
def Program.invoked (bound : NativeId) (method? : Option String) (ns : List NativeValue) :
    Program κ (Except NativeError NativeValue) :=
  match method? with
  | some name => Program.op (.ask bound (.bound (.invokeMethod name ns)))
  | none => Program.op (.ask bound (.bound (.invoke ns)))

/-- **What is left to do once the arguments are converted**: the bound object is invoked with
the lock released, and then what comes of it is concluded. -/
def Adapter.invoking (a : Adapter) (e : EngineId) (method? : Option String)
    (ns : List NativeValue) : Program κ (Except EngineError Value) :=
  (Program.owningAll ns ((Program.unlocked e (Program.invoked a.bound method? ns)).bind
    (a.conclude e (.of method?)))).bind (Adapter.unhold e)

namespace Machine

variable {m : Machine κ} {method? : Option String} {ns : List NativeValue}

/-- An action with the lock released comes to what it comes to where the lock is released,
and the lock is restored. -/
theorem unlocked_eq_ok {act : Act κ α} {x : α} :
    Act.unlocked e act w = .ok x w' ↔
      ∃ w₁, act (w.relock e Lock.dropAll) = .ok x w₁
        ∧ w' = w₁.relock e fun _ => (w.engine e).lock :=
  within_eq_ok.trans (exists_congr fun _ => and_congr_right fun _ => eq_comm)

/-- The program that releases the lock does just that. -/
theorem eval_unlocked_invoked {bound : NativeId} {x : Except NativeError NativeValue}
    (h : Act.unlocked e (m.invoked bound method? ns) w = .ok x w') (owned : List Local) :
    m.eval (Program.unlocked e (Program.invoked bound method? ns)) owned w
      = .ok (x, owned) w' := by
  obtain ⟨w₁, hasked, rfl⟩ := unlocked_eq_ok.1 h
  refine eval_bind_eq_ok.2 ⟨_, owned, w.relock e Lock.dropAll, eval_op_eq_ok.2 ⟨rfl, rfl⟩, ?_⟩
  refine eval_owning_eq_ok.2
    ⟨.guard e (.release (w.engine e).lock.depth) :: owned, w₁, ?_, rfl⟩
  cases method? with
  | some name => exact eval_op_eq_ok.2 ⟨rfl, hasked⟩
  | none => exact eval_op_eq_ok.2 ⟨rfl, hasked⟩

/-- An invocation is an excursion, and so is one with the lock released. -/
theorem Roams.unlocked_invoked (hm : m.Roams) {bound : NativeId}
    {x : Except NativeError NativeValue} (hw : w.Sound)
    (h : Act.unlocked e (m.invoked bound method? ns) w = .ok x w') :
    World.Excursion True w w' := by
  have hx := (Act.Relocks.unlocked (e := e) (a := m.invoked bound method? ns) (fun v hv => by
    cases method? with
    | some name => exact hm.request bound _ hv
    | none => exact hm.request bound _ hv) hw).1
  rwa [after_of_ok h] at hx

/-- At depth zero nobody is invoked. -/
theorem invoked_zero (b : Behaviour κ) (bound : NativeId) (x : Except NativeError NativeValue) :
    (b.machine 0).invoked bound method? ns w ≠ .ok x w' := by
  cases method? with
  | some name => exact nofun
  | none => exact nofun

end Machine

namespace Behaviour

variable {b : Behaviour κ} {depth : Nat} {method? : Option String} {ns : List NativeValue}

/-- **The adapter concludes a failure**: it lets go of the arguments, and then it raises the
error. -/
theorem run_invoking (hw : w₂.Reachable) {failure : NativeError}
    (hfailed : Act.unlocked e ((b.machine (depth + 1)).invoked a.bound method? ns) w₁
      = .ok (.error failure) w₂)
    (hspares : w₂.Spares (ns.filterMap NativeValue.object?)) :
    ∃ w₃, w₂.LetsGo w₃ (ns.filterMap NativeValue.object?)
      ∧ ∀ err w', (b.machine (depth + 1)).raise e .error (InvocationFault.of method?).message w₃
          = .ok err w' →
        (b.machine (depth + 1)).run (a.invoking e method? ns) [] w₁ = .ok (.error err) w' := by
  obtain ⟨w₃, hdropped, hgone⟩ := b.exists_dropping depth hw hspares
    (Except.error (.invocation (.of method?)) : Except BridgeError ScriptValue)
  refine ⟨w₃, hgone, fun err w' hraise => ?_⟩
  have hconcluded : (b.machine (depth + 1)).eval
      ((Program.unlocked e (Program.invoked a.bound method? ns)).bind
        (a.conclude e (.of method?))) (NativeValue.shares ns) w₁
      = .ok (.error (.invocation (.of method?)), NativeValue.shares ns) w₂ :=
    eval_bind_eq_ok.2 ⟨_, _, w₂, eval_unlocked_invoked hfailed _, rfl⟩
  have hlength : (NativeValue.shares ns).length = (ns.filterMap NativeValue.object?).length :=
    List.length_map _
  rw [Adapter.invoking, Machine.run_owningAll, hlength]
  refine (run_bind_of_eval hconcluded).trans ((run_bind_of_eval hdropped).trans ?_)
  exact run_eq_ok.2 ⟨[], w', eval_map_eq_ok.2 ⟨err, eval_op_eq_ok.2 ⟨rfl, hraise⟩, rfl⟩, rfl⟩

/-- **Failures surface in every call that comes to such an invocation** once the adapter is
ready to convert the arguments. -/
theorem failureSurfaces_of_called (b : Behaviour κ) (depth : Nat) (hw : w.Reachable)
    (hw₀ : w₀.Reachable) (hl : (w₀.engine e).loan = .none)
    (hn : w₀.native? host = some (.adapter a)) {args : List Value} (height : Nat)
    {called : Act κ (Except EngineError Value)}
    (hexcursion : World.Excursion True w (called.after w))
    (hcalled : ∀ x w₄ w₅,
      (b.machine depth).run (Program.toNatives e a.registry args >>= a.invoking e method?) [] w₀
        = .ok x w₄ →
      (b.machine (depth + 1)).release host w₄ = .ok () w₅ →
      called w = .ok x ((w₅.truncate e height).relock e (Lock.undo · .level))) :
    b.FailureSurfaces depth e host a method? args called w w₀ := by
  obtain ⟨ns, w₁, hconvert, hw₁, hconverts⟩ :=
    hw₀.exists_converts (by rw [hl]; rfl) a.registry args
  refine ⟨ns, w₁, run_eq_ok.2 ⟨[], w₁, hconvert _ [], rfl⟩, hconverts,
    fun failure w₂ hfailed hspares => ?_⟩
  cases depth with
  | zero =>
    obtain ⟨_, hasked, -⟩ := unlocked_eq_ok.1 hfailed
    exact absurd hasked (invoked_zero b _ _)
  | succ depth =>
    have hx := (b.roams (depth + 1)).unlocked_invoked hw₁.sound hfailed
    have hw₂ : w₂.Reachable := hw₁.trans hx.reaches
    have hloan : (w₂.engine e).loan = .none :=
      ((hx.engine e).2.trans hconverts.alike.loan).trans hl
    have hspared : w₂.Spares (ns.filterMap NativeValue.object?) := fun id hid =>
      (hspares id (List.mem_cons_of_mem host hid)).imp_left
        (Nat.lt_of_le_of_lt List.count_le_count_cons)
    obtain ⟨w₃, hgone, hrun⟩ := run_invoking (a := a) hw₂ hfailed hspared
    have hw₃ : w₃.Reachable := hw₂.trans hgone.reaches
    have hloan₃ : (w₃.engine e).loan = .none :=
      (show (w₃.engine e).rootless.loan = (w₂.engine e).rootless.loan by
        rw [hgone.rootless]).trans hloan
    obtain ⟨err, heap, w₄, hraise, hraises, hengine, hnatives, hbooks⟩ :=
      exists_raise (b.machine (depth + 1)) hw₃.sound hloan₃ (InvocationFault.of method?).message
    -- the adapter is no proxy, and its wrapper owns it still
    obtain ⟨cls, hadapter⟩ : ∃ cls, w₂.native? host = some (.adapter { a with cls := cls }) :=
      (World.retains_of_reaches hx.reaches).adapter (hconverts.alike.native _ _ hn)
    have hshared : 1 < w₄.owners host := by
      rcases hspares host List.mem_cons_self with hlt | ⟨p, hp⟩
      · rw [List.count_cons_self] at hlt
        have howners := hgone.owners host
        rw [World.owners, hnatives, ← World.owners]
        omega
      · cases hadapter.symm.trans hp
    have hnoproxy : w₄.books.proxies host = none := by
      obtain ⟨k, hk⟩ := World.native?_eq_some_iff.1 ((hgone.native host).trans hadapter)
      show World.proxyEntry w₄.natives[host.index]? = none
      rw [hnatives, hk]
      exact World.proxyEntry_eq_none (by simp) k
    have hfinal := hcalled _ _ _ ((run_bind_of_eval (hconvert _ [])).trans (hrun err w₄ hraise))
      (release_of_lt_owners _ hshared)
    rw [after_of_ok hfinal] at hexcursion
    have hsurfaces := hgone.surfaces height hraises hengine hbooks hnoproxy
    refine ⟨err, _, hfinal, hsurfaces, ?_, ?_, ?_⟩
    · -- what the bound object did to the lock was undone when its window was closed
      have hrestored : (w₂.engine e).lock = (w₁.engine e).lock := by
        obtain ⟨_, -, rfl⟩ := unlocked_eq_ok.1 hfailed
        exact World.lock_relock_self _ e _
      have hkept : (w₃.engine e).lock = (w₀.engine e).lock :=
        (show (w₃.engine e).rootless.lock = (w₂.engine e).rootless.lock by
          rw [hgone.rootless]).trans <| hrestored.trans <|
          show (w₁.engine e).rootless.lock = (w₀.engine e).rootless.lock by
            rw [hconverts.rootless]
      rw [World.lock_relock_self, World.lock_truncate, World.engine_modifyOwners, hengine,
        if_pos rfl, hkept]
    · exact fun e' => (hexcursion.engine e').1
    · intro hy hkept hm
      have hsettled : w₂.books.settled (NativeValue.shares ns) = w₀.books :=
        hkept ▸ hconverts.settled hy
      have hraised : w₃.Reaches w₄ := by
        have h := ((b.roams (depth + 1)).perform
          (.raise e .error (InvocationFault.of method?).message) hw₃.sound).reaches
        rwa [perform, after_of_ok hraise] at h
      have hleft : w₄.Reaches (((w₄.modifyOwners host (· - 1)).truncate e height).relock e
          (Lock.undo · .level)) :=
        .head (.move (.aside (.modifyOwners w₄ host _)))
          (.head (.truncated e height) (.single (.move (.relocked True _ e _))))
      have hsuffix := World.journal_suffix_of_reaches
        (((hx.reaches.trans hgone.reaches).trans hraised).trans hleft)
      rw [hconverts.alike.journal] at hsuffix
      exact hw₀.persistent_perm (hw.trans hexcursion.reaches)
        (fun e' h => (hm e' h).of_suffix hsuffix) hm (hsurfaces.books.trans hsettled)

/-- **The bound object fails** once the arguments are converted; then nobody's last share is
about to go, and the heap has room. -/
def failsWithRoom (b : Behaviour κ) (depth : Nat) (e : EngineId) (host : NativeId)
    (a : Adapter) (method? : Option String) (args : List Value) (w₀ : World κ) : Bool :=
  (do
    let ns ← (b.machine depth).run (Program.toNatives e a.registry args) []
    let r ← Act.unlocked e ((b.machine depth).invoked a.bound method? ns)
    pure (ns, r)).finishes w₀ fun outcome w₂ =>
      !outcome.2.isOk && decide (w₂.Spares (host :: outcome.1.filterMap NativeValue.object?))
        && decide ¬ (w₂.engine e).heap.IsFull

/-- **An error object is thrown** if the heap has room when the bound object has failed. -/
theorem FailureSurfaces.exists_thrown {args : List Value}
    {called : Act κ (Except EngineError Value)}
    (h : b.FailureSurfaces depth e host a method? args called w w₀)
    (hfails : b.failsWithRoom depth e host a method? args w₀ = true) :
    ∃ h w', called w = .ok (.error (.exception (.object h))) w'
      ∧ (w'.engine e).heap.get? h = some (.plain ⟨[("name", .string "Error"),
          ("message", .string (InvocationFault.of method?).message)]⟩)
      ∧ (w'.engine e).lock = (w₀.engine e).lock.undo .level := by
  obtain ⟨ns, w₁, hconvert, -, hsurfaces⟩ := h
  obtain ⟨outcome, w₂, hrun, htest⟩ := exists_of_finishes hfails
  obtain ⟨ns', w₁', hconvert', hrun⟩ := bind_eq_ok.1 hrun
  obtain ⟨rfl, rfl⟩ := EStateM.Result.ok.inj (hconvert'.symm.trans hconvert)
  obtain ⟨r, w₂', hfailed, hrun⟩ := bind_eq_ok.1 hrun
  obtain ⟨rfl, rfl⟩ := pure_eq_ok.1 hrun
  obtain ⟨hleft, hroom⟩ := (Bool.and_eq_true _ _).mp htest
  obtain ⟨hnot, hspares⟩ := (Bool.and_eq_true _ _).mp hleft
  cases r with
  | ok v => cases hnot
  | error failure =>
    obtain ⟨err, w', hcalled, hsurface, hlock, -⟩ :=
      hsurfaces failure _ hfailed (of_decide_eq_true hspares)
    obtain ⟨k, rfl, -, -, hk⟩ := hsurface.raises.thrown (of_decide_eq_true hroom)
    exact ⟨k, w', hcalled, hk, hlock⟩

end Behaviour

/-! ## Up to the invocation -/

/-- The host has been asked, and that is on record. -/
def World.asking (w : World κ) (e : EngineId) (host : NativeId) (r : HostRequest) : World κ :=
  w.record (.asked host (.host e r) w.postures)

namespace Machine

variable {m : Machine κ} {name : String}

/-- Looking for a method leaves the frame as it was. -/
theorem eq_of_eval_methodsNamed {owned rest : List Local} {ms : List Descriptor}
    (h : m.eval (Adapter.methodsNamed host a e name) owned w = .ok (ms, rest) w') :
    rest = owned := by
  obtain ⟨cls, owned₁, w₁, hclass, hmethods⟩ := eval_bind_eq_ok.1 h
  obtain ⟨found, hfind, -⟩ := eval_map_eq_ok.1 hmethods
  obtain ⟨cached, owned₂, w₂, hcached, hlookup⟩ := eval_bind_eq_ok.1 hfind
  obtain ⟨rfl, -⟩ := eval_op_eq_ok.1 hclass
  obtain ⟨rfl, -⟩ := eval_op_eq_ok.1 hcached
  cases cached with
  | some d => exact (eval_pure_eq_ok.1 hlookup).2.1
  | none =>
    obtain ⟨confirmed, owned₃, w₃, hasked, hconfirmed⟩ := eval_bind_eq_ok.1 hlookup
    obtain ⟨rfl, -⟩ := eval_op_eq_ok.1 hasked
    cases confirmed with
    | false => exact (eval_pure_eq_ok.1 hconfirmed).2.1
    | true =>
      obtain ⟨d, hlocked, -⟩ := eval_map_eq_ok.1 hconfirmed
      obtain ⟨_, owned₄, w₄, hlock, hheld⟩ := eval_bind_eq_ok.1 hlocked
      obtain ⟨left, w₅, hintern, hdrop⟩ := eval_owning_eq_ok.1 hheld
      obtain ⟨rfl, -⟩ := eval_op_eq_ok.1 hlock
      obtain ⟨rfl, -⟩ := eval_op_eq_ok.1 hintern
      obtain ⟨_, w₆, -, hdone⟩ := bind_eq_ok.1 hdrop
      obtain ⟨hresult, -⟩ := pure_eq_ok.1 hdone
      exact (Prod.mk.inj hresult).2.symm

end Machine

namespace Behaviour

variable {b : Behaviour κ} {depth : Nat} {name : String} {args : List Value}

/-- **An adapter that has found the method** goes on to invoke it. -/
theorem askHost_of_methodsNamed (hw : w.Reachable) (hn : w.native? host = some (.adapter a))
    {ms : List Descriptor}
    (hfound : (b.machine depth).run (Adapter.methodsNamed host a e name) []
      (w.asking e host (.invokeMethod name args)) = .ok ms w₀) (hms : ms ≠ []) :
    (b.machine (depth + 1)).askHost e host (.invokeMethod name args) w
      = (b.machine depth).run
          (Program.toNatives e a.registry args >>= a.invoking e (some name)) [] w₀ := by
  have hasking : (w.asking e host (.invokeMethod name args)).Reachable :=
    hw.tail (.move (.recorded trivial))
  obtain ⟨hlength, hnames⟩ := methodsNamed_of_run hasking hfound
  obtain ⟨rest, w₁, heval, hunwind⟩ := run_eq_ok.1 hfound
  obtain rfl := eq_of_eval_methodsNamed heval
  obtain ⟨-, rfl⟩ := pure_eq_ok.1 hunwind
  match ms, hlength, hnames, hms with
  | [d], _, hnames, _ =>
    obtain rfl := hnames d List.mem_cons_self
    rw [askHost_of_adapter b depth e _ hn]
    refine (run_bind_of_eval heval).trans ?_
    show (b.machine depth).run (a.invokeNamed e d.name args >>= Adapter.unhold e) [] _ = _
    rw [show a.invokeNamed e d.name args >>= (Adapter.unhold e : _ → Program κ _)
      = Program.toNatives e a.registry args >>= a.invoking e (some d.name) from
        Program.bind_assoc _ _ _]

/-- **An adapter whose bound object says that it is a function** goes on to invoke it. -/
theorem askHost_of_isFunction (hn : w.native? host = some (.adapter a))
    (hfunction : (b.machine depth).request a.bound (.bound .isFunction)
      (w.asking e host (.call args)) = .ok true w₀) :
    (b.machine (depth + 1)).askHost e host (.call args) w
      = (b.machine depth).run
          (Program.toNatives e a.registry args >>= a.invoking e none) [] w₀ := by
  rw [askHost_of_adapter b depth e _ hn]
  have hcalls : a.invoke e args >>= (Adapter.unhold e : _ → Program κ _)
      = Program.op (.ask a.bound (.bound .isFunction)) >>= fun yes =>
          (if yes then Program.toNatives e a.registry args >>= fun ns =>
              Program.owningAll ns ((Program.unlocked e (Program.invoked a.bound none ns)).bind
                (a.conclude e .function))
            else Except.ok <$> ScriptValue.adopt e .undefined) >>= Adapter.unhold e :=
    Program.bind_assoc _ _ _
  have hsaid : (b.machine depth).eval (Program.op (.ask a.bound (.bound .isFunction))) []
      (w.asking e host (.call args)) = .ok (true, []) w₀ := eval_op_eq_ok.2 ⟨rfl, hfunction⟩
  show (b.machine depth).run (a.invoke e args >>= Adapter.unhold e) []
    (w.asking e host (.call args)) = _
  rw [hcalls]
  refine (run_bind_of_eval hsaid).trans ?_
  exact congrArg (fun p => (b.machine depth).run p [] w₀) (Program.bind_assoc _ _ _)

/-- **Failures of host methods surface** once the adapter has found the method. -/
theorem failureSurfaces_of_methodsNamed (b : Behaviour κ) (depth : Nat) (hw : w.Reachable)
    {k t : Handle} {expandos : Properties Value} {ms : List Descriptor} (this : Value)
    (hk : (w.engine e).heap.get? k = some (.hostMethod t name))
    (ht : (w.engine e).heap.get? t = some (.host host expandos))
    (hn : w.native? host = some (.adapter a)) (hl : (w.engine e).loan = .none)
    (hfound : (b.machine depth).run (Adapter.methodsNamed host a e name) []
      ((w.entered e host (.object k :: this :: args)).asking e host (.invokeMethod name args))
        = .ok ms w₀) (hms : ms ≠ []) :
    b.FailureSurfaces depth e host a (some name) args
      ((b.machine (depth + 1)).call e (.object k) this args).run w w₀ := by
  have hread : (w.engine e).loan.allowsRead = true := by
    rw [hl]
    rfl
  have hentered : (w.entered e host (.object k :: this :: args)).Reachable :=
    hw.trans (reaches_entered w e host _)
  have hasking : ((w.entered e host (.object k :: this :: args)).asking e host
      (.invokeMethod name args)).Reachable := hentered.tail (.move (.recorded trivial))
  -- the adapter runs a program until it has found the method
  have hx := (b.roams depth).run (Adapter.methodsNamed host a e name) [] hasking.sound
  rw [after_of_ok hfound] at hx
  have hadapter : (w.entered e host (.object k :: this :: args)).native? host
      = some (.adapter a) := (World.native?_modifyOwners _ host _ host).trans hn
  obtain ⟨cls, hn₀⟩ : ∃ cls, w₀.native? host = some (.adapter { a with cls := cls }) :=
    (World.retains_of_reaches hx.reaches).adapter hadapter
  have hloan : (w₀.engine e).loan = .none := by
    rw [(hx.engine e).2]
    show ((w.entered e host _).engine e).loan = _
    rw [World.engine_entered, if_pos rfl, ← hl]
  have hcall : World.Excursion True w
      (((b.machine (depth + 1)).call e (.object k) this args).run.after w) :=
    (b.roams (depth + 1)).perform (.call e (.object k) this args) hw.sound
  refine failureSurfaces_of_called (a := { a with cls := cls }) b depth hw
    (hasking.trans hx.reaches) hloan hn₀ ((w.relock e Lock.take).engine e).roots.height hcall
    fun x w₄ w₅ hrun hrelease => ?_
  rw [call_hostMethod hk ht, if_pos hread]
  exact locked_eq_ok.2 ⟨_, pinning_eq_ok.2 ⟨w₅, sharing_eq_ok.2 ⟨w₄,
    (askHost_of_methodsNamed hentered hadapter hfound hms).trans hrun, hrelease⟩, rfl⟩, rfl⟩

/-- **Failures of wrappers that are called surface** once the bound object has said twice that
it is a function. -/
theorem failureSurfaces_of_isFunction (b : Behaviour κ) (depth : Nat) (hw : w.Reachable)
    {t : Handle} (this : Value) (hn : w.native? host = some (.adapter a))
    (hl : (w.engine e).loan = .none)
    (htarget : ((b.machine (depth + 1)).callTarget e (.object t)).run
      ((w.relock e Lock.take).push e (.object t :: this :: args)) = .ok (.ok (.host host)) w₁)
    (hfunction : (b.machine depth).request a.bound (.bound .isFunction)
      ((w₁.modifyOwners host (· + 1)).asking e host (.call args)) = .ok true w₀) :
    b.FailureSurfaces depth e host a none args
      ((b.machine (depth + 1)).call e (.object t) this args).run w w₀ := by
  have hpushed : ((w.relock e Lock.take).push e (.object t :: this :: args)).Reachable :=
    hw.trans (.head (.move (.relocked True w e Lock.take)) (.single (.pushed e _)))
  have hx₁ := (b.roams (depth + 1)).callTarget e (.object t) hpushed.sound
  rw [after_of_ok htarget] at hx₁
  have hasking : ((w₁.modifyOwners host (· + 1)).asking e host (.call args)).Reachable :=
    ((hpushed.trans hx₁.reaches).tail (.move (.aside (.modifyOwners w₁ host _)))).tail
      (.move (.recorded trivial))
  have hx := (b.roams depth).request a.bound (.bound .isFunction) hasking.sound
  rw [after_of_ok hfunction] at hx
  -- whatever the bound object did when it was asked, the adapter is still its adapter
  obtain ⟨cls, hn₁⟩ : ∃ cls, w₁.native? host = some (.adapter { a with cls := cls }) :=
    (World.retains_of_reaches hx₁.reaches).adapter hn
  have hadapter : (w₁.modifyOwners host (· + 1)).native? host
      = some (.adapter { a with cls := cls }) :=
    (World.native?_modifyOwners _ host _ host).trans hn₁
  obtain ⟨cls', hn₀⟩ : ∃ cls', w₀.native? host = some (.adapter { a with cls := cls' }) :=
    (World.retains_of_reaches hx.reaches).adapter (a := { a with cls := cls }) hadapter
  have hloan : (w₀.engine e).loan = .none := by
    rw [(hx.engine e).2]
    show ((w₁.modifyOwners host (· + 1)).engine e).loan = _
    rw [World.engine_modifyOwners, (hx₁.engine e).2, World.push, World.engine_modifyEngine_self,
      World.relock, World.engine_modifyEngine_self, ← hl]
  have hcall : World.Excursion True w
      (((b.machine (depth + 1)).call e (.object t) this args).run.after w) :=
    (b.roams (depth + 1)).perform (.call e (.object t) this args) hw.sound
  refine failureSurfaces_of_called (a := { a with cls := cls' }) b depth hw
    (hasking.trans hx.reaches) hloan hn₀ ((w.relock e Lock.take).engine e).roots.height hcall
    fun x w₄ w₅ hrun hrelease => ?_
  exact locked_eq_ok.2 ⟨_, pinning_eq_ok.2 ⟨_, (andThen_of_ok htarget).trans
    (sharing_eq_ok.2 ⟨w₄, (askHost_of_isFunction hadapter hfunction).trans hrun, hrelease⟩),
    rfl⟩, rfl⟩

end Behaviour

/-- **What a call has taken when it asks the host**: a level of the lock, the pins and a share
of the host. -/
theorem World.engine_asking_entered (w : World κ) (e : EngineId) (host : NativeId)
    (vs : List Value) (r : HostRequest) :
    (((w.entered e host vs).asking e host r).engine e).lock = (w.engine e).lock.take
      ∧ (∀ e', ((w.entered e host vs).asking e host r).reported e' = w.reported e')
      ∧ (∀ e', (((w.entered e host vs).asking e host r).engine e').roots.persistent
        = (w.engine e').roots.persistent)
      ∧ (w.Tidy → ((w.entered e host vs).asking e host r).Tidy) := by
  have hengine : ∀ e', ((w.entered e host vs).asking e host r).engine e'
      = if e = e' then { w.engine e with
          lock := (w.engine e).lock.take, roots := (w.engine e).roots.push vs }
        else w.engine e' := fun e' => World.engine_entered w e host vs e'
  refine ⟨by rw [hengine, if_pos rfl], fun e' => ?_, fun e' => ?_,
    fun hy => ((((hy.modifyEngine e _).retain host).modifyEngine e _).record _)⟩
  · rw [World.reported, hengine, World.reported]
    split
    · next he => rw [he]
    · rfl
  · rw [hengine]
    split
    · next he => rw [he]; rfl
    · rfl

/-! ## The result -/

/-- **Failures of bound objects become script errors.** Let a wrapper have an adapter as its
host, in an engine whose heap is not lent out. A host method of the wrapper is called, and
the adapter finds the method; or the wrapper itself is called, and its bound object says
twice that it is a function. Then the arguments are converted, and if the bound object
fails when it is invoked, with whatever failure, the call comes to an error object that is
new, with the name `Error` and a message that says what was invoked, and with no other
property; or to the failure to put it into the heap, if that is full when the bound object
has failed. Nothing is reported on the way, stacks and the lock are as they were, and of
roots there is left what the bound object kept.

A method whose name the class remembers, as it does of each method that was read off a
wrapper, is found without asking anybody; until its arguments are converted, the level of
the lock, the pins and the share of the adapter are all that the call has taken. And where
natives drop the guards that they take, no call leaves a lock otherwise than it found it. -/
theorem Behaviour.failures_surface (b : Behaviour κ) (depth : Nat) (hw : w.Reachable)
    {t : Handle} {expandos : Properties Value}
    (ht : (w.engine e).heap.get? t = some (.host host expandos))
    (hn : w.native? host = some (.adapter a)) (hl : (w.engine e).loan = .none) :
    (∀ (k : Handle) (name : String) (this : Value) (args : List Value) (ms : List Descriptor)
        (w₀ : World κ), (w.engine e).heap.get? k = some (.hostMethod t name) →
        (b.machine depth).run (Adapter.methodsNamed host a e name) []
            ((w.entered e host (.object k :: this :: args)).asking e host
              (.invokeMethod name args)) = .ok ms w₀ → ms ≠ [] →
        b.FailureSurfaces depth e host a (some name) args
          ((b.machine (depth + 1)).call e (.object k) this args).run w w₀)
      ∧ (∀ (this : Value) (args : List Value) (w₁ w₀ : World κ),
        ((b.machine (depth + 1)).callTarget e (.object t)).run
            ((w.relock e Lock.take).push e (.object t :: this :: args))
          = .ok (.ok (.host host)) w₁ →
        (b.machine depth).request a.bound (.bound .isFunction)
            ((w₁.modifyOwners host (· + 1)).asking e host (.call args)) = .ok true w₀ →
        b.FailureSurfaces depth e host a none args
          ((b.machine (depth + 1)).call e (.object t) this args).run w w₀)
      ∧ (∀ (c : ClassId) (d : Descriptor) (name : String) (args vs : List Value)
        (w₀ : World κ), a.cls = some c → w.recalls? c .method name = some d →
        w₀ = (w.entered e host vs).asking e host (.invokeMethod name args) →
        (b.machine depth).run (Adapter.methodsNamed host a e name) [] w₀ = .ok [d] w₀
          ∧ (w₀.engine e).lock = (w.engine e).lock.take
          ∧ (∀ e', w₀.reported e' = w.reported e')
          ∧ (∀ e', (w₀.engine e').roots.persistent = (w.engine e').roots.persistent)
          ∧ (w.Tidy → w₀.Tidy))
      ∧ (b.Orderly e → ∀ (callee this : Value) (args : List Value),
        (((((b.machine (depth + 1)).call e callee this args).run.after w).engine e).lock
          = (w.engine e).lock)) := by
  refine ⟨fun k name this args ms w₀ hk hfound hms =>
      b.failureSurfaces_of_methodsNamed depth hw this hk ht hn hl hfound hms,
    fun this args w₁ w₀ htarget hfunction =>
      b.failureSurfaces_of_isFunction depth hw this hn hl htarget hfunction,
    fun c d name args vs w₀ hc hd hw₀ => ?_, fun hb callee this args => ?_⟩
  · subst hw₀
    have hadapter : ((w.entered e host vs).asking e host (.invokeMethod name args)).native? host
        = some (.adapter a) := (World.native?_modifyOwners _ host _ host).trans hn
    exact ⟨run_eq_ok.2 ⟨[], _, eval_methodsNamed _ hadapter hc hd [], rfl⟩,
      World.engine_asking_entered w e host vs _⟩
  · have htracks := hb.tracks b (depth + 1)
    have hlock := (htracks.perform (.call e callee this args)
      (Terrain.allows_watching (Op.keeps_of_ne (by simp) (by simp))) hw.sound).2.2 e rfl
    rwa [b.diverted_self e] at hlock

/-- Bound objects that are functions and have every method, and fail whenever they are
invoked. -/
def Behaviour.clumsy : Behaviour Unit where
  answer _ _
    | .bound (.hasMethod _) | .bound .isFunction => .done true
    | .bound (.hasProperty _) => .done false
    | .bound (.invokeMethod _ _) => .done (.error (.invocationFailed "dropped"))
    | .bound (.invoke _) => .done (.error .notCallable)
    | _ => .panic .noAnswer
  finaliser _ := .done ()

/-- The world in which such an object is exposed, and a method was read off its wrapper. -/
def World.clumsy : World Unit :=
  ((Behaviour.clumsy.machine 3).run (do
    let bound ← Program.op (.spawn (.custom ()))
    let registry ← Program.op (.newRegistry 1)
    let _ ← Program.expose ⟨0⟩ registry bound
    let _ ← Program.op (.createObject ⟨0⟩)
    Program.op (.get ⟨0⟩ (.object ⟨0, 0⟩) "f")) []).after {}

/-- A method of such an object throws when it is called, and so does the object itself. -/
theorem Behaviour.failures_surface_clumsy :
    (∃ h w', ((clumsy.machine 4).call ⟨0⟩ (.object ⟨2, 0⟩) .undefined
        [.object ⟨0, 0⟩, .object ⟨1, 0⟩]).run World.clumsy
          = .ok (.error (.exception (.object h))) w'
        ∧ (w'.engine ⟨0⟩).heap.get? h = some (.plain ⟨[("name", .string "Error"),
            ("message", .string "error invoking method 'f'")]⟩)
        ∧ (w'.engine ⟨0⟩).lock = (World.clumsy.engine ⟨0⟩).lock)
      ∧ ∃ h w', ((clumsy.machine 4).call ⟨0⟩ (.object ⟨0, 0⟩) .undefined
          [.object ⟨0, 0⟩, .object ⟨1, 0⟩]).run World.clumsy
            = .ok (.error (.exception (.object h))) w'
        ∧ (w'.engine ⟨0⟩).heap.get? h = some (.plain ⟨[("name", .string "Error"),
            ("message", .string "error invoking object as function")]⟩)
        ∧ (w'.engine ⟨0⟩).lock = (World.clumsy.engine ⟨0⟩).lock := by
  have hw : World.clumsy.Reachable := (clumsy.reachable_run 3 _ [] .refl).1
  obtain ⟨hmethod, hfunction, hremembered, hkept⟩ := clumsy.failures_surface 3 hw (e := ⟨0⟩)
    (t := ⟨0, 0⟩) (a := ⟨⟨0⟩, ⟨0⟩, some ⟨0⟩⟩) (by decide +kernel :
      (World.clumsy.engine ⟨0⟩).heap.get? ⟨0, 0⟩ = some (.host ⟨1⟩ .empty))
    (World.native?_of_adapter? (by decide +kernel)) (by decide +kernel)
  have horderly : clumsy.Orderly ⟨0⟩ := by
    refine ⟨fun id state r => ?_, fun state => .done ()⟩
    simp only [clumsy]
    split <;> constructor
  constructor
  · obtain ⟨d, hd⟩ : ∃ d, World.clumsy.recalls? ⟨0⟩ .method "f" = some d :=
      Option.isSome_iff_exists.1 (by decide +kernel)
    obtain ⟨hfound, -⟩ := hremembered ⟨0⟩ d "f" [.object ⟨0, 0⟩, .object ⟨1, 0⟩] _ _ rfl hd rfl
    obtain ⟨h, w', hcall, herror, -⟩ := (hmethod ⟨2, 0⟩ "f" .undefined _ _ _ (by decide +kernel)
      hfound (List.cons_ne_nil d [])).exists_thrown (by decide +kernel)
    refine ⟨h, w', hcall, herror, ?_⟩
    rw [← hkept horderly (.object ⟨2, 0⟩) .undefined [.object ⟨0, 0⟩, .object ⟨1, 0⟩],
      after_of_ok hcall]
  · -- the object says that it is a function when it is looked up, and when it is called
    have hasked : ((clumsy.machine 4).callTarget ⟨0⟩ (.object ⟨0, 0⟩)).run.finishes
        ((World.clumsy.relock ⟨0⟩ Lock.take).push ⟨0⟩
          [.object ⟨0, 0⟩, .undefined, .object ⟨0, 0⟩, .object ⟨1, 0⟩])
        (fun r w₁ => decide (r.toOption = some (.host ⟨1⟩))
          && ((clumsy.machine 3).request ⟨0⟩ (.bound .isFunction)).finishes
            ((w₁.modifyOwners ⟨1⟩ (· + 1)).asking ⟨0⟩ ⟨1⟩
              (.call [.object ⟨0, 0⟩, .object ⟨1, 0⟩]))
            fun yes w₀ => yes && clumsy.failsWithRoom 3 ⟨0⟩ ⟨1⟩ ⟨⟨0⟩, ⟨0⟩, some ⟨0⟩⟩ none
              [.object ⟨0, 0⟩, .object ⟨1, 0⟩] w₀) = true := by decide +kernel
    obtain ⟨r, w₁, htarget, htest⟩ := exists_of_finishes hasked
    obtain ⟨hhost, hrest⟩ := (Bool.and_eq_true _ _).mp htest
    obtain rfl : r = .ok (.host ⟨1⟩) := by cases r <;> simp_all [Except.toOption]
    obtain ⟨yes, w₀, hsaid, htest⟩ := exists_of_finishes hrest
    obtain ⟨rfl, hfails⟩ := (Bool.and_eq_true _ _).mp htest
    obtain ⟨h, w', hcall, herror, -⟩ :=
      (hfunction .undefined _ w₁ w₀ htarget hsaid).exists_thrown hfails
    refine ⟨h, w', hcall, herror, ?_⟩
    rw [← hkept horderly (.object ⟨0, 0⟩) .undefined [.object ⟨0, 0⟩, .object ⟨1, 0⟩],
      after_of_ok hcall]

end EmbeddedScript
