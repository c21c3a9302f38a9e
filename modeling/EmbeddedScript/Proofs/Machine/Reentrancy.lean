import EmbeddedScript.Proofs.Machine.Running
import EmbeddedScript.Proofs.Machine.Wrappers

/-!
# Operations that run hosts

Five operations ask the host of a wrapper on the wrapper's behalf and then go on with
the bare handles they were given: reading and writing a property, listing the names,
converting to a primitive and calling. While the host runs it may do anything that
native code can, collecting included, and none of the handles need be rooted.

What protects them is that the operation has pinned its operands: **they are the
objects that they were, whenever a callback begins or ends** (`HostedOp.perform_agrees`).
From that it follows that none of these operations finds its own target stale
(`HostedOp.perform_ne_staleHandle`), that a name which the host declines is written into
the wrapper (`Machine.set_of_declined`), and that a host method that is read has a
wrapper.
-/

namespace EmbeddedScript

open World (Excursion Move)

variable {κ α : Type}

/-! ## The operations -/

/-- **An operation that asks a host** on behalf of its wrapper, or of a host method of
it. -/
inductive HostedOp : Type → Type
  /-- Read a property. -/
  | get (name : String) : HostedOp Value
  /-- Write a property. -/
  | set (name : String) (value : Value) : HostedOp Unit
  /-- List the names. -/
  | names : HostedOp (List String)
  /-- Convert to a primitive. -/
  | toPrimitive (hint : Hint) : HostedOp Value
  /-- Call, with this receiver and these arguments. -/
  | call (this : Value) (args : List Value) : HostedOp Value

namespace HostedOp

/-- Perform the operation on a target. -/
def perform (m : Machine κ) (e : EngineId) (target : Value) :
    HostedOp α → Act κ (Except EngineError α)
  | get name => (m.get e target name).run
  | set name value => (m.set e target name value).run
  | names => (m.names e target).run
  | toPrimitive hint => (m.toPrimitive e target hint).run
  | call this args => (m.call e target this args).run

/-- The values that the operation works on. -/
def operands (target : Value) : HostedOp α → List Value
  | set _ value => [target, value]
  | call this args => target :: this :: args
  | _ => [target]

/-- The target is a host wrapper, or may be a host method when it is called. -/
def Accepts (heap : Heap) (h : Handle) : HostedOp α → Prop
  | call _ _ => heap.IsHost h ∨ ∃ wrapper, heap.IsMethodOf h wrapper
  | _ => heap.IsHost h

end HostedOp

/-- **The operands are the objects that they were**: among some values, the objects that
were live, and the wrappers of the host methods. -/
def World.Keeps (w : World κ) (e : EngineId) (vs : List Value) (w' : World κ) : Prop :=
  ∀ h, (Value.object h ∈ vs ∨ ∃ k, Value.object k ∈ vs ∧ (w.engine e).heap.IsMethodOf k h) →
    ∀ i, w.identity? e h = some i → w'.identity? e h = some i

/-- Where operands are pinned they are kept. -/
theorem Terrain.keeps_of_pinned {T : Terrain κ} {w w' : World κ} {e : EngineId}
    {vs : List Value} (hw : (T.pinned w e vs).Holds w') : w.Keeps e vs w' := by
  rintro h (hv | ⟨k, hv, hm⟩) i hi
  · exact Terrain.identity?_of_pinned hw hv hi
  · refine (hw.2 h (.inr ⟨k, ?_, by rwa [World.heap_push]⟩)).2 i hi
    rw [World.push, World.engine_modifyEngine_self]
    simp only [RootSet.push, Array.mem_append, List.mem_toArray, List.mem_filterMap]
    exact .inr ⟨_, hv, rfl⟩

namespace HostedOp

variable {m m' : Machine κ} {w : World κ} {e : EngineId} {h : Handle}

/-- **Callbacks begin and end with the operands as they were**: on any machine that runs
natives alike where they do, the operation comes out the same. -/
theorem perform_agrees (hm : m.Roams) (op : HostedOp α) (hw : w.Sound)
    (ht : op.Accepts (w.engine e).heap h)
    (ha : m.Agrees m' (fun w₁ w₂ => w.Keeps e (op.operands (.object h)) w₁
      ∧ w.Keeps e (op.operands (.object h)) w₂) fun _ _ => True) :
    op.perform m' e (.object h) w = op.perform m e (.object h) w := by
  have hfinal : ∀ n w, Act.Tracks (.everywhere κ) (m.finalise n) (m'.finalise n) w :=
    fun n w hw => ⟨ha.finalise n w trivial, ((hm.tracks .everywhere).finalise n w hw).2⟩
  have hrelease : ∀ id w, Act.Tracks (.everywhere κ) (m.release id) (m'.release id) w :=
    fun id w => Machine.tracks_release hfinal
  have hpinned : Machine.Tracks ((Terrain.everywhere κ).pinned w e (op.operands (.object h)))
      m m' :=
    (hm.tracks_pinned _ _ _).of_agrees ha
      (fun _ _ hw₁ hw₂ => ⟨Terrain.keeps_of_pinned hw₁, Terrain.keeps_of_pinned hw₂⟩)
      fun _ _ _ _ => trivial
  cases op with
  | get name => exact (Machine.Tracks.get hrelease hpinned name hw).1
  | set name value => exact (Machine.Tracks.set hrelease hpinned name hw).1
  | names => exact (Machine.Tracks.names hrelease hpinned hw).1
  | toPrimitive hint =>
    refine (Machine.Tracks.toPrimitive hrelease hpinned (fun hn => ?_) hint hw).1
    exact absurd ht (hn h rfl)
  | call this args => exact (Machine.Tracks.call hpinned hw).1

end HostedOp

/-! ## Stale targets -/

/-- The error that a native answered with. -/
def Request.error? : (r : Request) → r.Reply → Option EngineError
  | .run .., .error err => some err
  | .host _ (.getProperty _), .error err => some err
  | .host _ (.setProperty _ _), .error err => some err
  | .host _ (.invokeMethod _ _), .error err => some err
  | .host _ (.call _), .error err => some err
  | .host _ (.toPrimitive _), .error err => some err
  | _, _ => none

/-- **The operation does not fail with this error** in a world of the terrain. -/
def Act.Avoids (T : Terrain κ) (err : EngineError) (a : Act κ (Except EngineError α))
    (w : World κ) : Prop :=
  T.Holds w → ∀ w', a w ≠ .ok (.error err) w'

namespace Act

variable {T : Terrain κ} {err : EngineError} {w : World κ} {e : EngineId} {β : Type}

theorem Avoids.return (x : α) : Avoids T err (Pure.pure x : Attempt κ α).run w :=
  fun _ _ h => absurd (pure_eq_ok.1 h).1 (by simp)

theorem Avoids.attempt (a : Act κ α) : Avoids T err (Act.attempt a).run w := by
  intro _ w' h
  obtain ⟨_, -, h⟩ := attempt_eq_ok.1 h
  simp at h

theorem Avoids.andThen {x : Attempt κ α} {f : α → Attempt κ β} (ht : Tracks T x.run x.run w)
    (hx : Avoids T err x.run w)
    (hf : ∀ b w₁, x.run w = .ok (.ok b) w₁ → T.Holds w₁ → Avoids T err (f b).run w₁) :
    Avoids T err (x >>= f).run w := by
  intro hw w' h
  rcases andThen_eq_error.1 h with h | ⟨b, w₁, hb, h⟩
  · exact hx hw w' h
  · have hw₁ := T.after hw (after_of_ok hb ▸ (ht hw).2.1)
    exact hf b w₁ hb hw₁ hw₁ w' h

/-- What an action does in a changed world is what it does. -/
theorem Avoids.within {T' : Terrain κ} {enter exit : World κ → World κ}
    {a : Act κ (Except EngineError α)} (hT : T.Holds w → T'.Holds (enter w))
    (ha : Avoids T' err a (enter w)) : Avoids T err (Act.within enter exit a) w := by
  intro hw w' h
  obtain ⟨w₁, h, -⟩ := within_eq_ok.1 h
  exact ha (hT hw) w₁ h

theorem Avoids.locked {a : Act κ (Except EngineError α)}
    (ha : Avoids T err a (w.modifyEngine e fun s => { s with lock := s.lock.take })) :
    Avoids T err (Act.locked e a) w :=
  Avoids.within (fun hw => T.take hw e) ha

theorem Avoids.pinning (w₀ : World κ) {vs : List Value} {a : Act κ (Except EngineError α)}
    (he : (w.engine e).heap = (w₀.engine e).heap ∧ (w.engine e).roots = (w₀.engine e).roots)
    (ha : Avoids (T.pinned w₀ e vs) err a (w.push e vs)) :
    Avoids T err (Act.pinning e vs a) w := by
  intro hw w' h
  change Act.within (fun w => w.push e vs)
    (fun w' => w'.truncate e (w.engine e).roots.height) a w = _ at h
  obtain ⟨w₁, h, -⟩ := within_eq_ok.1 h
  exact ha (T.holds_pinned_push vs hw he) w₁ h

theorem Avoids.sharing {m : Machine κ} {id : NativeId} {a : Act κ (Except EngineError α)}
    (ha : Avoids T err a (w.modifyOwners id (· + 1))) :
    Avoids T err (m.sharing id a) w := by
  intro hw w' h
  obtain ⟨w₁, h, -⟩ := ensuring_eq_ok.1 h
  exact ha (T.modifyOwners hw id _) w₁ h

/-- Reading an object that is there. -/
theorem Avoids.object {h : Handle} (hl : T.Holds w → (w.engine e).heap.isLive h = true) :
    Avoids T err (Act.object e h).run w := by
  intro hw w' hr
  obtain ⟨ho, -⟩ := eq_of_readHeap (f := (Heap.get · h)) hr
  obtain ⟨i, hi⟩ := Heap.isLive_iff_exists_identity?.1 (hl hw)
  obtain ⟨o, hg, -⟩ := Heap.exists_get?_of_identity? hi
  rw [Heap.get_eq_ok_iff.2 hg] at ho
  simp at ho

end Act

namespace Machine

open Act

variable {T : Terrain κ} {err : EngineError} {m : Machine κ} {w : World κ} {e : EngineId}
  {id : NativeId}

/-- **An allocation fails for want of room only.** -/
theorem eq_heapLimit_of_allocate {o : HeapObject} {w' : World κ}
    (h : (m.allocate e o).run w = .ok (.error err) w') : ∃ n, err = .heapLimit n := by
  obtain ⟨r, w₁, hr, h⟩ := bind_eq_ok.1 h
  obtain ⟨hr, -⟩ := eq_of_writeHeap hr
  cases r with
  | ok k => exact absurd (pure_eq_ok.1 h).1 (by simp)
  | error err' =>
    obtain ⟨u, w₂, -, h⟩ := bind_eq_ok.1 h
    obtain rfl := Except.error.inj (pure_eq_ok.1 h).1
    exact Heap.eq_heapLimit_of_refusal (refusal?_of_offer hr.symm)

/-- **No native that is asked in such a world answers with this error.** -/
def NeverAnswers (m : Machine κ) (P : World κ → Prop) (err : EngineError) : Prop :=
  ∀ id (r : Request) w a w', P w → m.ask id r w = .ok a w' → r.error? a ≠ some err

/-- Going on record before it is asked does not change what a native answers. -/
theorem NeverAnswers.request (hn : m.NeverAnswers T.Holds err) (hw : T.Holds w) {r : Request}
    {a : r.Reply} {w' : World κ} (h : m.request id r w = .ok a w') : r.error? a ≠ some err := by
  obtain ⟨_, w₁, hrecord, h⟩ := bind_eq_ok.1 h
  obtain rfl : w.record (.asked id r w.postures) = w₁ := by simpa [Act.update] using hrecord
  have hn₀ : (Event.asked id r w.postures).IsNoPin := trivial
  have hmove : Move True w (w.record (.asked id r w.postures)) := .recorded hn₀
  exact hn _ _ _ _ _ (T.move hw hmove) h

theorem avoids_get (hm : m.Roams) {h : Handle}
    (hn : m.NeverAnswers ((Terrain.everywhere κ).pinned w e [.object h]).Holds err)
    (herr : ∀ n, err ≠ .heapLimit n) (ht : (w.engine e).heap.IsHost h) (name : String) :
    Avoids (.everywhere κ) err (m.get e (.object h) name).run w := by
  have htracks : Machine.Tracks ((Terrain.everywhere κ).pinned w e [.object h]) m m :=
    hm.tracks_pinned _ _ _
  obtain ⟨b, host, hi⟩ := ht
  refine .locked (.andThen (.expectHandle _) (.return _) fun k w₁ hk hw₁ => ?_)
  obtain ⟨hv, rfl⟩ := eq_of_expectHandle hk
  obtain rfl := Value.object.inj hv
  refine .andThen (.object h) (.object fun _ => ?_) fun o w₂ ho hw₂ => ?_
  · exact Heap.isLive_iff_exists_identity?.2 ⟨_, by simpa [World.identity?] using hi⟩
  obtain ⟨rfl, -⟩ := World.identity?_of_object ho
  cases o with
  | host host expandos =>
    refine .sharing (.pinning w (by simp) ?_)
    refine .andThen (htracks.askHost _) (fun hw w' h => hn.request hw h rfl) fun r w₃ _ _ => ?_
    rcases r with - | v
    · refine .andThen (.attempt (htracks.askHost _)) (.attempt _) fun isMethod w₄ _ _ => ?_
      split
      · intro _ w' hr
        obtain ⟨n, hn⟩ := eq_heapLimit_of_allocate hr
        exact herr n hn
      · refine .andThen (.object h) (.object fun hw => ?_) fun o _ _ _ => ?_
        · exact Heap.isLive_iff_exists_identity?.2
            ⟨_, Terrain.identity?_of_pinned hw (by simp) hi⟩
        · cases o <;> exact .return _
    · exact .return _
  | _ => exact .return _

theorem avoids_set (hm : m.Roams) {h : Handle} {value : Value}
    (hn : m.NeverAnswers ((Terrain.everywhere κ).pinned w e [.object h, value]).Holds err)
    (ht : (w.engine e).heap.IsHost h) (name : String) :
    Avoids (.everywhere κ) err (m.set e (.object h) name value).run w := by
  have htracks : Machine.Tracks ((Terrain.everywhere κ).pinned w e [.object h, value]) m m :=
    hm.tracks_pinned _ _ _
  obtain ⟨b, host, hi⟩ := ht
  obtain ⟨expandos, hg⟩ := Heap.get?_of_host hi
  refine .locked (.andThen (.expectHandle _) (.return _) fun k w₁ hk hw₁ => ?_)
  obtain ⟨hv, rfl⟩ := eq_of_expectHandle hk
  obtain rfl := Value.object.inj hv
  have hstore : ∀ {r : Except EngineError (Option NativeId)} {w' : World κ},
      storeHeap e [value] storedOwn (storeOwn h name value)
        (w.modifyEngine e fun s => { s with lock := s.lock.take }) = .ok r w' →
      r = .ok (some host) ∧ (w'.engine e).heap = (w.engine e).heap
        ∧ (w'.engine e).roots = (w.engine e).roots := fun {r w'} hr => by
    obtain ⟨-, hr, hsame⟩ := eq_of_storeHeap hr
    obtain rfl : r = .ok (some host) := by simpa [storeOwn_host hg] using hr
    obtain rfl := hsame rfl
    simp [storeOwn_host hg]
  refine .andThen (tracks_storeOwn h name value) (fun _ w' hr => ?_) fun r w₂ hr _ => ?_
  · exact absurd (hstore hr).1 (by simp)
  obtain ⟨hr, he⟩ := hstore hr
  obtain rfl := Except.ok.inj hr
  refine .sharing (.pinning w he ?_)
  refine .andThen (htracks.askHost _) (fun hw w' h => hn.request hw h rfl) fun taken w₃ _ _ => ?_
  split
  · exact .return _
  · intro hw₃ w' hr
    obtain ⟨-, hr, -⟩ := eq_of_storeHeap (f := storeExpando h name value) hr
    obtain ⟨expandos, hg⟩ := Heap.get?_of_host
      (Terrain.identity?_of_pinned hw₃ (by simp) hi)
    simp [storeExpando_host hg] at hr

theorem avoids_names (hm : m.Roams) {h : Handle} (ht : (w.engine e).heap.IsHost h) :
    Avoids (.everywhere κ) err (m.names e (.object h)).run w := by
  have htracks : Machine.Tracks ((Terrain.everywhere κ).pinned w e [.object h]) m m :=
    hm.tracks_pinned _ _ _
  obtain ⟨b, host, hi⟩ := ht
  refine .locked (.andThen (.expectHandle _) (.return _) fun k w₁ hk hw₁ => ?_)
  obtain ⟨hv, rfl⟩ := eq_of_expectHandle hk
  obtain rfl := Value.object.inj hv
  refine .andThen (.object h) (.object fun _ => ?_) fun o w₂ ho hw₂ => ?_
  · exact Heap.isLive_iff_exists_identity?.2 ⟨_, by simpa [World.identity?] using hi⟩
  obtain ⟨rfl, -⟩ := World.identity?_of_object ho
  cases o with
  | host host expandos =>
    refine .sharing (.pinning w (by simp) ?_)
    refine .andThen (.attempt (htracks.askHost _)) (.attempt _) fun contributed w₃ _ _ => ?_
    refine .andThen (.object h) (.object fun hw => ?_) fun o _ _ _ => ?_
    · exact Heap.isLive_iff_exists_identity?.2
        ⟨_, Terrain.identity?_of_pinned hw (by simp) hi⟩
    · cases o <;> exact .return _
  | _ => exact .return _

theorem avoids_toPrimitive {h : Handle}
    (hn : m.NeverAnswers ((Terrain.everywhere κ).pinned w e [.object h]).Holds err)
    (ht : (w.engine e).heap.IsHost h) (hint : Hint) :
    Avoids (.everywhere κ) err (m.toPrimitive e (.object h) hint).run w := by
  refine .locked (.andThen (.attempt (Tracks.host? _)) (.attempt _) fun r w₁ hr _ => ?_)
  obtain ⟨r, hr, hok⟩ := attempt_eq_ok.1 hr
  obtain rfl := Except.ok.inj hok
  obtain ⟨rfl, hnone⟩ := eq_of_host? hr
  cases r with
  | some id =>
    exact .sharing (.pinning w (by simp) fun hw w' h => hn.request hw h rfl)
  | none => exact absurd (by simpa using ht) (hnone rfl h rfl)

/-- What a call resolves to a host method is a host method. -/
theorem isMethodOf_of_callTarget {h wrapper : Handle} {name : String} {w' : World κ}
    (hr : (m.callTarget e (.object h)).run w = .ok (.ok (.hostMethod wrapper name)) w') :
    (w'.engine e).heap.IsMethodOf h wrapper := by
  obtain ⟨o, w₁, ho, hr⟩ := andThen_eq_ok.1 hr
  obtain ⟨rfl, b, hi⟩ := World.identity?_of_object ho
  cases o with
  | hostMethod wrapper' name' =>
    obtain ⟨hv, rfl⟩ := pure_eq_ok.1 hr
    obtain ⟨rfl, rfl⟩ : wrapper' = wrapper ∧ name' = name := by simpa using hv
    exact ⟨b, name', hi⟩
  | host id expandos =>
    obtain ⟨callable, w₂, -, hr⟩ := andThen_eq_ok.1 hr
    have := (pure_eq_ok.1 hr).1
    split at this <;> simp at this
  | _ => simpa using (pure_eq_ok.1 hr).1

/-- Building an error does not find a handle stale. -/
theorem raise_ne_staleHandle {cls : ThrownClass} {message : String} {h : Handle} {w' : World κ} :
    m.raise e cls message w ≠ .ok (.staleHandle h) w' := by
  intro hraise
  obtain ⟨r, w₁, hr, hf⟩ := bind_eq_ok.1 hraise
  cases r with
  | ok v => exact absurd (pure_eq_ok.1 hf).1 (by simp)
  | error err =>
    obtain ⟨rfl, -⟩ := pure_eq_ok.1 hf
    obtain ⟨n, hn⟩ := eq_heapLimit_of_allocate hr
    simp at hn

theorem avoids_call (hm : m.Roams) {t h : Handle} {this : Value} {args : List Value}
    (hn : m.NeverAnswers ((Terrain.everywhere κ).pinned w e (.object h :: this :: args)).Holds
      (.staleHandle t))
    (ht : (w.engine e).heap.isLive h = true) :
    Avoids (.everywhere κ) (.staleHandle t) (m.call e (.object h) this args).run w := by
  have htracks : Machine.Tracks
      ((Terrain.everywhere κ).pinned w e (.object h :: this :: args)) m m :=
    hm.tracks_pinned _ _ _
  obtain ⟨i, hi⟩ := Heap.isLive_iff_exists_identity?.1 ht
  refine .locked (.pinning w ⟨by simp, by simp⟩ ?_)
  refine .andThen (htracks.callTarget _) ?_ fun target w₁ hr hw₁ => ?_
  · refine .andThen (.object h) (.object fun hw => ?_) fun o w₂ ho hw₂ => ?_
    · exact Heap.isLive_iff_exists_identity?.2
        ⟨_, Terrain.identity?_of_pinned hw (by simp) hi⟩
    · cases o with
      | host id expandos =>
        exact .andThen (.attempt (Act.Tracks.reading fun _ => htracks.askHost _)) (.attempt _)
          fun _ _ _ _ => .return _
      | _ => exact .return _
  cases target with
  | body id => exact .sharing fun hw w' h => hn.request hw h rfl
  | hostMethod wrapper name =>
    refine .andThen (.attempt (Tracks.host? _)) (.attempt _) fun r w₂ hr₂ _ => ?_
    obtain ⟨r, hr₂, hok⟩ := attempt_eq_ok.1 hr₂
    obtain rfl := Except.ok.inj hok
    obtain ⟨rfl, hnone⟩ := eq_of_host? hr₂
    cases r with
    | none =>
      -- the wrapper of a live host method is a host wrapper, so its host is found
      have hhost := (Terrain.sound _ hw₁ e).isHost h wrapper (isMethodOf_of_callTarget hr)
      exact absurd hhost (hnone rfl wrapper rfl)
    | some id => exact .sharing fun hw w' h => hn.request hw h rfl
  | host id => exact .sharing fun hw w' h => hn.request hw h rfl
  | notCallable =>
    intro _ w' hr
    rcases andThen_eq_error.1 hr with hr | ⟨err, w₂, hr, hf⟩
    · obtain ⟨_, -, hr⟩ := attempt_eq_ok.1 hr
      simp at hr
    · obtain ⟨err, hr, hok⟩ := attempt_eq_ok.1 hr
      obtain rfl := Except.ok.inj hok
      obtain rfl := Except.error.inj (pure_eq_ok.1 hf).1
      exact raise_ne_staleHandle hr

end Machine

/-- **No operation finds its own target stale** after a callback, unless a native that is
asked while the operands are what they were says so. -/
theorem HostedOp.perform_ne_staleHandle {m : Machine κ} (hm : m.Roams) (op : HostedOp α)
    {w : World κ} {e : EngineId} {h t : Handle} (hw : w.Sound)
    (ht : op.Accepts (w.engine e).heap h)
    (hn : m.NeverAnswers (w.Keeps e (op.operands (.object h))) (.staleHandle t))
    (w' : World κ) : op.perform m e (.object h) w ≠ .ok (.error (.staleHandle t)) w' := by
  have hn : m.NeverAnswers ((Terrain.everywhere κ).pinned w e (op.operands (.object h))).Holds
      (.staleHandle t) := fun id r w a w' hw =>
    hn id r w a w' (Terrain.keeps_of_pinned hw)
  cases op with
  | get name => exact Machine.avoids_get hm hn nofun ht name hw w'
  | set name value => exact Machine.avoids_set hm hn ht name hw w'
  | names => exact Machine.avoids_names hm ht hw w'
  | toPrimitive hint => exact Machine.avoids_toPrimitive hn ht hint hw w'
  | call this args =>
    refine Machine.avoids_call hm hn ?_ hw w'
    rcases ht with ht | ⟨wrapper, b, name, hi⟩
    · exact ht.isLive
    · exact Heap.isLive_iff_exists_identity?.2 ⟨_, hi⟩

/-! ## Names that a host declines -/

namespace Machine

open Act

variable {m : Machine κ} {w w₂ : World κ} {e : EngineId} {h : Handle} {b : Nat}
  {host : NativeId} {name : String} {value : Value}

/-- **A name that the host declines is written into the wrapper.** What is left to do
then is to let go of the host and of the lock. -/
theorem set_of_declined (hm : m.Roams) (hw : w.Sound)
    (hi : w.identity? e h = some ⟨b, .host host .empty⟩) (hl : (w.engine e).loan = .none)
    (hask : m.askHost e host (.setProperty name value)
      (w.entered e host [.object h, value]) = .ok (.ok false) w₂) :
    ∃ (expandos : Properties Value) (w₃ : World κ),
      (w₃.engine e).heap.get? h = some (.host host (expandos.set name value))
      ∧ w₃.owners host = w₂.owners host
      ∧ (m.set e (.object h) name value).run w =
          Act.ensuring (Act.ensuring (pure (.ok ())) (m.release host))
            (Act.update
              (·.modifyEngine e fun s => { s with lock := s.lock.undo .level })) w₃ := by
  -- the wrapper is still the wrapper when its host has answered, and nobody has the heap
  obtain ⟨hw₂, hx⟩ := hm.asked (Terrain.holds_entered hw e host [.object h, value]) hask
  obtain ⟨expandos, hg⟩ := Heap.get?_of_host (Terrain.identity?_of_pinned hw₂ (by simp) hi)
  have hl₂ : (w₂.engine e).loan = .none := by
    rw [(hx.engine e).2, ← hl]
    simp [World.entered, World.push]
  have hwritten := writeThrough_of_declined hask (by simp [Loan.allowsWrite, hl₂]) hg
  obtain ⟨expandos₀, hg₀⟩ := Heap.get?_of_host hi
  refine ⟨expandos, (w₂.storing e h (.host host (expandos.set name value)) value).truncate e
    (w.engine e).roots.height, ?_, World.owners_recordStale w₂ e _ host, ?_⟩
  · rw [World.heap_truncate]
    exact World.get?_storing hg _ value
  · rw [set_of_host m hl hg₀]
    exact hosted_of_body hwritten

/-- **The value is there when the operation is done**, as long as the wrapper owns a share
of its host besides the one that the operation took. -/
theorem set_stores_of_declined {w₃ : World κ} {o : HeapObject}
    (hg : (w₃.engine e).heap.get? h = some o) (ho : 1 < w₃.owners host)
    (hrun : (m.set e (.object h) name value).run w =
      Act.ensuring (Act.ensuring (pure (.ok ())) (m.release host))
        (Act.update (·.modifyEngine e fun s => { s with lock := s.lock.undo .level })) w₃) :
    ∃ w', (m.set e (.object h) name value).run w = .ok (.ok ()) w'
      ∧ (w'.engine e).heap.get? h = some o := by
  refine ⟨(w₃.modifyOwners host (· - 1)).modifyEngine e fun s =>
    { s with lock := s.lock.undo .level }, ?_, ?_⟩
  · rw [hrun]
    exact ensuring_eq_ok.2 ⟨_, ensuring_eq_ok.2 ⟨w₃, rfl, release_of_lt_owners m ho⟩, rfl⟩
  · rw [World.engine_modifyEngine_self]
    exact hg

/-- **A host method that is read has a wrapper.** -/
theorem isHost_of_get (hm : m.Roams) (hw : w.Sound) {k t : Handle} {w' : World κ}
    (hr : (m.get e (.object h) name).run w = .ok (.ok (.object k)) w')
    (hk : (w'.engine e).heap.IsMethodOf k t) : (w'.engine e).heap.IsHost t := by
  have hrelease : ∀ id w, Act.Tracks (.everywhere κ) (m.release id) (m.release id) w :=
    fun id w => (hm.tracks .everywhere).release
  have htracks : Machine.Tracks ((Terrain.everywhere κ).pinned w e [.object h]) m m :=
    hm.tracks_pinned _ _ _
  have hx := (Machine.Tracks.get hrelease htracks name hw).2.1
  rw [after_of_ok hr] at hx
  exact (hw.excursion hx e).isHost k t hk

end Machine

/-! ## Natives that collect -/

/-- **Callbacks pull nothing from under an operation.** Whatever the natives of an
embedder do when they are asked, an operation on a live wrapper (or a call of a live
host method) asks them in worlds, and goes on in worlds, in which its operands are the
objects that they were. So it does not find one stale unless a native says so; a name
that the host declines is written into the wrapper before the operation lets go of the
host, and is there in the end if the wrapper's own share of the host still is; and a
host method that is read has a live wrapper. -/
theorem Behaviour.operands_survive_callbacks (b : Behaviour κ) (depth : Nat) {w : World κ}
    (hw : w.Reachable) (e : EngineId) (h : Handle) :
    (∀ (α : Type) (op : HostedOp α), op.Accepts (w.engine e).heap h →
        (∀ m', (b.machine depth).Agrees m'
            (fun w₁ w₂ => w.Keeps e (op.operands (.object h)) w₁
              ∧ w.Keeps e (op.operands (.object h)) w₂) (fun _ _ => True) →
          op.perform m' e (.object h) w = op.perform (b.machine depth) e (.object h) w)
        ∧ ∀ t, (b.machine depth).NeverAnswers (w.Keeps e (op.operands (.object h)))
            (.staleHandle t) →
          ∀ w', op.perform (b.machine depth) e (.object h) w ≠ .ok (.error (.staleHandle t)) w')
      ∧ (∀ (host : NativeId) (expandos₀ : Properties Value) (name : String) (value : Value)
          (w₂ : World κ), (w.engine e).heap.get? h = some (.host host expandos₀) →
          (w.engine e).loan = .none →
          (b.machine depth).askHost e host (.setProperty name value)
            (w.entered e host [.object h, value]) = .ok (.ok false) w₂ →
        ∃ (expandos : Properties Value) (w₃ : World κ),
          (w₃.engine e).heap.get? h = some (.host host (expandos.set name value))
            ∧ ((b.machine depth).set e (.object h) name value).run w =
                Act.ensuring (Act.ensuring (pure (.ok ())) ((b.machine depth).release host))
                  (Act.update
                    (·.modifyEngine e fun s => { s with lock := s.lock.undo .level })) w₃
            ∧ (1 < w₂.owners host → ∃ w',
                ((b.machine depth).set e (.object h) name value).run w = .ok (.ok ()) w'
                  ∧ (w'.engine e).heap.get? h
                      = some (.host host (expandos.set name value))))
      ∧ ∀ (name : String) (k t : Handle) (w' : World κ),
        ((b.machine depth).get e (.object h) name).run w = .ok (.ok (.object k)) w' →
        (w'.engine e).heap.IsMethodOf k t → (w'.engine e).heap.IsHost t := by
  have hm := b.roams depth
  refine ⟨fun α op ht => ⟨fun m' ha => ?_, fun t hn w' => ?_⟩, ?_, ?_⟩
  · exact op.perform_agrees hm hw.sound ht ha
  · exact op.perform_ne_staleHandle hm hw.sound ht hn w'
  · intro host expandos₀ name value w₂ hg hl hask
    obtain ⟨birth, hi⟩ := Heap.identity?_of_get? hg
    obtain ⟨expandos, w₃, hg₃, ho₃, hrun⟩ := Machine.set_of_declined hm hw.sound hi hl hask
    exact ⟨expandos, w₃, hg₃, hrun, fun ho =>
      Machine.set_stores_of_declined hg₃ (ho₃ ▸ ho) hrun⟩
  · exact fun name k t w' hr hk => Machine.isHost_of_get hm hw.sound hr hk

/-- Hosts that collect whenever they are asked, and know no name. -/
def Behaviour.collecting : Behaviour Unit where
  answer _ _
    | .host e (.setProperty _ _) => (Program.op (.collect e)).bind fun _ => .done (.ok false)
    | _ => .panic .noAnswer
  finaliser _ := .done ()

/-- The world after a program that makes a wrapper and an object, and roots neither. -/
def World.wrapped : World Unit :=
  ((Behaviour.collecting.machine 2).run (do
    let host ← Program.op (.spawn (.custom ()))
    let _ ← Program.op (.createHost ⟨0⟩ host)
    Program.op (.createObject ⟨0⟩)) []).after {}

/-- Nothing but the operation itself keeps the wrapper and the object that is written
into it, and both outlive the collection that the host asks for. -/
theorem Behaviour.operands_survive_callbacks_wrapped :
    ∃ (expandos : Properties Value) (w' : World Unit),
    ((Behaviour.collecting.machine 2).set ⟨0⟩ (.object ⟨0, 0⟩) "x" (.object ⟨1, 0⟩)).run
        World.wrapped = .ok (.ok ()) w'
      ∧ (w'.engine ⟨0⟩).heap.get? ⟨0, 0⟩
          = some (.host ⟨0⟩ (expandos.set "x" (.object ⟨1, 0⟩))) := by
  have hw : World.wrapped.Reachable := (Behaviour.collecting.reaches_run 2 _ [] .init).1
  obtain ⟨-, hset, -⟩ := Behaviour.collecting.operands_survive_callbacks 2 hw ⟨0⟩ ⟨0, 0⟩
  have hask : ((Behaviour.collecting.machine 2).askHost ⟨0⟩ ⟨0⟩
      (.setProperty "x" (.object ⟨1, 0⟩))).finishes
        (World.wrapped.entered ⟨0⟩ ⟨0⟩ [.object ⟨0, 0⟩, .object ⟨1, 0⟩])
        (fun r w₂ => r.toOption = some false && decide (1 < w₂.owners ⟨0⟩)) = true := by
    decide +kernel
  obtain ⟨r, w₂, heq, htest⟩ := Act.exists_of_finishes hask
  obtain ⟨hr, ho⟩ := (Bool.and_eq_true _ _).mp htest
  obtain rfl : r = .ok false := by cases r <;> simp_all [Except.toOption]
  obtain ⟨expandos, w₃, -, -, hdone⟩ := hset ⟨0⟩ .empty "x" (.object ⟨1, 0⟩) w₂
    (by decide +kernel) (by decide +kernel) heq
  obtain ⟨w', hrun, hg⟩ := hdone (of_decide_eq_true ho)
  exact ⟨expandos, w', hrun, hg⟩

end EmbeddedScript
