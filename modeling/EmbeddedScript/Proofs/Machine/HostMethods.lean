import EmbeddedScript.Proofs.Machine.Reentrancy
import EmbeddedScript.Proofs.World.Persistence

/-!
# Host methods and their wrappers

A host method holds the bare handle of the wrapper that it was read from, and is called
long after the read. The handle is good because four things work together: the read has
pinned the wrapper while the host was asked, so the wrapper is there when the method is
made; the wrapper is an edge of its method, so a collection that keeps the one keeps the
other; a slot is given away only when it is empty; and an object that is gone does not
come back (`World.identity?_wrapper`).

So **a live host method has the wrapper that it was read from**, and calling it asks that
wrapper's host.
-/

namespace EmbeddedScript

open World (Move Step)

variable {κ : Type} {m : Machine κ} {w w₁ w₂ w' : World κ} {e : EngineId} {k t : Handle}
  {host : NativeId} {name : String}

namespace Machine

open Act

/-! ## Reading a method -/

/-- An allocation that succeeded placed the object. -/
theorem eq_of_allocate {o : HeapObject} {v : Value}
    (h : (m.allocate e o).run w = .ok (.ok v) w') :
    (w.engine e).heap.refusal? = none ∧ v = .object ((w.engine e).heap.place o).1
      ∧ w' = w.modifyEngine e fun s => { s with heap := ((w.engine e).heap.place o).2 } := by
  obtain ⟨r, w₁, hr, h⟩ := bind_eq_ok.1 h
  obtain ⟨hr, hw₁⟩ := eq_of_writeHeap hr
  cases r with
  | ok k =>
    obtain ⟨hv, rfl⟩ := pure_eq_ok.1 h
    obtain ⟨hroom, hk⟩ := place_of_offer hr.symm
    rw [offer_of_room hroom] at hw₁
    exact ⟨hroom, by rw [← Except.ok.inj hv, hk], hw₁⟩
  | error err =>
    obtain ⟨_, w₂, -, h⟩ := bind_eq_ok.1 h
    exact nomatch (pure_eq_ok.1 h).1

/-- **What is left of a read** once the host has answered that it declines the name and
has a method of it: the method is put into the heap, and the host is let go of. -/
theorem eq_of_get_method {b : Nat} {v : Value}
    (hi : w.identity? e t = some ⟨b, .host host .empty⟩)
    (hproperty : m.askHost e host (.getProperty name) (w.entered e host [.object t])
      = .ok (.ok none) w₁)
    (hmethod : m.askHost e host (.hasMethod name) w₁ = .ok true w₂)
    (hget : (m.get e (.object t) name).run w = .ok (.ok v) w') :
    ∃ w₃ w₄, (m.allocate e (.hostMethod t name)).run w₂ = .ok (.ok v) w₃
      ∧ m.release host (w₃.truncate e (w.engine e).roots.height) = .ok () w₄
      ∧ (w₄.modifyEngine e fun s => { s with lock := s.lock.undo .level }) = w' := by
  obtain ⟨w₄, hlocked, hback⟩ := locked_eq_ok.1 hget
  obtain ⟨h, w₅, hh, hread⟩ := andThen_eq_ok.1 hlocked
  obtain ⟨hv, rfl⟩ := eq_of_expectHandle hh
  obtain rfl := Value.object.inj hv
  obtain ⟨o, w₅, ho, hread⟩ := andThen_eq_ok.1 hread
  obtain ⟨expandos, rfl⟩ : ∃ expandos, o = .host host expandos := by
    obtain ⟨expandos, hg⟩ := Heap.get?_of_host hi
    obtain ⟨ho, -⟩ := eq_of_readHeap (f := (Heap.get · t)) ho
    rw [World.engine_modifyEngine_self, Heap.get_eq_ok_iff.2 hg] at ho
    exact ⟨expandos, Except.ok.inj ho⟩
  obtain ⟨rfl, -⟩ := World.identity?_of_object ho
  obtain ⟨w₅, hpinned, hrelease⟩ := sharing_eq_ok.1 hread
  obtain ⟨w₃, hasked, hpins⟩ := pinning_eq_ok.1 hpinned
  -- the host is asked from where it was said to be asked, so it answers as was said
  obtain ⟨r, w₆, hr, hasked⟩ := andThen_eq_ok.1 hasked
  obtain ⟨rfl, rfl⟩ : none = r ∧ w₁ = w₆ := by
    have h := hproperty.symm.trans hr
    simpa using h
  obtain ⟨isMethod, w₆, hr, hasked⟩ := attempt_andThen hasked
  obtain ⟨rfl, rfl⟩ : true = isMethod ∧ w₂ = w₆ := by
    have h := hmethod.symm.trans hr
    simpa using h
  rw [if_pos rfl] at hasked
  rw [World.engine_modifyOwners, World.engine_modifyEngine_self] at hpins
  exact ⟨w₃, w₄, hasked, hpins ▸ hrelease, hback⟩

/-- An operation enters by steps. -/
theorem reaches_entered (w : World κ) (e : EngineId) (host : NativeId) (vs : List Value) :
    w.Reaches (w.entered e host vs) :=
  .head (.move (.relocked True w e Lock.take))
    (.head (.move (.aside (.modifyOwners _ host (· + 1)))) (.single (.pushed e vs)))

/-- It leaves by steps: the pins are taken off the stack, the share of the host is let go,
and the level of the lock is given back. -/
theorem reaches_left (hm : m.Roams) (hw : w.Sound) {height : Nat}
    (hrelease : m.release host (w.truncate e height) = .ok () w₁) :
    w.Reaches (w₁.relock e (Lock.undo · .level)) := by
  have htruncated : Step w (w.truncate e height) := .truncated e height
  have hx := hm.release host (hw.step htruncated)
  rw [after_of_ok hrelease] at hx
  exact .tail (.head htruncated hx.reaches) (.move (.relocked True w₁ e _))

/-- **The method that a host has is a new object**, and is made while its wrapper is the
one that was read from. -/
theorem exists_method_placed (hm : m.Roams) (hw : w.Sound) {b : Nat} {v : Value}
    (hi : w.identity? e t = some ⟨b, .host host .empty⟩)
    (hproperty : m.askHost e host (.getProperty name) (w.entered e host [.object t])
      = .ok (.ok none) w₁)
    (hmethod : m.askHost e host (.hasMethod name) w₁ = .ok true w₂)
    (hget : (m.get e (.object t) name).run w = .ok (.ok v) w') :
    ∃ (k : Handle) (w₃ : World κ), v = .object k
      ∧ (w₂.engine e).heap.get? k = none
      ∧ w₃.identity? e k = some ⟨(w₂.engine e).heap.births, .hostMethod t name⟩
      ∧ w₃.identity? e t = some ⟨b, .host host .empty⟩
      ∧ w.Reaches w₂ ∧ w₂.Reaches w₃ ∧ w₃.Reaches w' := by
  -- the wrapper is pinned until the host has answered twice
  obtain ⟨hw₁, hx₁⟩ := hm.asked (Terrain.holds_entered hw e host [.object t]) hproperty
  obtain ⟨hw₂, hx₂⟩ := hm.asked hw₁ hmethod
  have hi₂ := Terrain.identity?_of_pinned hw₂ (List.mem_singleton.2 rfl) hi
  have hsound₂ : w₂.Sound := Terrain.sound _ hw₂
  have hwf₂ := (hsound₂ e).wellFormed
  obtain ⟨w₃, w₄, hallocate, hrelease, hback⟩ := eq_of_get_method hi hproperty hmethod hget
  obtain ⟨hroom, hv, hplaced⟩ := eq_of_allocate hallocate
  have hheap : (w₃.engine e).heap = ((w₂.engine e).heap.place (.hostMethod t name)).2 := by
    rw [hplaced, World.engine_modifyEngine_self]
  have hstep : Step w₂ w₃ := by
    rw [hplaced]
    refine .move (.tended e _ ⟨.inr (.placed hroom fun t' name' heq => ?_), rfl, rfl⟩ fun _ =>
      Heap.backs_place hwf₂ fun v hv => ?_)
    · obtain ⟨rfl, -⟩ := HeapObject.hostMethod.inj heq
      exact ⟨b, host, hi₂⟩
    · obtain rfl : v = .object t := List.mem_singleton.1 hv
      exact Heap.isLive_iff_exists_identity?.2 ⟨_, hi₂⟩
  refine ⟨_, w₃, hv, ?_, ?_, ?_, ?_, .single hstep, ?_⟩
  · rw [Heap.get?, Heap.occupant?_place_fst hwf₂]
    rfl
  · rw [World.identity?, hheap, Heap.identity?_place hwf₂, if_pos rfl]
    rfl
  · rw [World.identity?, hheap]
    exact Heap.identity?_place_of_some hwf₂ _ hi₂
  · exact ((reaches_entered w e host _).trans hx₁.reaches).trans hx₂.reaches
  · exact hback ▸ reaches_left hm (hsound₂.step hstep) hrelease

/-- The steps of the read are steps to the moment when the method was made, and from there. -/
theorem exists_method_of_get (hm : m.Roams) (hw : w.Sound) {b : Nat} {v : Value}
    (hi : w.identity? e t = some ⟨b, .host host .empty⟩)
    (hproperty : m.askHost e host (.getProperty name) (w.entered e host [.object t])
      = .ok (.ok none) w₁)
    (hmethod : m.askHost e host (.hasMethod name) w₁ = .ok true w₂)
    (hget : (m.get e (.object t) name).run w = .ok (.ok v) w') :
    ∃ (k : Handle) (b' : Nat) (w₃ : World κ), v = .object k
      ∧ (w₂.engine e).heap.get? k = none
      ∧ w₃.identity? e k = some ⟨b', .hostMethod t name⟩
      ∧ w₃.identity? e t = some ⟨b, .host host .empty⟩
      ∧ w.Reaches w₃ ∧ w₃.Reaches w' := by
  obtain ⟨k, w₃, hv, hnew, hk, ht, hasked, hplaced, hleft⟩ :=
    exists_method_placed hm hw hi hproperty hmethod hget
  exact ⟨k, _, w₃, hv, hnew, hk, ht, hasked.trans hplaced, hleft⟩

/-! ## Calling a method -/

/-- What a host method resolves to when it is called. -/
theorem callTarget_hostMethod (hl : (w.engine e).loan.allowsRead = true)
    (hg : (w.engine e).heap.get? k = some (.hostMethod t name)) :
    (m.callTarget e (.object k)).run w = .ok (.ok (.hostMethod t name)) w := by
  refine (andThen_of_ok (x := Act.object e k) (b := .hostMethod t name) ?_).trans rfl
  show readHeap e (Heap.get · k) w = _
  rw [readHeap, if_pos hl, Heap.get_eq_ok_iff.2 hg]

/-- **Calling a host method asks the host of its wrapper**, unless the heap is lent to a
writer. -/
theorem call_hostMethod {expandos : Properties Value}
    (hk : (w.engine e).heap.get? k = some (.hostMethod t name))
    (ht : (w.engine e).heap.get? t = some (.host host expandos)) (this : Value)
    (args : List Value) :
    (m.call e (.object k) this args).run w =
      Act.locked e (Act.pinning e (.object k :: this :: args)
        (if (w.engine e).loan.allowsRead then
          m.sharing host (m.askHost e host (.invokeMethod name args))
        else Act.panic .heapLent)) w := by
  refine locked_congr (pinning_congr ?_)
  -- neither the lock nor the pins are in the heap
  have hheap : ((World.push (w.modifyEngine e fun s => { s with lock := s.lock.take }) e
      (.object k :: this :: args)).engine e).heap = (w.engine e).heap := by
    rw [World.heap_push, World.engine_modifyEngine_self]
  have hloan : ((World.push (w.modifyEngine e fun s => { s with lock := s.lock.take }) e
      (.object k :: this :: args)).engine e).loan = (w.engine e).loan := by
    rw [World.push, World.engine_modifyEngine_self, World.engine_modifyEngine_self]
  rw [← hloan]
  rw [← hheap] at hk ht
  generalize World.push _ e (.object k :: this :: args) = w₁ at hk ht ⊢
  cases hl : (w₁.engine e).loan.allowsRead with
  | true =>
    refine (andThen_of_ok (callTarget_hostMethod hl hk)).trans ?_
    refine (andThen_of_ok (x := Act.attempt (host? e (.object t))) (b := some host) ?_).trans rfl
    exact attempt_eq_ok.2 ⟨some host, World.host?_of_get? ht ▸ host?_eq hl _, rfl⟩
  | false =>
    refine andThen_of_cut (x := m.callTarget e (.object k)) ?_
    refine andThen_of_cut (x := Act.object e k) ?_
    exact readHeap_of_lent hl (Heap.get · k)

end Machine

/-! ## The wrapper of a host method -/

/-- **Every live host method has a live wrapper**, the one that it was read from. Programs
come to worlds only, and run natives in worlds only, in which the target of a live host
method is a live host wrapper. A read that finds a method of a wrapper's host makes a
new host method while the wrapper is the object that was read from; and wherever that
host method is found again, the wrapper is that object still. So calling a live host
method asks the host of its wrapper, and never finds the wrapper stale; it does not come
to that only where the heap is lent to a writer and nobody can read it. -/
theorem Behaviour.hostMethods_have_wrappers (b : Behaviour κ) (depth : Nat) :
    (∀ w : World κ, w.Reachable → ∀ (α : Type) (p : Program κ α) (owned : List Local),
        (((b.machine depth).run p owned).after w).Reachable
          ∧ ∀ m', (b.machine depth).Agrees m' (fun w₁ w₂ => w₁.Reachable ∧ w₂.Reachable)
                (fun w₁ w₂ => w₁.Reachable ∧ w₂.Reachable) →
              m'.run p owned w = (b.machine depth).run p owned w)
      ∧ (∀ w : World κ, w.Reachable → ∀ (e : EngineId) (k t : Handle),
        (w.engine e).heap.IsMethodOf k t → (w.engine e).heap.IsHost t)
      ∧ (∀ w w₁ w₂ w' : World κ, w.Reachable →
        ∀ (e : EngineId) (t : Handle) (birth : Nat) (host : NativeId) (name : String) (v : Value),
        w.identity? e t = some ⟨birth, .host host .empty⟩ →
        (b.machine depth).askHost e host (.getProperty name) (w.entered e host [.object t])
          = .ok (.ok none) w₁ →
        (b.machine depth).askHost e host (.hasMethod name) w₁ = .ok true w₂ →
        ((b.machine depth).get e (.object t) name).run w = .ok (.ok v) w' →
        ∃ (k : Handle) (birth' : Nat) (w₃ : World κ), v = .object k
          ∧ (w₂.engine e).heap.get? k = none
          ∧ w₃.identity? e k = some ⟨birth', .hostMethod t name⟩ ∧ w₃.Reaches w'
          ∧ ∀ w'', w₃.Reaches w'' → w''.identity? e k = some ⟨birth', .hostMethod t name⟩ →
              w''.identity? e t = some ⟨birth, .host host .empty⟩)
      ∧ ∀ w : World κ, w.Reachable → ∀ (e : EngineId) (k t : Handle) (name : String)
        (this : Value) (args : List Value),
        (w.engine e).heap.get? k = some (.hostMethod t name) →
        ∃ (host : NativeId) (expandos : Properties Value),
          (w.engine e).heap.get? t = some (.host host expandos)
            ∧ ((b.machine depth).call e (.object k) this args).run w =
              Act.locked e (Act.pinning e (.object k :: this :: args)
                (if (w.engine e).loan.allowsRead then
                  (b.machine depth).sharing host
                    ((b.machine depth).askHost e host (.invokeMethod name args))
                else Act.panic .heapLent)) w := by
  have hm := b.roams depth
  refine ⟨fun w hw α p owned => b.reachable_run depth p owned hw,
    fun w hw e k t => (hw.sound e).isHost k t, ?_, ?_⟩
  · intro w w₁ w₂ w' hw e t birth host name v hi hproperty hmethod hget
    obtain ⟨k, birth', w₃, hv, hnew, hk, ht, hbefore, hafter⟩ :=
      Machine.exists_method_of_get hm hw.sound hi hproperty hmethod hget
    refine ⟨k, birth', w₃, hv, hnew, hk, hafter, fun w'' hr hk' => ?_⟩
    rw [World.identity?_wrapper (hw.sound.reaches hbefore) hr hk hk', ht]
  · intro w hw e k t name this args hk
    obtain ⟨b', hi⟩ := Heap.identity?_of_get? hk
    obtain ⟨birth, host, ht⟩ := (hw.sound e).isHost k t ⟨b', name, hi⟩
    obtain ⟨expandos, hg⟩ := Heap.get?_of_host ht
    exact ⟨host, expandos, hg, Machine.call_hostMethod hk hg this args⟩

/-- Hosts that have every method and no property, and collect before they answer. -/
def Behaviour.versed : Behaviour Unit where
  answer _ _
    | .host e (.getProperty _) => (Program.op (.collect e)).bind fun _ => .done (.ok none)
    | .host e (.hasMethod _) => (Program.op (.collect e)).bind fun _ => .done true
    | .host e (.invokeMethod _ _) =>
      (Program.op (.collect e)).bind fun _ => .done (.ok .undefined)
    | _ => .panic .noAnswer
  finaliser _ := .done ()

/-- The world in which a method was read off a wrapper, and nothing but the method is
rooted when the heap is collected. -/
def World.methodKept : World Unit :=
  ((Behaviour.versed.machine 2).run (do
    let host ← Program.op (.spawn (.custom ()))
    let _ ← Program.op (.createHost ⟨0⟩ host)
    match ← Program.op (.get ⟨0⟩ (.object ⟨0, 0⟩) "f") with
    | .ok v =>
      let _ ← Program.op (.root ⟨0⟩ v)
      Program.op (.collect ⟨0⟩)
    | .error _ => .panic .noAnswer) []).after {}

/-- The wrapper outlives the collection with its method, and calling the method asks its
host. Another method that is read off it is a host method of the same wrapper. -/
theorem Behaviour.hostMethods_have_wrappers_kept :
    (World.methodKept.engine ⟨0⟩).heap.IsHost ⟨0, 0⟩
      ∧ (∃ host expandos,
        (World.methodKept.engine ⟨0⟩).heap.get? ⟨0, 0⟩ = some (.host host expandos)
          ∧ ((versed.machine 2).call ⟨0⟩ (.object ⟨1, 0⟩) .undefined []).run World.methodKept =
            Act.locked ⟨0⟩ (Act.pinning ⟨0⟩ [.object ⟨1, 0⟩, .undefined]
              ((versed.machine 2).sharing host
                ((versed.machine 2).askHost ⟨0⟩ host (.invokeMethod "f" []))))
              World.methodKept)
      ∧ ∃ (k : Handle) (w₃ w' : World Unit),
        ((versed.machine 2).get ⟨0⟩ (.object ⟨0, 0⟩) "g").run World.methodKept
            = .ok (.ok (.object k)) w'
          ∧ w₃.Reaches w' ∧ (w₃.engine ⟨0⟩).heap.IsMethodOf k ⟨0, 0⟩ := by
  obtain ⟨hreach, hhost, hread, hcall⟩ := versed.hostMethods_have_wrappers 2
  have hw : World.methodKept.Reachable := (hreach {} .refl _ _ _).1
  have hm : (World.methodKept.engine ⟨0⟩).heap.IsMethodOf ⟨1, 0⟩ ⟨0, 0⟩ :=
    ⟨1, "f", by decide +kernel⟩
  refine ⟨hhost _ hw _ _ _ hm, ?_, ?_⟩
  · obtain ⟨host, expandos, hg, hrun⟩ := hcall _ hw ⟨0⟩ ⟨1, 0⟩ ⟨0, 0⟩ "f" .undefined []
      (by decide +kernel)
    rw [if_pos (by decide +kernel)] at hrun
    exact ⟨host, expandos, hg, hrun⟩
  · have hasks : (do
          let r ← (versed.machine 2).askHost ⟨0⟩ ⟨0⟩ (.getProperty "g")
          let q ← (versed.machine 2).askHost ⟨0⟩ ⟨0⟩ (.hasMethod "g")
          pure (r, q)).finishes (World.methodKept.entered ⟨0⟩ ⟨0⟩ [.object ⟨0, 0⟩])
        (fun answers _ => answers.1.toOption = some none && answers.2) = true := by
      decide +kernel
    obtain ⟨answers, w₂, heq, htest⟩ := Act.exists_of_finishes hasks
    obtain ⟨r, w₁, hr, heq⟩ := Act.bind_eq_ok.1 heq
    obtain ⟨q, w₂', hq, heq⟩ := Act.bind_eq_ok.1 heq
    obtain ⟨rfl, rfl⟩ := Act.pure_eq_ok.1 heq
    obtain ⟨hnone, rfl⟩ := (Bool.and_eq_true _ _).mp htest
    obtain rfl : r = .ok none := by cases r <;> simp_all [Except.toOption]
    have hget : ((versed.machine 2).get ⟨0⟩ (.object ⟨0, 0⟩) "g").run.finishes
        World.methodKept (fun r _ => r.isOk) = true := by decide +kernel
    obtain ⟨v, w', hv, hok⟩ := Act.exists_of_finishes hget
    cases v with
    | error err => cases hok
    | ok v =>
      obtain ⟨k, birth, w₃, rfl, -, hk, hafter, -⟩ :=
        hread _ _ _ _ hw ⟨0⟩ ⟨0, 0⟩ 0 ⟨0⟩ "g" v (by decide +kernel) hr hq hv
      exact ⟨k, w₃, w', hv, hafter, birth, "g", hk⟩

end EmbeddedScript
