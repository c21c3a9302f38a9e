import EmbeddedScript.Proofs.Machine.Running
import EmbeddedScript.Proofs.Roots.Accounts

/-!
# The lifetime of what is held

A root promises its holder that the object stays. The promise is kept
(`Behaviour.no_premature_free`) because nothing but a collection frees, a collection frees
nothing that is reachable from the table of persistent roots or from a stack, and the
table balances: what a live root holds is in it.

All this is said of steps. That it is said of *every* run – of operations in any
order, with natives that run operations of their own while one is under way – is
because running a program takes steps only, and runs natives in worlds that such steps
lead to.
-/

namespace EmbeddedScript.World

variable {κ : Type} {w w' : World κ} {e : EngineId} {h : Handle} {i : Identity}

/-- **What live roots hold** in an engine. -/
def held (w : World κ) (e : EngineId) : List Handle :=
  w.roots.filterMap fun r => if r.engine = e then r.value.handle? else none

/-- A handle is held when some live root holds it. -/
theorem mem_held : h ∈ w.held e ↔ ∃ r ∈ w.roots, r.engine = e ∧ r.value = .object h := by
  simp only [held, List.mem_filterMap]
  refine exists_congr fun r => and_congr_right fun _ => ?_
  by_cases he : r.engine = e
  · simp [he, Value.handle?_eq_some_iff]
  · simp [he]

/-! ## Holders -/

/-- **A held object stays the object that it is** for as long as the root that holds it
is live. -/
theorem identity?_of_root (hw : w.Reachable) (hr : w.Reaches w') {r : Root}
    (hmem : r ∈ w.roots) (hmem' : r ∈ w'.roots) (hv : r.value = .object h)
    (hm : w'.Matched r.engine h) (hi : w.identity? r.engine h = some i) :
    w'.identity? r.engine h = some i := by
  have hlt := hw.numbered.lt r hmem
  -- the root is live in every world on the way
  have hserial : ∀ {w'}, w.Reaches w' → r.serial < w'.rootsMade := fun hr =>
    Nat.lt_of_lt_of_le hlt (rootsMade_le_of_reaches hr)
  induction hr with
  | refl => exact hi
  | @tail w₁ w₂ hr hs ih =>
    have hmem₁ := hs.mem_roots_of_mem (hserial hr) hmem'
    have hm₁ := hm.of_suffix hs.journal_suffix
    have hi₁ := ih hmem₁ hm₁
    have hw₁ : w₁.Reachable := hw.trans hr
    have hstart := hw₁.mem_handles hm₁ hmem₁ rfl hv
    have hlive := Heap.isLive_iff_exists_identity?.2 ⟨i, hi₁⟩
    rw [hs.identity?_of_reaches hw₁.sound (.start hstart hlive), hi₁]

/-! ## Collections -/

/-- **Only collections free**: whatever a step does to an engine, an object of it stays
the object that it is unless the step collected the engine's heap. -/
theorem Step.identity?_or_collected (hs : Step w w') (hw : w.Sound)
    (hi : w.identity? e h = some i) :
    w'.identity? e h = some i
      ∨ ∃ stats, (w'.engine e).heap
          = ((w.engine e).heap.collect (w.engine e).roots stats).2.1 := by
  rcases hs.heap e with he | hc
  · exact .inl (by rwa [identity?, he])
  · rcases hc.quiet_or_collected with hc | hc
    · exact .inl (hc.identity?_of_some (hw e) hi)
    · exact .inr hc

/-- **A collection spares what can be reached** from what is held and from the stack,
contents and all. -/
theorem occupant?_collect_of_held (hw : w.Reachable)
    (hm : ∀ k ∈ w.held e, w.Matched e k)
    (hr : (w.engine e).heap.Reaches (w.held e ++ (w.engine e).roots.stack.toList) h)
    (stats : GcStats) :
    ((w.engine e).heap.collect (w.engine e).roots stats).2.1.occupant? h
      = (w.engine e).heap.occupant? h := by
  refine Heap.occupant?_collect_of_reaches stats (hr.mono fun k hk => ?_)
  rcases List.mem_append.1 hk with hk | hk
  · obtain ⟨r, hr, he, hv⟩ := mem_held.1 hk
    exact hw.mem_handles (hm k hk) hr he hv
  · exact RootSet.mem_handles.2 (.inr (Array.mem_toList_iff.1 hk))

end EmbeddedScript.World

namespace EmbeddedScript

variable {κ α : Type}

/-! ## Runs -/

/-- **No other operation frees anything**: an operation that is no collection keeps
every object, unless a native collects. -/
theorem Machine.identity?_perform {m : Machine κ} (hm : Machine.Tracks (.quiet κ) m m)
    {op : Op κ} (hop : ¬ op.Collects) {w : World κ} (hw : w.Sound) {e : EngineId} {h : Handle}
    {i : Identity} (hi : w.identity? e h = some i) :
    ((m.perform op).after w).identity? e h = some i :=
  (hm.perform op (Terrain.allows_quiet hop) hw).2.1.identity?_of_quiet hw hi

/-- Natives that answer nothing and own nothing. -/
def Behaviour.idle : Behaviour Unit := ⟨fun _ _ _ => .panic .noAnswer, fun _ => .done ()⟩

/-- The world after a program that makes two objects and roots the second. -/
def World.secondRooted : World Unit :=
  ((Behaviour.idle.machine 1).run (do
    let _ ← Program.op (.createObject ⟨0⟩)
    let _ ← Program.op (.createObject ⟨0⟩)
    Program.op (.root ⟨0⟩ (.object ⟨1, 0⟩))) []).after {}

end EmbeddedScript
