import EmbeddedScript.Proofs.Heap.Census
import EmbeddedScript.Proofs.Machine.Laws

/-!
# The collector's accounts balance

The counters of an engine agree with what became of its heap, and they do so **at all
times**: to have a history of edits that leads to the heap and to the statistics
(`Engine.Records`) is a law of engines, and whatever has one balances
(`Engine.Records.accounts`).

A collection lets go of natives after it has changed the engine, and these may allocate,
drop roots and collect again. All that is part of the history too. What a collection hands
back was fixed before, so a later one does not show in it, and what it counted was true of
the heap that it found and of the heap that it left.
-/

namespace EmbeddedScript

open Heap (Edit)

variable {κ : Type} {s : Engine} {es : List Edit}

/-- **The engine has this history**: its heap and its statistics are what these edits make
of a new heap. -/
structure Engine.Records (s : Engine) (es : List Edit) : Prop where
  /-- The heap came about so. -/
  heap : s.heap = Heap.made s.options.maxHeapObjects es
  /-- So did the statistics. -/
  stats : s.stats = Heap.tallied s.options.maxHeapObjects es

/-- **The counters of the engine agree with its history.** -/
structure Engine.Accounts (s : Engine) (es : List Edit) : Prop extends s.Records es where
  /-- What was allocated is live or was freed. -/
  allocations : (Heap.made s.options.maxHeapObjects []).allocations es
    = s.heap.live + s.stats.freedInAll
  /-- What was allocated since the last collection was counted since then. -/
  sinceLast : (Heap.made s.options.maxHeapObjects (Edit.upToLast es)).allocations
    (Edit.sinceLast es) = s.heap.sinceCollection
  /-- What was allocated was born. -/
  births : (Heap.made s.options.maxHeapObjects []).allocations es = s.heap.births

/-- **Whatever history an engine has**, its counters agree with it. -/
theorem Engine.Records.accounts (hr : s.Records es) : s.Accounts es where
  toRecords := hr
  allocations := by rw [hr.heap, hr.stats, Heap.allocations_eq]
  sinceLast := by rw [hr.heap, Heap.sinceCollection_eq]
  births := by rw [hr.heap, Heap.births_eq]

/-- One more edit goes on from the heap and the statistics that there are. -/
theorem Engine.Records.append (hr : s.Records es) (e : Edit) :
    Engine.Records { s with heap := s.heap.edit e, stats := s.heap.statsAfter s.stats e }
      (es ++ [e]) where
  heap := by
    show s.heap.edit e = _
    rw [Heap.made_append, ← hr.heap]
  stats := by
    show s.heap.statsAfter s.stats e = _
    rw [Heap.tallied_append, ← hr.heap, ← hr.stats]

/-- **To have a history is a law.** -/
def Engine.recorded : Engine.Law where
  Holds s := ∃ es, s.Records es
  new _ := ⟨[], rfl, rfl⟩
  congr ho hh hs := fun ⟨es, hr⟩ => ⟨es, by rw [hh, ho, hr.heap], by rw [hs, ho, hr.stats]⟩
  placed {_ o} hroom _ := fun ⟨es, hr⟩ => ⟨es ++ [.allocate o], by
    have happend := hr.append (.allocate o)
    rwa [Heap.edit_allocate_of_ok (Heap.allocate_eq_ok_iff.2 ⟨hroom, rfl⟩)] at happend⟩
  stored {_ h _ o'} _ _ := fun ⟨_, hr⟩ => ⟨_, hr.append (.store h o')⟩
  collected {s} := fun ⟨_, hr⟩ => ⟨_, hr.append (.collect s.roots s.stats)⟩

/-- **The accounts of every engine balance.** -/
def World.Accounted (w : World κ) : Prop := ∀ e, ∃ es, (w.engine e).Accounts es

/-- They do when every engine has a history. -/
theorem World.accounted_iff_lawful {w : World κ} :
    w.Accounted ↔ w.Lawful Engine.recorded :=
  forall_congr' fun _ => exists_congr fun _ =>
    ⟨Engine.Accounts.toRecords, Engine.Records.accounts⟩

/-- **A collection counts right** in an engine that has a history: what it marks and what it
frees were live, and what it marks is live afterwards. -/
theorem Engine.Records.collected_counts (hr : s.Records es) :
    s.collected.stats.marked + s.collected.stats.freed = s.heap.live
      ∧ s.collected.stats.marked = s.collected.heap.live
      ∧ s.collected.stats.live = s.collected.heap.live
      ∧ s.collected.stats.freed = (s.heap.collect s.roots s.stats).1.length := by
  have hf := Heap.faithful_made s.options.maxHeapObjects es
  rw [← hr.heap] at hf
  have hcounts := hf.counts s.roots s.stats
  exact ⟨hcounts.before, hcounts.after, hcounts.live, hcounts.freed⟩

/-- **The collector's accounts balance.** In every world that programs come to, and in every
world in which they run a native, each engine has a history that explains its heap and its
statistics, and in it what was allocated successfully is live or was freed, and the count
since the last collection is of what was allocated since then. In such a world, what a
collection marks and what it frees are what was live, and what it marks is what is live
after its sweep. And whatever natives do when the objects are let go, a collection that
comes to an end hands back the statistics that it gave the engine before. -/
theorem Behaviour.collector_accounts (b : Behaviour κ) :
    (∀ w, b.Visits w → w.Accounted
        ∧ ∀ (α : Type) (depth : Nat) (p : Program κ α) (owned : List Local) (m' : Machine κ),
          (b.machine depth).Agrees m' (fun w₁ w₂ => w₁.Accounted ∧ w₂.Accounted)
              (fun w₁ w₂ => w₁.Accounted ∧ w₂.Accounted) →
            m'.run p owned w = (b.machine depth).run p owned w)
      ∧ ∀ (m : Machine κ) (w : World κ) (e : EngineId), w.Accounted →
          (w.engine e).loan = .none →
        (w.engine e).collected.stats.marked + (w.engine e).collected.stats.freed
            = (w.engine e).heap.live
          ∧ (w.engine e).collected.stats.marked = (w.engine e).collected.heap.live
          ∧ m.collect e w
            = (m.releaseAll ((w.engine e).heap.collect (w.engine e).roots (w.engine e).stats).1
                >>= fun _ => pure (w.engine e).collected.stats)
              (w.modifyEngine e Engine.collected) := by
  refine ⟨fun w hw => ?_, fun m w e hw hl => ?_⟩
  · have hlawful := hw.lawful Engine.recorded
    refine ⟨World.accounted_iff_lawful.2 hlawful, fun α depth p owned m' ha => ?_⟩
    simp only [World.accounted_iff_lawful] at ha
    exact (b.lawful_run hw.reachable.sound hlawful depth p owned).2 m' ha
  · obtain ⟨es, ha⟩ := hw e
    obtain ⟨hbefore, hafter, -, -⟩ := ha.toRecords.collected_counts
    exact ⟨hbefore, hafter, Machine.collect_of_allowsWrite m (decide_eq_true hl)⟩

/-- Natives that make an object and collect when they are finalised. -/
def Behaviour.wasteful : Behaviour Unit :=
  ⟨fun _ _ _ => .panic .noAnswer, fun _ => do
    let _ ← Program.op (.createObject ⟨0⟩)
    let _ ← Program.op (.collect ⟨0⟩)⟩

/-- The world after a program that makes a wrapper of such a native and leaves it behind. -/
def World.littered : World Unit :=
  ((Behaviour.wasteful.machine 1).run (do
    let host ← Program.op (.spawn (.custom ()))
    let _ ← Program.op (.createHost ⟨0⟩ host)) []).after {}

/-- **A collection inside another one**: letting go of the wrapper that is freed makes an
object and collects it. The engine has seen two collections then and freed two objects, but
what is handed back is that the first one freed one object, the only one that was live. -/
theorem Behaviour.collector_accounts_littered :
    ∃ stats w', (Behaviour.wasteful.machine 2).collect ⟨0⟩ World.littered = .ok stats w'
      ∧ stats.marked + stats.freed = (World.littered.engine ⟨0⟩).heap.live
      ∧ stats = ⟨1, 1, 0, 1, 0⟩ ∧ (w'.engine ⟨0⟩).stats = ⟨2, 2, 0, 1, 0⟩ := by
  obtain ⟨hvisits, hcollect⟩ := Behaviour.wasteful.collector_accounts
  have hw : World.littered.Accounted := (hvisits _ (.run .first 1 _ [])).1
  obtain ⟨hbefore, -, hequation⟩ :=
    hcollect (Behaviour.wasteful.machine 2) World.littered ⟨0⟩ hw (by decide +kernel)
  have hfinishes : ((Behaviour.wasteful.machine 2).collect ⟨0⟩).finishes World.littered
      (fun stats w' => decide (stats = ⟨1, 1, 0, 1, 0⟩
        ∧ (w'.engine ⟨0⟩).stats = ⟨2, 2, 0, 1, 0⟩)) = true := by decide +kernel
  obtain ⟨stats, w', hr, htest⟩ := Act.exists_of_finishes hfinishes
  obtain ⟨hstats, hengine⟩ := of_decide_eq_true htest
  refine ⟨stats, w', hr, ?_, hstats, hengine⟩
  -- what is handed back was fixed before anything was let go
  rw [hequation] at hr
  obtain ⟨_, _, _, hpure⟩ := Act.bind_eq_ok.1 hr
  rw [← (Act.pure_eq_ok.1 hpure).1]
  exact hbefore

end EmbeddedScript
