import Mathlib.Data.Multiset.AddSub
import Mathlib.Data.Set.Card
import Mathlib.Logic.Relation
import EmbeddedScript.Proofs.Heap.Exactness

/-!
# Marking turn by turn

A marking pass takes a pending handle, marks what it denotes, and puts the handles that the
object holds among those pending. Which of them it takes next is a matter of how they are
kept – the pass that is computed (`Heap.markFrom`) takes the one at the front – and should
not matter. So the pending handles are a multiset here, and **a turn takes any of them**.

The work is then exact in every order. Each turn takes one handle away and the handles of an
object get onto the list only when it is marked, so what was looked at and what is pending
together are the roots and the edges of the objects that were traced (`Pass.Explores`); and
no object is traced twice, since tracing marks it. A pass that has nothing left has traced
just what is reachable, and this fixes both of its counts, however often a handle was among
the roots and whether or not it was stale.

That a pass comes to its end is the measure by which `Heap.markFrom` is defined: the edges
of the unmarked objects and the pending handles are together one less after each turn.
-/

namespace EmbeddedScript

namespace Heap

/-- **How far a marking pass has got.** -/
structure Pass where
  /-- The heap with the marks made so far. -/
  heap : Heap
  /-- The handles to be looked at. -/
  pending : Multiset Handle
  /-- The handles whose objects were marked and traced, the last one first. -/
  traced : List Handle
  /-- The number of handles that were looked at. -/
  visits : Nat

namespace Pass

/-- A pass that begins with these handles. -/
def start (heap : Heap) (roots : List Handle) : Pass := ⟨heap, roots, [], 0⟩

/-- **A turn**: any of the pending handles is looked at. -/
inductive Turn : Pass → Pass → Prop
  /-- It is stale or its object is marked, and it is passed over. -/
  | pass {heap : Heap} {h : Handle} {rest : Multiset Handle} {traced : List Handle} {visits : Nat}
      (hm : heap.mark? h = none) :
      Turn ⟨heap, h ::ₘ rest, traced, visits⟩ ⟨heap, rest, traced, visits + 1⟩
  /-- Its object is marked and traced: the handles that it holds become pending. -/
  | trace {heap heap' : Heap} {h : Handle} {rest : Multiset Handle} {traced : List Handle}
      {visits : Nat} (hm : heap.mark? h = some heap') :
      Turn ⟨heap, h ::ₘ rest, traced, visits⟩
        ⟨heap', heap'.edgesAt h + rest, h :: traced, visits + 1⟩

/-- **Turns**, any number of them. -/
def Turns : Pass → Pass → Prop := Relation.ReflTransGen Turn

/-- The pass has nothing left to look at. -/
def Done (p : Pass) : Prop := p.pending = 0

variable {heap : Heap} {roots : List Handle} {p q : Pass} {h k : Handle}

/-- A pass that is not done can take a turn. -/
theorem exists_turn (hp : ¬ p.Done) : ∃ q, Turn p q := by
  obtain ⟨heap, pending, traced, visits⟩ := p
  obtain ⟨h, hmem⟩ := Multiset.exists_mem_of_ne_zero hp
  obtain ⟨rest, rfl⟩ := Multiset.exists_cons_of_mem hmem
  cases hm : heap.mark? h with
  | none => exact ⟨_, .pass hm⟩
  | some heap' => exact ⟨_, .trace hm⟩

/-- A turn leaves one less to do. -/
theorem Turn.work (ht : Turn p q) :
    q.heap.work + q.pending.card + 1 = p.heap.work + p.pending.card := by
  cases ht with
  | pass hm => rw [Multiset.card_cons, add_assoc]
  | @trace heap heap' h rest traced visits hm =>
    have hwork := work_of_mark? hm
    simp only [Multiset.card_add, Multiset.card_cons, Multiset.coe_card]
    omega

/-- **No pass goes on for ever**, whichever handles it takes. -/
theorem wellFounded_turn : WellFounded fun q p => Turn p q :=
  Subrelation.wf (fun ht => Nat.lt_of_succ_le ht.work.le)
    (measure fun p : Pass => p.heap.work + p.pending.card).wf

/-! ## What a pass has done so far -/

/-- The handle is among those that were traced or are pending. -/
def Seen (p : Pass) (h : Handle) : Prop := h ∈ p.traced ∨ h ∈ p.pending

/-- **The invariant of a pass** that began in a heap without marks. Nothing but marks has
changed, and what is marked was traced, once; what is live among the pending handles is
reachable, and so is all that was traced; the roots and what the traced objects hold have
been seen; and **what was looked at and what is pending are the roots and the edges traced.** -/
structure Explores (heap : Heap) (roots : List Handle) (p : Pass) : Prop where
  same : p.heap.unmarkAll = heap.unmarkAll
  isMarked_iff : ∀ h, p.heap.isMarked h = true ↔ h ∈ p.traced
  nodup : p.traced.Nodup
  reaches : ∀ h, p.Seen h → heap.isLive h = true → heap.Reaches roots h
  seesRoots : ∀ h ∈ roots, heap.isLive h = true → p.Seen h
  seesEdges : ∀ h ∈ p.traced, ∀ k ∈ heap.edgesAt h, heap.isLive k = true → p.Seen k
  visits : p.visits + p.pending.card
    = roots.length + (p.traced.map fun h => (heap.edgesAt h).length).sum

theorem explores_start (hclear : ∀ h, heap.isMarked h = false) :
    (start heap roots).Explores heap roots where
  same := rfl
  isMarked_iff h := by simp [start, hclear]
  nodup := List.nodup_nil
  reaches h hs hl := hs.elim (fun hm => nomatch hm) fun hm => .start (Multiset.mem_coe.1 hm) hl
  seesRoots h hm _ := .inr (Multiset.mem_coe.2 hm)
  seesEdges h hm := nomatch hm
  visits := by simp [start]

/-- What has been traced is live. -/
theorem Explores.isLive (hp : p.Explores heap roots) (hm : h ∈ p.traced) :
    heap.isLive h = true := by
  have hlive := isLive_of_isMarked ((hp.isMarked_iff h).2 hm)
  rwa [Heap.isLive, occupant?_eq_of_unmarkAll_eq hp.same] at hlive

/-- **A turn keeps the invariant.** -/
theorem Explores.turn (hp : p.Explores heap roots) (ht : Turn p q) : q.Explores heap roots := by
  have hlive : ∀ h, p.heap.isLive h = heap.isLive h := fun h => by
    rw [Heap.isLive, occupant?_eq_of_unmarkAll_eq hp.same, Heap.isLive]
  cases ht with
  | @pass now h rest traced visits hm =>
    -- what is passed over and live is marked, so that it was traced before
    have hseen : ∀ k, heap.isLive k = true → (Seen ⟨now, h ::ₘ rest, traced, visits⟩ k
        ↔ Seen ⟨now, rest, traced, visits + 1⟩ k) := by
      intro k hl
      constructor
      · rintro (hk | hk)
        · exact .inl hk
        · rcases Multiset.mem_cons.1 hk with rfl | hk
          · exact .inl ((hp.isMarked_iff k).1 (isMarked_of_mark?_eq_none hm (hlive k ▸ hl)))
          · exact .inr hk
      · exact Or.imp_right (Multiset.mem_cons_of_mem ·)
    exact
      { same := hp.same
        isMarked_iff := hp.isMarked_iff
        nodup := hp.nodup
        reaches := fun k hk hl => hp.reaches k ((hseen k hl).2 hk) hl
        seesRoots := fun k hk hl => (hseen k hl).1 (hp.seesRoots k hk hl)
        seesEdges := fun k hk t ht hl => (hseen t hl).1 (hp.seesEdges k hk t ht hl)
        visits := by
          have := hp.visits
          rw [Multiset.card_cons] at this
          simp only at this ⊢
          omega }
  | @trace now heap' h rest traced visits hm =>
    obtain ⟨hl, rfl⟩ := isLive_of_mark? hm
    have hsame : (now.markSlot h.index).unmarkAll = heap.unmarkAll :=
      (unmarkAll_markSlot now h.index).trans hp.same
    have hedges : (now.markSlot h.index).edgesAt h = heap.edgesAt h :=
      edgesAt_eq_of_unmarkAll_eq hsame h
    have hfresh : h ∉ traced := fun hmem => by
      have := (hp.isMarked_iff h).2 hmem
      rw [isMarked_of_mark?_eq_some hm] at this
      exact Bool.noConfusion this
    have hself : heap.Reaches roots h :=
      hp.reaches h (.inr (Multiset.mem_cons_self h rest)) (hlive h ▸ hl)
    have hseen : ∀ k, Seen ⟨now, h ::ₘ rest, traced, visits⟩ k →
        Seen ⟨now.markSlot h.index, (now.markSlot h.index).edgesAt h + rest, h :: traced,
          visits + 1⟩ k := by
      rintro k (hk | hk)
      · exact .inl (List.mem_cons_of_mem h hk)
      · rcases Multiset.mem_cons.1 hk with rfl | hk
        · exact .inl List.mem_cons_self
        · exact .inr (Multiset.mem_add.2 (.inr hk))
    exact
      { same := hsame
        isMarked_iff := fun k =>
          (isMarked_markSlot_iff hl).trans ((or_congr_right (hp.isMarked_iff k)).trans
            List.mem_cons.symm)
        nodup := List.nodup_cons.2 ⟨hfresh, hp.nodup⟩
        reaches := by
          rintro k (hk | hk) hlk
          · rcases List.mem_cons.1 hk with rfl | hk
            · exact hself
            · exact hp.reaches k (.inl hk) hlk
          · rcases Multiset.mem_add.1 hk with hk | hk
            · exact hself.edge (hedges ▸ Multiset.mem_coe.1 hk) hlk
            · exact hp.reaches k (.inr (Multiset.mem_cons_of_mem hk)) hlk
        seesRoots := fun k hk hlk => hseen k (hp.seesRoots k hk hlk)
        seesEdges := fun k hk t ht hlt => by
          rcases List.mem_cons.1 hk with rfl | hk
          · exact .inr (Multiset.mem_add.2 (.inl (Multiset.mem_coe.2 (hedges.symm ▸ ht))))
          · exact hseen t (hp.seesEdges k hk t ht hlt)
        visits := by
          have := hp.visits
          simp only [Multiset.card_cons, Multiset.card_add, Multiset.coe_card, List.map_cons,
            List.sum_cons, hedges] at this ⊢
          omega }

/-- What a pass has done so far, after any turns. -/
theorem Turns.explores (hclear : ∀ h, heap.isMarked h = false)
    (hp : Turns (start heap roots) p) : p.Explores heap roots := by
  induction hp with
  | refl => exact explores_start hclear
  | tail _ ht ih => exact ih.turn ht

/-- **A pass that is done has traced just what is reachable.** -/
theorem Explores.mem_traced_iff (hp : p.Explores heap roots) (hdone : p.Done) :
    h ∈ p.traced ↔ heap.Reaches roots h := by
  have hseen : ∀ {k}, p.Seen k → k ∈ p.traced := fun hk =>
    hk.resolve_right (hdone ▸ Multiset.notMem_zero _)
  constructor
  · exact fun hm => hp.reaches h (.inl hm) (hp.isLive hm)
  · intro hr
    induction hr with
    | start hm hl => exact hseen (hp.seesRoots _ hm hl)
    | edge _ he hl ih => exact hseen (hp.seesEdges _ ih _ he hl)

/-- **The pass that is computed** takes the handle at the front, and is done. -/
theorem turns_markFrom (heap : Heap) (pending traced : List Handle) (visits : Nat) :
    ∃ traced', traced'.length = traced.length + (heap.markFrom pending).marked
      ∧ Turns ⟨heap, pending, traced, visits⟩
        ⟨(heap.markFrom pending).heap, 0, traced', visits + (heap.markFrom pending).visits⟩ := by
  induction heap, pending using markFrom.induct generalizing traced visits with
  | case1 heap =>
    rw [markFrom_nil]
    exact ⟨traced, rfl, .refl⟩
  | case2 heap h rest hm ih =>
    rw [markFrom_cons_of_none hm, ← Multiset.cons_coe]
    obtain ⟨traced', hlength, hturns⟩ := ih traced (visits + 1)
    refine ⟨traced', hlength, .head (.pass hm) ?_⟩
    rwa [Nat.add_right_comm, Nat.add_assoc] at hturns
  | case3 heap h rest heap' hm ih =>
    rw [markFrom_cons_of_some hm, ← Multiset.cons_coe]
    obtain ⟨traced', hlength, hturns⟩ := ih (h :: traced) (visits + 1)
    rw [← Multiset.coe_add] at hturns
    refine ⟨traced', ?_, .head (.trace hm) ?_⟩
    · rw [hlength, List.length_cons, Nat.add_right_comm, Nat.add_assoc]
    · rwa [Nat.add_right_comm, Nat.add_assoc] at hturns

/-- **The work of a marking pass is exact.** From a heap without marks, and whatever handles
it begins with, the pass comes to its end, and:

* it looked at as many handles as it began with and as are held by the objects that it
  traced, which are those that it marked, each of them traced once;
* these are the objects that are reachable, and it marked as many as there are;
* none of this depends on the order: a pass that takes any of the pending handles in each
  turn does not go on for ever, can take a turn until nothing is pending, and then has traced
  the same objects, looked at the same number of handles and set the same marks. -/
theorem marking_work (hclear : ∀ h, heap.isMarked h = false) (roots : List Handle) :
    ∃ traced : List Handle,
      Turns (start heap roots)
        ⟨(heap.markFrom roots).heap, 0, traced, (heap.markFrom roots).visits⟩
      ∧ traced.Nodup
      ∧ (∀ h, h ∈ traced ↔ heap.Reaches roots h)
      ∧ (∀ h, (heap.markFrom roots).heap.isMarked h = true ↔ h ∈ traced)
      ∧ (heap.markFrom roots).visits
        = roots.length + (traced.map fun h => (heap.edgesAt h).length).sum
      ∧ (heap.markFrom roots).marked = traced.length
      ∧ (heap.markFrom roots).marked = {h | heap.Reaches roots h}.ncard
      ∧ Acc (fun q p => Turn p q) (start heap roots)
      ∧ ∀ p, Turns (start heap roots) p →
        (¬ p.Done → ∃ q, Turn p q)
        ∧ (p.Done → p.traced.Perm traced ∧ p.visits = (heap.markFrom roots).visits
          ∧ ∀ h, p.heap.isMarked h = (heap.markFrom roots).heap.isMarked h) := by
  obtain ⟨traced, hlength, hturns⟩ := turns_markFrom heap roots [] 0
  rw [List.length_nil, Nat.zero_add] at hlength
  rw [Nat.zero_add] at hturns
  have hdone := Turns.explores hclear hturns
  have hvisits : ∀ {p : Pass}, p.Explores heap roots → p.Done →
      p.visits = roots.length + (p.traced.map fun h => (heap.edgesAt h).length).sum :=
    fun hp h => by
      have := hp.visits
      rwa [h, Multiset.card_zero, Nat.add_zero] at this
  have hmem : ∀ h, h ∈ traced ↔ heap.Reaches roots h := fun h => hdone.mem_traced_iff rfl
  have hcard : {h | heap.Reaches roots h}.ncard = traced.length := by
    have hset : {h | heap.Reaches roots h} = (traced.toFinset : Set Handle) :=
      Set.ext fun h => (hmem h).symm.trans (by simp)
    rw [hset, Set.ncard_coe_finset, List.toFinset_card_of_nodup hdone.nodup]
  refine ⟨traced, hturns, hdone.nodup, hmem, hdone.isMarked_iff, hvisits hdone rfl,
    hlength.symm, hlength.symm.trans hcard.symm, wellFounded_turn.apply _, fun p hp => ?_⟩
  have hexplores := Turns.explores hclear hp
  refine ⟨exists_turn, fun h => ?_⟩
  have hperm : p.traced.Perm traced := (List.perm_ext_iff_of_nodup hexplores.nodup hdone.nodup).2
    fun k => (hexplores.mem_traced_iff h).trans (hmem k).symm
  refine ⟨hperm, ?_, fun k => ?_⟩
  · rw [hvisits hexplores h, (hperm.map _).sum_eq]
    exact (hvisits hdone rfl).symm
  · rw [Bool.eq_iff_iff, hexplores.isMarked_iff, hdone.isMarked_iff, hperm.mem_iff]

/-- Two objects that hold each other, the one twice and itself as well, and a slot that was
used before. -/
def tangled : Heap where
  slots := #[
    { occupant := some ⟨0, .array #[some (.object ⟨1, 0⟩), some (.object ⟨1, 0⟩)]⟩ },
    { occupant := some ⟨1, .array #[some (.object ⟨0, 0⟩), some (.object ⟨1, 0⟩)]⟩ },
    { occupant := some ⟨3, .array #[some (.object ⟨0, 0⟩)]⟩, generation := 1 }]
  live := 3
  births := 4

/-- A repeated root, a stale one and one that is out of range are looked at, and add nothing
to what is marked. -/
theorem marking_work_tangled :
    (tangled.markFrom [⟨0, 0⟩, ⟨2, 0⟩, ⟨0, 0⟩, ⟨7, 0⟩]).marked = 2
      ∧ (tangled.markFrom [⟨0, 0⟩, ⟨2, 0⟩, ⟨0, 0⟩, ⟨7, 0⟩]).visits = 8
      ∧ {h | tangled.Reaches [⟨0, 0⟩, ⟨2, 0⟩, ⟨0, 0⟩, ⟨7, 0⟩] h}.ncard = 2 := by
  have hsame : tangled = tangled.unmarkAll := by decide +kernel
  have hclear : ∀ h, tangled.isMarked h = false := fun h => hsame ▸ isMarked_unmarkAll tangled h
  have hmarked : (tangled.markFrom [⟨0, 0⟩, ⟨2, 0⟩, ⟨0, 0⟩, ⟨7, 0⟩]).marked = 2 := by
    decide +kernel
  have hvisits : (tangled.markFrom [⟨0, 0⟩, ⟨2, 0⟩, ⟨0, 0⟩, ⟨7, 0⟩]).visits = 8 := by
    decide +kernel
  obtain ⟨_, -, -, -, -, -, -, hcard, -⟩ :=
    marking_work hclear [⟨0, 0⟩, ⟨2, 0⟩, ⟨0, 0⟩, ⟨7, 0⟩]
  exact ⟨hmarked, hvisits, hcard.symm.trans hmarked⟩

end Pass

end Heap

end EmbeddedScript
