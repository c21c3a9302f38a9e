import EmbeddedScript.Proofs.Roots.Lifetime

/-!
# What live objects hold stays live

An object can come to hold a stale handle in one way only: somebody stores one in it. As
long as nobody does (`World.StoresCurrent`), every heap of every world that can come about
is intact, since every step is backed. An object that is placed holds what it was given,
and a host method the wrapper that its reading has pinned; storing adds the value that is
stored; and a collection that frees an object frees what holds it, too.

For the same reason a handle that an object holds does not come to denote another object
(`World.Step.identity?_of_held`). Its slot can be used again only after it was swept, and
by then the holder is gone as well.
-/

namespace EmbeddedScript.World

open Relation

variable {κ : Type} {w w' : World κ} {e : EngineId} {h k : Handle} {collects : Prop}

/-! ## Steps are backed -/

/-- A record of what was stored is never lost. -/
theorem StoresCurrent.of_reaches (hw' : w'.StoresCurrent) (hr : Reaches w w') :
    w.StoresCurrent := fun e vs hmem =>
  hw' e vs ((journal_suffix_of_reaches hr).subset hmem)

/-- **A move is backed** where nothing stale was ever stored. -/
theorem Move.backs (hm : Move collects w w') (hw : w.StoresCurrent) (e : EngineId) :
    (w.engine e).heap.Backs (w'.engine e).heap := by
  cases hm with
  | tended e' f hf hb =>
    exact rel_modifyEngine (R := fun s s' => s.heap.Backs s'.heap) (fun s => .refl s.heap)
      (hb hw) e
  | opened options =>
    rw [engine_addEngine]
    split
    case isTrue => exact Heap.backs_limit _ _
    case isFalse => exact .refl _
  | rooted e' v => exact heap_addRoot w e' e v ▸ .refl _
  | unrooted r =>
    rw [engine_dropRoot]
    split <;> exact .refl _
  | pinned e' v => exact heap_protect w e' e v ▸ .refl _
  | unpinned e' v => exact heap_unprotect w e' e v ▸ .refl _
  | recorded hn => exact .refl _
  | aside ha =>
    have he : w'.engine e = w.engine e := by rw [World.engine, ha.engines, ← World.engine]
    exact he ▸ .refl _

/-- **A step is backed** where nothing stale was ever stored. -/
theorem Step.backs (hs : Step w w') (hw : w.StoresCurrent) (e : EngineId) :
    (w.engine e).heap.Backs (w'.engine e).heap := by
  cases hs with
  | move hm => exact hm.backs hw e
  | pushed e' vs => exact heap_push w e' e vs ▸ .refl _
  | truncated e' height => exact heap_truncate w e' e height ▸ .refl _
  | lent e' loan => exact heap_lend w e' e loan ▸ .refl _

/-! ## Intact worlds -/

/-- **No live object holds anything stale**, in any engine. -/
def Intact (w : World κ) : Prop := ∀ e, (w.engine e).heap.Intact

theorem Intact.init : ({} : World κ).Intact := fun e => by
  rw [engine_init]
  exact Heap.intact_of_limit 0

/-- **What an object holds after a step** denotes the object that it denoted before. -/
theorem Step.identity?_of_held (hs : Step w w') (hw : w.Sound) (hi : w.Intact)
    (hc : w.StoresCurrent) (hk : k ∈ (w'.engine e).heap.edgesAt h) :
    ∃ i, w.identity? e k = some i ∧ w'.identity? e k = some i := by
  rcases hs.heap e with he | hchange
  · rw [he] at hk
    obtain ⟨i, hid⟩ := Heap.isLive_iff_exists_identity?.1 (hi e h k hk)
    exact ⟨i, hid, by rw [identity?, he]; exact hid⟩
  · exact hchange.identity?_of_held (hw e) (hi e) (hs.backs hc e) hk

/-- A step keeps a world intact. -/
theorem Intact.step (hi : w.Intact) (hw : w.Sound) (hc : w.StoresCurrent) (hs : Step w w') :
    w'.Intact := fun e h k hk => by
  obtain ⟨i, -, hid⟩ := hs.identity?_of_held hw hi hc hk
  exact Heap.isLive_iff_exists_identity?.2 ⟨i, hid⟩

/-- A run of steps keeps a world intact. -/
theorem Intact.reaches (hi : w.Intact) (hw : w.Sound) (hr : Reaches w w')
    (hc : w'.StoresCurrent) : w'.Intact := by
  induction hr with
  | refl => exact hi
  | tail hr hs ih =>
    have hc₁ := hc.of_reaches (.single hs)
    exact (ih hc₁).step (hw.reaches hr) hc₁ hs

/-- **Every world that can come about is intact** if nothing stale was ever stored. -/
theorem Reachable.intact (hw : w.Reachable) (hc : w.StoresCurrent) : w.Intact :=
  Intact.init.reaches .init hw hc

/-! ## What is held -/

/-- **The object holds the handle after every step** that leads from the one world to the
other. -/
abbrev Holds (e : EngineId) (h k : Handle) : World κ → World κ → Prop :=
  ReflTransGen fun w w' => Step w w' ∧ k ∈ (w'.engine e).heap.edgesAt h

theorem Holds.reaches (hh : Holds e h k w w') : Reaches w w' :=
  ReflTransGen.mono (fun _ _ hs => hs.1) _ _ hh

/-- **A handle denotes the object that was stored** for as long as it is held. -/
theorem Holds.identity?_eq (hh : Holds e h k w w') (hw : w.Reachable) (hc : w'.StoresCurrent) :
    w'.identity? e k = w.identity? e k := by
  induction hh with
  | refl => rfl
  | tail hh hs ih =>
    have hc₁ := hc.of_reaches (.single hs.1)
    have hw₁ : Reachable _ := hw.trans (Holds.reaches hh)
    obtain ⟨i, hid, hid'⟩ := hs.1.identity?_of_held hw₁.sound (hw₁.intact hc₁) hc₁ hs.2
    rw [hid', ← ih hc₁, hid]

end EmbeddedScript.World

namespace EmbeddedScript

variable {κ : Type}

/-- **No object holds anything stale**, as long as nothing stale is stored. Whatever
programs run, and whatever natives do while they run: every world they come to and every
world in which they run a native can come about. In every such world, if each value that
was stored was a primitive or live at that moment, then what a live object references – in
a property, an expando or an element, or as the wrapper of a host method – is a primitive
or live; and a handle denotes the object that it denoted when it was stored for as long as
an object holds it.

Nothing but stale values goes on record: to store values that are current where they are
stored is to change the heap, and no more. -/
theorem Behaviour.no_dangling_references (b : Behaviour κ) :
    (∀ (w : World κ), w.Reachable → ∀ (α : Type) (depth : Nat) (p : Program κ α)
        (owned : List Local),
      (((b.machine depth).run p owned).after w).Reachable
        ∧ ∀ m', (b.machine depth).Agrees m' (fun w₁ w₂ => w₁.Reachable ∧ w₂.Reachable)
              (fun w₁ w₂ => w₁.Reachable ∧ w₂.Reachable) →
            m'.run p owned w = (b.machine depth).run p owned w)
      ∧ (∀ (w : World κ), w.Reachable → w.StoresCurrent → ∀ (e : EngineId) (h : Handle)
          (o : HeapObject), (w.engine e).heap.get? h = some o →
        ∀ v ∈ o.references, (w.engine e).heap.isCurrent v = true)
      ∧ (∀ (w w' : World κ), w.Reachable → w'.StoresCurrent → ∀ (e : EngineId)
          (h k : Handle), World.Holds e h k w w' → w'.identity? e k = w.identity? e k)
      ∧ ∀ (w : World κ) (e : EngineId) (α : Type) (vs : List Value) (stored : α → Bool)
          (f : Heap → α × Heap), (stored (f (w.engine e).heap).1 = true →
            ∀ v ∈ vs, (w.engine e).heap.isCurrent v = true) →
        Act.storeHeap e vs stored f w = Act.writeHeap e f w := by
  refine ⟨fun w hw α depth p owned => b.reachable_run depth p owned hw, ?_, ?_, ?_⟩
  · exact fun w hw hc e h o ho v hv => (hw.intact hc e).isCurrent ho hv
  · exact fun w w' hw hc e h k hh => hh.identity?_eq hw hc
  · exact fun w e α vs stored f hv => Act.storeHeap_of_isCurrent hv

/-- The world after a program that makes an object, puts it into an array and roots the
array. -/
def World.shelved : World Unit :=
  ((Behaviour.idle.machine 1).run (do
    let _ ← Program.op (.createObject ⟨0⟩)
    let _ ← Program.op (.createArrayOf ⟨0⟩ [.object ⟨0, 0⟩])
    Program.op (.root ⟨0⟩ (.object ⟨1, 0⟩))) []).after {}

/-- An object that only an array holds is live, and is the same object when the heap was
collected, as long as the array is rooted. -/
theorem Behaviour.no_dangling_references_shelved :
    (World.shelved.engine ⟨0⟩).heap.isCurrent (.object ⟨0, 0⟩) = true
      ∧ (World.shelved.modifyEngine ⟨0⟩ fun s =>
          { s with heap := (s.heap.collect s.roots s.stats).2.1 }).identity? ⟨0⟩ ⟨0, 0⟩
        = World.shelved.identity? ⟨0⟩ ⟨0, 0⟩ := by
  obtain ⟨hruns, hcurrent, hsame, -⟩ := Behaviour.idle.no_dangling_references
  have hw : World.shelved.Reachable := (hruns {} .refl Root 1 _ []).1
  have hj : World.shelved.journal = [] := by decide +kernel
  have hc : World.shelved.StoresCurrent := fun e vs hmem => by
    rw [hj] at hmem
    exact nomatch hmem
  have hs : World.shelved.Step (World.shelved.modifyEngine ⟨0⟩ fun s =>
      { s with heap := (s.heap.collect s.roots s.stats).2.1 }) :=
    .move (.tended ⟨0⟩ _
      ⟨.inr (.collected trivial (World.shelved.engine ⟨0⟩).stats), rfl, rfl⟩
      fun _ => Heap.backs_collect _ _ (World.shelved.engine ⟨0⟩).stats)
  refine ⟨?_, ?_⟩
  · exact hcurrent _ hw hc ⟨0⟩ ⟨1, 0⟩ (.array #[some (.object ⟨0, 0⟩)]) (by decide +kernel) _
      (List.mem_singleton.2 rfl)
  · refine hsame World.shelved _ hw ?_ ⟨0⟩ ⟨1, 0⟩ ⟨0, 0⟩ (.single ⟨hs, by decide +kernel⟩)
    exact hc

end EmbeddedScript
