import EmbeddedScript.Proofs.Heap.Census
import EmbeddedScript.Proofs.Heap.Exactness
import EmbeddedScript.Proofs.Machine.Laws

/-!
# Safepoints keep pace

A program that makes objects calls its engine's safepoint now and then, and the safepoint
collects once the heap has counted as many allocations as the threshold says. The count is
kept in three places: placing an object adds one, a sweep sets it to zero, and the safepoint
compares it. **If there is a safepoint after each allocation, every collection comes exactly a
threshold after the last one**, so what the collections and the count add up to is what was
allocated (`Machine.Rounds.count`).

That bounds the heap. A collection leaves as many objects as rooted handles reach, and what is
live after that is no more than these and what has been counted since (`Machine.Rounds.live`).

Between the sweep and the safepoint's answer what was freed is let go, and natives may be
finalised that drop roots, lock the engine or collect again. What they make of an engine is
**owed to births** (`Engine.Counting`): it is a course of engines, so that they follow it
whatever they do, and if no object is born meanwhile the engine is counted as the sweep left
it.
-/

namespace EmbeddedScript

variable {κ : Type}

namespace Engine

variable {s s' s'' : Engine}

/-- **A safepoint collects now**: as many objects were allocated since the last collection as
the threshold says, which is not zero. -/
def IsDue (s : Engine) : Prop :=
  0 < s.options.gcThreshold ∧ s.options.gcThreshold ≤ s.heap.sinceCollection

instance (s : Engine) : Decidable s.IsDue := inferInstanceAs (Decidable (_ ∧ _))

/-- **The number of objects that rooted handles reach.** -/
noncomputable def reached (s : Engine) : Nat := {h | s.heap.Reaches s.roots.handles h}.ncard

/-- The heap is true to its slots. -/
def IsFaithful (s : Engine) : Prop := ∃ limit most, s.heap.Faithful limit most

/-- The engine with one more object. -/
def placing (s : Engine) (o : HeapObject) : Engine := { s with heap := (s.heap.place o).2 }

@[simp] theorem options_placing (s : Engine) (o : HeapObject) :
    (s.placing o).options = s.options := rfl

@[simp] theorem stats_placing (s : Engine) (o : HeapObject) : (s.placing o).stats = s.stats := rfl

@[simp] theorem sinceCollection_placing (s : Engine) (o : HeapObject) :
    (s.placing o).heap.sinceCollection = s.heap.sinceCollection + 1 :=
  s.heap.sinceCollection_place o

@[simp] theorem live_placing (s : Engine) (o : HeapObject) :
    (s.placing o).heap.live = s.heap.live + 1 :=
  Heap.live_place s.heap o

@[simp] theorem limit_placing (s : Engine) (o : HeapObject) :
    (s.placing o).heap.limit = s.heap.limit :=
  s.heap.limit_place o

/-- A collection leaves the heap true to its slots. -/
theorem IsFaithful.collected (hf : s.IsFaithful) : s.collected.IsFaithful := by
  obtain ⟨_, _, hf⟩ := hf
  exact ⟨_, _, hf.collect s.roots s.stats⟩

/-- **What a collection leaves live is what rooted handles reached.** -/
theorem IsFaithful.live_collected (hf : s.IsFaithful) : s.collected.heap.live = s.reached := by
  obtain ⟨_, _, hf⟩ := hf
  exact hf.live_collect s.roots s.stats

/-- A collection is no birth. -/
theorem births_collected (s : Engine) : s.collected.heap.births = s.heap.births :=
  Heap.births_collect s.heap s.roots s.stats

/-- It keeps to the limit that there is. -/
theorem limit_collected (s : Engine) : s.collected.heap.limit = s.heap.limit :=
  Heap.limit_collect s.heap s.roots s.stats

/-- **What becomes of an engine is owed to births**: what is live or counted since the last
collection is no more than there was, except for what was born. -/
structure Counting (s s' : Engine) : Prop where
  /-- Births are never taken back. -/
  births : s.heap.births ≤ s'.heap.births
  /-- What is counted besides was born. -/
  since : s'.heap.sinceCollection + s.heap.births ≤ s.heap.sinceCollection + s'.heap.births
  /-- What is live besides was born. -/
  live : s'.heap.live + s.heap.births ≤ s.heap.live + s'.heap.births
  /-- Collections are never taken back. -/
  collections : s.stats.collections ≤ s'.stats.collections
  /-- An engine that has had an object was made, and is not made again. -/
  kept : 0 < s.heap.births → s'.options = s.options ∧ s'.heap.limit = s.heap.limit
  /-- The heap stays true to its slots. -/
  faithful : s.IsFaithful → s'.IsFaithful

theorem Counting.trans (h : s.Counting s') (h' : s'.Counting s'') : s.Counting s'' where
  births := h.births.trans h'.births
  since := by have := h.since; have := h'.since; omega
  live := by have := h.live; have := h'.live; omega
  collections := h.collections.trans h'.collections
  kept hb := by
    obtain ⟨ho, hl⟩ := h.kept hb
    obtain ⟨ho', hl'⟩ := h'.kept (hb.trans_le h.births)
    exact ⟨ho'.trans ho, hl'.trans hl⟩
  faithful := h'.faithful ∘ h.faithful

/-- **Every engine keeps count**, whatever operations make of it. -/
def counting : Engine.Course where
  Leads := Counting
  trans := Counting.trans
  new options := {
    births := Nat.le_refl _
    since := Nat.le_refl _
    live := Nat.le_refl _
    collections := Nat.le_refl _
    kept := fun hb => absurd hb (Nat.lt_irrefl _)
    faithful := fun _ => ⟨_, _, .of_limit options.maxHeapObjects⟩ }
  congr ho hh hs := {
    births := by rw [hh]
    since := by rw [hh]
    live := by rw [hh]
    collections := by rw [hs]
    kept := fun _ => ⟨ho, by rw [hh]⟩
    faithful := fun hf => by rwa [IsFaithful, hh] }
  placed {s o} _ hroom _ := {
    births := by rw [Heap.births_place]; omega
    since := by rw [Heap.births_place, Heap.sinceCollection_place]; omega
    live := by rw [Heap.births_place, Heap.live_place]; omega
    collections := Nat.le_refl _
    kept := fun _ => ⟨rfl, Heap.limit_place _ _⟩
    faithful := fun ⟨_, _, hf⟩ => ⟨_, _, hf.place hroom o⟩ }
  stored {s h o o'} _ _ _ := {
    births := by rw [Heap.births_put]
    since := by rw [Heap.births_put, Heap.sinceCollection_put]
    live := by rw [Heap.births_put, Heap.live_put]
    collections := Nat.le_refl _
    kept := fun _ => ⟨rfl, Heap.limit_put _ _ _⟩
    faithful := fun ⟨_, _, hf⟩ => ⟨_, _, hf.put h o'⟩ }
  collected {s} _ := {
    births := by rw [births_collected]
    since := by
      rw [births_collected]
      exact Nat.add_le_add_right (Nat.zero_le _) _
    live := by
      rw [births_collected]
      exact Nat.add_le_add_right (Heap.live_collect_le s.heap s.roots s.stats) _
    collections := Nat.le_succ _
    kept := fun _ => ⟨rfl, s.limit_collected⟩
    faithful := IsFaithful.collected }

end Engine

/-- Worlds stay sound when an engine gets a sound heap. -/
theorem World.Sound.modifyEngine {w : World κ} {e : EngineId} {f : Engine → Engine}
    (hw : w.Sound) (hf : (f (w.engine e)).heap.Sound) : (w.modifyEngine e f).Sound := fun e' => by
  rw [World.engine_modifyEngine]
  split
  · exact hf
  · exact hw e'

namespace Machine

open Act

variable {m : Machine κ} {e : EngineId} {w w' : World κ} {a : Attempt κ Value} {x : Bool}

/-! ## Creations -/

/-- **A creation**: it offers the heap one object that the heap can hold. -/
inductive Creation (m : Machine κ) (e : EngineId) (w : World κ) : Attempt κ Value → Prop
  /-- An object of any kind. -/
  | one {o : HeapObject} (ho : (w.engine e).heap.CanHold o) : Creation m e w (m.allocate e o)
  /-- An array of items. -/
  | arrayOf (items : List Value) : Creation m e w (m.createArrayOf e items)

namespace Creation

/-- Nobody else has the heap. -/
theorem loan_of_ok {r : Except EngineError Value} (ha : m.Creation e w a)
    (h : a.run w = .ok r w') : (w.engine e).loan = .none := by
  cases ha with
  | one _ =>
    obtain ⟨_, _, hoffer, -⟩ := bind_eq_ok.1 h
    exact loan_of_writeHeap hoffer
  | arrayOf items =>
    obtain ⟨_, _, hoffer, -⟩ := bind_eq_ok.1 h
    obtain ⟨hl, -⟩ := eq_of_storeHeap hoffer
    exact hl

/-- **The heap is offered an object**, and what the creation comes to is what is made of the
heap's answer. -/
theorem run_eq (ha : m.Creation e w a) (hl : (w.engine e).loan = .none) :
    ∃ o w₁, (w.engine e).heap.CanHold o
      ∧ a.run w = m.taken e o (offer o (w.engine e).heap).1 w₁
      ∧ w₁.engine = (w.modifyEngine e fun s => { s with heap := (offer o s.heap).2 }).engine := by
  cases ha with
  | @one o ho =>
    refine ⟨o, _, ho, bind_of_ok (writeHeap_of_allowsWrite (decide_eq_true hl) (offer o)),
      congrArg _ (World.modifyEngine_congr rfl)⟩
  | arrayOf items =>
    refine ⟨.array (Elements.ofList items), _, canHold_of_ne nofun,
      bind_of_ok (storeHeap_of_allowsWrite (decide_eq_true hl) items _ _), funext fun e' => ?_⟩
    simp only [World.engine_modifyEngine, World.engine_recordStale]

/-- **What a creation came to**: the heap had room for the object, or a reason to refuse it. -/
theorem outcome {r : Except EngineError Value} (ha : m.Creation e w a) (h : a.run w = .ok r w') :
    (∃ v o, r = .ok v ∧ (w.engine e).heap.refusal? = none ∧ (w.engine e).heap.CanHold o
        ∧ w'.engine = (w.modifyEngine e (·.placing o)).engine)
      ∨ ∃ err, r = .error err ∧ (w.engine e).heap.refusal? = some err := by
  obtain ⟨o, w₁, ho, hrun, hengine⟩ := ha.run_eq (ha.loan_of_ok h)
  rw [hrun] at h
  cases hr : (w.engine e).heap.refusal? with
  | none =>
    rw [offer_of_room hr] at h
    obtain ⟨rfl, rfl⟩ := pure_eq_ok.1 h
    refine .inl ⟨_, o, rfl, rfl, ho, hengine.trans (congrArg _ (World.modifyEngine_congr ?_))⟩
    rw [offer_of_room hr]
    rfl
  | some err =>
    rw [offer_of_refusal hr] at h
    obtain ⟨_, _, -, h⟩ := bind_eq_ok.1 h
    obtain ⟨rfl, -⟩ := pure_eq_ok.1 h
    exact .inr ⟨err, rfl, rfl⟩

/-- **A creation that succeeds places one object**, and touches nothing else of the engines. -/
theorem placed {v : Value} (ha : m.Creation e w a) (h : a.run w = .ok (.ok v) w') :
    (w.engine e).heap.refusal? = none ∧ ∃ o, (w.engine e).heap.CanHold o
      ∧ w'.engine = (w.modifyEngine e (·.placing o)).engine := by
  rcases ha.outcome h with ⟨_, o, -, hroom, ho, hengine⟩ | ⟨err, herr, -⟩
  · exact ⟨hroom, o, ho, hengine⟩
  · cases herr

/-- One that fails was refused the object. -/
theorem refusal?_eq {err : EngineError} (ha : m.Creation e w a)
    (h : a.run w = .ok (.error err) w') : (w.engine e).heap.refusal? = some err := by
  rcases ha.outcome h with ⟨_, _, hok, -⟩ | ⟨_, herr, hr⟩
  · cases hok
  · cases herr
    exact hr

/-- **Where there is room, a creation succeeds.** -/
theorem exists_of_room (ha : m.Creation e w a) (hl : (w.engine e).loan = .none)
    (hr : (w.engine e).heap.refusal? = none) : ∃ v w₁, a.run w = .ok (.ok v) w₁ := by
  obtain ⟨o, w₁, -, hrun, -⟩ := ha.run_eq hl
  rw [offer_of_room hr] at hrun
  exact ⟨_, w₁, hrun⟩

end Creation

/-! ## Safepoints -/

/-- **What a safepoint does**: if the engine is due it is collected and what is freed is let
go, and otherwise nothing happens. -/
theorem safepoint_eq (m : Machine κ) (hl : (w.engine e).loan = .none) :
    m.safepoint e w = if (w.engine e).IsDue then
      (m.releaseAll ((w.engine e).heap.collect (w.engine e).roots (w.engine e).stats).1
        >>= fun _ => pure true) (w.modifyEngine e Engine.collected)
      else .ok false w := by
  refine (bind_of_ok (a := Act.view fun w => (w.engine e).options.gcThreshold) rfl).trans ?_
  by_cases hzero : (w.engine e).options.gcThreshold = 0
  · exact (congrFun (if_pos hzero) w).trans (if_neg fun hdue => Nat.ne_of_gt hdue.1 hzero).symm
  refine (congrFun (if_neg hzero) w).trans ?_
  refine (bind_of_ok (readHeap_of_allowsRead (by rw [hl]; rfl) (·.sinceCollection))).trans ?_
  by_cases hlt : (w.engine e).heap.sinceCollection < (w.engine e).options.gcThreshold
  · exact (congrFun (if_pos hlt) w).trans (if_neg fun hdue => Nat.not_lt.2 hdue.2 hlt).symm
  refine (congrFun (if_neg hlt) w).trans ?_
  rw [if_pos ⟨Nat.pos_of_ne_zero hzero, Nat.le_of_not_lt hlt⟩]
  -- what the collection hands back is passed over
  have hcollect := collect_of_allowsWrite m (decide_eq_true hl)
  show EStateM.bind (EStateM.map _ (m.collect e)) _ w = EStateM.bind _ _ _
  simp only [EStateM.bind, EStateM.map, hcollect, bind]
  cases m.releaseAll _ _ <;> rfl

/-- **What a safepoint came to.** -/
theorem safepoint_cases (hl : (w.engine e).loan = .none) (h : m.safepoint e w = .ok x w') :
    (¬ (w.engine e).IsDue ∧ x = false ∧ w' = w)
      ∨ ((w.engine e).IsDue ∧ x = true
        ∧ m.releaseAll ((w.engine e).heap.collect (w.engine e).roots (w.engine e).stats).1
            (w.modifyEngine e Engine.collected) = .ok () w') := by
  rw [safepoint_eq m hl] at h
  split at h
  case isTrue hdue =>
    obtain ⟨_, _, hrelease, h⟩ := bind_eq_ok.1 h
    obtain ⟨rfl, rfl⟩ := pure_eq_ok.1 h
    exact .inr ⟨hdue, rfl, hrelease⟩
  case isFalse hdue =>
    cases h
    exact .inl ⟨hdue, rfl, rfl⟩

end Machine

/-! ## Rounds -/

/-- **A round**: a creation and a safepoint after it. -/
structure Round (κ : Type) where
  /-- The world after the creation. -/
  allocated : World κ
  /-- The safepoint says that it collected. -/
  collected : Bool
  /-- The world after the safepoint. -/
  after : World κ

/-- A round more is a collection more, or none. -/
theorem Round.countP_snoc (rs : List (Round κ)) (r : Round κ) :
    (rs ++ [r]).countP (·.collected) = rs.countP (·.collected) + r.collected.toNat := by
  rw [List.countP_append, List.countP_singleton]
  cases r.collected <;> rfl

namespace Machine

/-- **The machine takes a round.** The creation succeeds, the safepoint comes to an answer, and
what it lets go of makes no object. -/
structure Takes (m : Machine κ) (e : EngineId) (w : World κ) (r : Round κ) : Prop where
  /-- An object is created. -/
  creates : ∃ a v, m.Creation e w a ∧ a.run w = .ok (.ok v) r.allocated
  /-- Then there is a safepoint. -/
  safepoint : m.safepoint e r.allocated = .ok r.collected r.after
  /-- No object is born until it comes to its answer. -/
  births : (r.after.engine e).heap.births = (r.allocated.engine e).heap.births

/-- **Rounds**, one after another. -/
inductive Rounds (m : Machine κ) (e : EngineId) (w : World κ) : List (Round κ) → World κ → Prop
  /-- None. -/
  | nil : Rounds m e w [] w
  /-- One more. -/
  | snoc {rs : List (Round κ)} {w' : World κ} {r : Round κ} (hr : Rounds m e w rs w')
      (ht : m.Takes e w' r) : Rounds m e w (rs ++ [r]) r.after

end Machine

/-- **What a safepoint makes of an engine**, and whether it collects. -/
structure Engine.Paced (s s' : Engine) (collected : Bool) : Prop where
  /-- It is configured as it was. -/
  options : s'.options = s.options
  /-- Its heap has the limit that it had. -/
  limit : s'.heap.limit = s.heap.limit
  /-- Its heap is true to its slots. -/
  faithful : s'.IsFaithful
  /-- It is collected if it is due. -/
  collected_iff : collected = true ↔ s.IsDue
  /-- Then the count begins anew. -/
  since : s'.heap.sinceCollection = if collected then 0 else s.heap.sinceCollection
  /-- No more is live then than what rooted handles reach. -/
  live_le : s'.heap.live ≤ if collected then s.reached else s.heap.live
  /-- The collection counts. -/
  collections_le : s.stats.collections + collected.toNat ≤ s'.stats.collections
  /-- It counts once if it sets no other one off. -/
  collections_eq : s'.stats.collections ≤ s.stats.collections + 1 →
    s'.stats.collections = s.stats.collections + collected.toNat

/-- Where it is not due nothing happens. -/
theorem Engine.Paced.idle {s : Engine} (hf : s.IsFaithful) (hdue : ¬ s.IsDue) :
    s.Paced s false where
  options := rfl
  limit := rfl
  faithful := hf
  collected_iff := iff_of_false Bool.false_ne_true hdue
  since := rfl
  live_le := Nat.le_refl _
  collections_le := Nat.le_refl _
  collections_eq _ := rfl

/-- Where it is due it is collected, and what becomes of it afterwards is owed to births. If
there are none, it stays as the collection left it. -/
theorem Engine.Paced.collected {s s' : Engine} (hf : s.IsFaithful) (hdue : s.IsDue)
    (hmade : 0 < s.heap.births) (hc : s.collected.Counting s')
    (hbirths : s'.heap.births = s.heap.births) : s.Paced s' true := by
  have hcollected := s.births_collected
  obtain ⟨ho, hl⟩ := hc.kept (hcollected.symm ▸ hmade)
  have hsince := hc.since
  have hlive := hc.live
  rw [hcollected, hbirths] at hsince hlive
  exact {
    options := ho
    limit := hl.trans s.limit_collected
    faithful := hc.faithful hf.collected
    collected_iff := iff_of_true rfl hdue
    since := Nat.le_zero.1 (Nat.le_of_add_le_add_right hsince)
    live_le := hf.live_collected ▸ Nat.le_of_add_le_add_right hlive
    collections_le := hc.collections
    collections_eq := fun hle => Nat.le_antisymm hle hc.collections }

namespace Machine

open Act

variable {b : Behaviour κ} {depth : Nat} {e : EngineId} {w w' : World κ} {r : Round κ} {x : Bool}

/-- **A safepoint paces its engine**, if no object is born while it lets go of what it frees. -/
theorem paced_of_safepoint (hw : w.Sound) (hl : (w.engine e).loan = .none)
    (hf : (w.engine e).IsFaithful) (hmade : 0 < (w.engine e).heap.births)
    (h : (b.machine depth).safepoint e w = .ok x w')
    (hbirths : (w'.engine e).heap.births = (w.engine e).heap.births) :
    w'.Sound ∧ (w'.engine e).loan = .none ∧ (w.engine e).Paced (w'.engine e) x := by
  have hx : World.Excursion True w w' :=
    after_of_ok h ▸ (b.roams depth).perform (.safepoint e) hw
  refine ⟨hw.excursion hx, (hx.engine e).2.trans hl, ?_⟩
  rcases safepoint_cases hl h with ⟨hdue, rfl, rfl⟩ | ⟨hdue, rfl, hrelease⟩
  · exact .idle hf hdue
  · have hsound : (w.modifyEngine e Engine.collected).Sound :=
      hw.modifyEngine ((hw e).collect (w.engine e).roots (w.engine e).stats)
    -- it is the collected engine that natives find
    obtain ⟨-, hled⟩ := abides_releaseAll
      (b.stays Engine.counting (w.modifyEngine e Engine.collected) depth).serves.release _
      ⟨hsound, .refl _⟩
    rw [after_of_ok hrelease] at hled
    have hc := (hled e (hsound e)).2
    rw [World.engine_modifyEngine_self] at hc
    exact .collected hf hdue hmade hc hbirths

/-- **What a round does**: it places an object, and paces the engine. -/
theorem Takes.paced (ht : (b.machine depth).Takes e w r) (hw : w.Sound)
    (hf : (w.engine e).IsFaithful) :
    r.after.Sound ∧ (r.after.engine e).loan = .none ∧ (r.allocated.engine e).IsFaithful
      ∧ (∃ o, r.allocated.engine e = (w.engine e).placing o)
      ∧ (r.allocated.engine e).Paced (r.after.engine e) r.collected := by
  obtain ⟨a, v, ha, hrun⟩ := ht.creates
  obtain ⟨hroom, o, ho, hengine⟩ := ha.placed hrun
  have hallocated : r.allocated.engine e = (w.engine e).placing o := by
    rw [hengine, World.engine_modifyEngine_self]
  have hsound : r.allocated.Sound := fun e' => by
    rw [hengine]
    exact hw.modifyEngine ((hw e).place ho) e'
  have hfaithful : (r.allocated.engine e).IsFaithful := by
    obtain ⟨_, _, hf⟩ := hf
    exact hallocated ▸ ⟨_, _, hf.place hroom o⟩
  have hborn : 0 < (r.allocated.engine e).heap.births := by
    rw [hallocated, Engine.placing, Heap.births_place]
    exact Nat.succ_pos _
  obtain ⟨hsound', hl, hpaced⟩ := paced_of_safepoint hsound (hallocated ▸ ha.loan_of_ok hrun)
    hfaithful hborn ht.safepoint ht.births
  exact ⟨hsound', hl, hfaithful, ⟨o, hallocated⟩, hpaced⟩

end Machine

namespace Engine.Paced

variable {s s' : Engine} {o : HeapObject} {x : Bool}

/-- **A round moves the count by one**, and a collection takes the threshold off it. -/
theorem count (hp : (s.placing o).Paced s' x)
    (hlt : s.heap.sinceCollection < s.options.gcThreshold) :
    x.toNat * s.options.gcThreshold + s'.heap.sinceCollection = s.heap.sinceCollection + 1
      ∧ s'.heap.sinceCollection < s.options.gcThreshold := by
  have hdue := hp.collected_iff
  have hsince := hp.since
  simp only [Engine.IsDue, options_placing, sinceCollection_placing] at hdue hsince
  cases x with
  | true =>
    simp only [true_iff, if_true, Bool.toNat_true] at hdue hsince ⊢
    omega
  | false =>
    simp only [Bool.false_eq_true, false_iff, if_false, Bool.toNat_false] at hdue hsince ⊢
    omega

/-- **From a collection on** no more is live than what is reached and what is counted. -/
theorem live (hp : (s.placing o).Paced s' x) {bound : Nat}
    (hreached : (s.placing o).reached ≤ bound)
    (h : x = true ∨ s.heap.live ≤ bound + s.heap.sinceCollection) :
    s'.heap.live ≤ bound + s'.heap.sinceCollection := by
  have hlive := hp.live_le
  rw [hp.since]
  cases x with
  | true => exact hlive.trans hreached
  | false =>
    have hbefore := h.resolve_left Bool.false_ne_true
    simp only [Bool.false_eq_true, if_false, live_placing, sinceCollection_placing] at hlive ⊢
    omega

end Engine.Paced

namespace Machine.Rounds

variable {b : Behaviour κ} {depth : Nat} {e : EngineId} {w w' : World κ} {r : Round κ}
  {rs : List (Round κ)}

/-- **Rounds keep** heaps sound, and the engine configured as it was and true to its slots. -/
theorem kept (hr : (b.machine depth).Rounds e w rs w') (hw : w.Sound)
    (hf : (w.engine e).IsFaithful) :
    w'.Sound ∧ (w'.engine e).IsFaithful ∧ (w'.engine e).options = (w.engine e).options
      ∧ (w'.engine e).heap.limit = (w.engine e).heap.limit := by
  induction hr with
  | nil => exact ⟨hw, hf, rfl, rfl⟩
  | snoc _ ht ih =>
    obtain ⟨hsound, hfaithful, ho, hl⟩ := ih
    obtain ⟨hsound', -, -, ⟨o, hplaced⟩, hp⟩ := ht.paced hsound hfaithful
    rw [hplaced] at hp
    exact ⟨hsound', hp.faithful, hp.options.trans ho,
      hp.limit.trans ((Engine.limit_placing _ o).trans hl)⟩

/-- After a round nobody has the heap. -/
theorem loan (hr : (b.machine depth).Rounds e w rs w') (hw : w.Sound)
    (hf : (w.engine e).IsFaithful) (hne : rs ≠ []) : (w'.engine e).loan = .none := by
  cases hr with
  | nil => exact absurd rfl hne
  | snoc hr ht =>
    obtain ⟨hsound, hfaithful, -⟩ := hr.kept hw hf
    exact (ht.paced hsound hfaithful).2.1

/-- **The next round** paces the engine that the rounds before it came to. -/
theorem paced (hr : (b.machine depth).Rounds e w rs w') (hw : w.Sound)
    (hf : (w.engine e).IsFaithful) (ht : (b.machine depth).Takes e w' r) :
    ∃ o, r.allocated.engine e = (w'.engine e).placing o
      ∧ ((w'.engine e).placing o).Paced (r.after.engine e) r.collected := by
  obtain ⟨hsound, hfaithful, -⟩ := hr.kept hw hf
  obtain ⟨-, -, -, ⟨o, hplaced⟩, hp⟩ := ht.paced hsound hfaithful
  exact ⟨o, hplaced, hplaced ▸ hp⟩

/-- Each of the rounds is taken after those before it. -/
theorem exists_takes_of_mem (hr : (b.machine depth).Rounds e w rs w') (hm : r ∈ rs) :
    ∃ rs₁ w₁, (b.machine depth).Rounds e w rs₁ w₁ ∧ (b.machine depth).Takes e w₁ r := by
  induction hr with
  | nil => exact nomatch hm
  | snoc hr ht ih =>
    rcases List.mem_append.1 hm with hm | hm
    · exact ih hm
    · exact ⟨_, _, hr, List.mem_singleton.1 hm ▸ ht⟩

/-- What rooted handles reach at a safepoint is what a collection would leave. -/
theorem reached_eq (hr : (b.machine depth).Rounds e w rs w') (hw : w.Sound)
    (hf : (w.engine e).IsFaithful) (hm : r ∈ rs) :
    (r.allocated.engine e).reached = (r.allocated.engine e).collected.heap.live := by
  obtain ⟨_, _, hr, ht⟩ := hr.exists_takes_of_mem hm
  obtain ⟨hsound, hfaithful, -⟩ := hr.kept hw hf
  obtain ⟨-, -, hallocated, -⟩ := ht.paced hsound hfaithful
  exact hallocated.live_collected.symm

/-- **Without a threshold** no safepoint collects. -/
theorem collected_eq_false (hr : (b.machine depth).Rounds e w rs w') (hw : w.Sound)
    (hf : (w.engine e).IsFaithful) (hzero : (w.engine e).options.gcThreshold = 0) (hm : r ∈ rs) :
    r.collected = false := by
  obtain ⟨_, _, hr, ht⟩ := hr.exists_takes_of_mem hm
  obtain ⟨-, -, ho, -⟩ := hr.kept hw hf
  obtain ⟨o, -, hp⟩ := hr.paced hw hf ht
  refine Bool.eq_false_iff.2 fun hcollected => ?_
  have hpos := (hp.collected_iff.1 hcollected).1
  rw [Engine.options_placing, ho, hzero] at hpos
  exact Nat.lt_irrefl 0 hpos

/-- **Rounds move the count by as many as there are**, and each collection takes the threshold
off it. -/
theorem count (hr : (b.machine depth).Rounds e w rs w') (hw : w.Sound)
    (hf : (w.engine e).IsFaithful)
    (hlt : (w.engine e).heap.sinceCollection < (w.engine e).options.gcThreshold) :
    rs.countP (·.collected) * (w.engine e).options.gcThreshold
        + (w'.engine e).heap.sinceCollection = (w.engine e).heap.sinceCollection + rs.length
      ∧ (w'.engine e).heap.sinceCollection < (w.engine e).options.gcThreshold := by
  induction hr with
  | nil => exact ⟨by simp, hlt⟩
  | snoc hr ht ih =>
    obtain ⟨hsum, hlt'⟩ := ih
    obtain ⟨-, -, ho, -⟩ := hr.kept hw hf
    obtain ⟨o, -, hp⟩ := hr.paced hw hf ht
    have hstep := hp.count (ho.symm ▸ hlt')
    rw [ho] at hstep
    rw [Round.countP_snoc, Nat.add_mul, List.length_append, List.length_singleton]
    omega

/-- **The statistics count the collections**, and no others if no safepoint has set off
another one. -/
theorem collections (hr : (b.machine depth).Rounds e w rs w') (hw : w.Sound)
    (hf : (w.engine e).IsFaithful) :
    (w.engine e).stats.collections + rs.countP (·.collected) ≤ (w'.engine e).stats.collections
      ∧ ((∀ r ∈ rs, (r.after.engine e).stats.collections
            ≤ (r.allocated.engine e).stats.collections + 1) →
        (w'.engine e).stats.collections
          = (w.engine e).stats.collections + rs.countP (·.collected)) := by
  induction hr with
  | nil => exact ⟨Nat.le_refl _, fun _ => rfl⟩
  | @snoc rs w' r hr ht ih =>
    obtain ⟨hle, heq⟩ := ih
    obtain ⟨o, hplaced, hp⟩ := hr.paced hw hf ht
    have hcollections := hp.collections_le
    rw [Engine.stats_placing] at hcollections
    rw [Round.countP_snoc]
    refine ⟨by omega, fun honce => ?_⟩
    have hone := honce r (List.mem_append_right rs (List.mem_singleton.2 rfl))
    rw [hplaced] at hone
    rw [hp.collections_eq hone, Engine.stats_placing,
      heq fun r hm => honce r (List.mem_append_left _ hm), Nat.add_assoc]

/-- **Once a safepoint has collected**, no more is live than what is reached and what is
counted. -/
theorem live (hr : (b.machine depth).Rounds e w rs w') (hw : w.Sound)
    (hf : (w.engine e).IsFaithful) {bound : Nat}
    (hreached : ∀ r ∈ rs, (r.allocated.engine e).reached ≤ bound)
    (hcollected : ∃ r ∈ rs, r.collected = true) :
    (w'.engine e).heap.live ≤ bound + (w'.engine e).heap.sinceCollection := by
  induction hr with
  | nil => exact nomatch hcollected
  | @snoc rs w' r hr ht ih =>
    obtain ⟨o, hplaced, hp⟩ := hr.paced hw hf ht
    refine hp.live (hplaced ▸ hreached r (List.mem_append_right rs (List.mem_singleton.2 rfl))) ?_
    obtain ⟨q, hq, hqc⟩ := hcollected
    rcases List.mem_append.1 hq with hq | hq
    · exact .inr (ih (fun r hm => hreached r (List.mem_append_left _ hm)) ⟨q, hq, hqc⟩)
    · exact .inl (List.mem_singleton.1 hq ▸ hqc)

end Machine.Rounds

/-- **The heap of every engine is true to its slots**, in every world that can come about. -/
theorem World.Reachable.isFaithful {w : World κ} (hw : w.Reachable) (e : EngineId) :
    (w.engine e).IsFaithful := by
  obtain ⟨limit, es, hmade⟩ := hw.exists_made e
  rw [Engine.IsFaithful, hmade]
  exact ⟨_, _, Heap.faithful_made limit es⟩

/-- **Safepoints collect once per threshold.** In a world that can come about, rounds are taken:
an object is created, and a safepoint follows during which no object is born. Then, whatever
natives do otherwise:

* without a threshold no safepoint collects;
* if fewer allocations are counted at first than the threshold says, the safepoints collect as
  often as the threshold goes into these and the rounds together, and what is left over is what
  is counted afterwards;
* the statistics count these collections, and no others if no safepoint sets off another one;
* if rooted handles never reach more objects than a bound, fewer objects are live from the first
  collection on than the bound and the threshold together, and as many at most after a creation.
  A creation is refused then at a smaller limit only, and succeeds if neither the limit of the
  heap nor the number of indices is smaller. -/
theorem Behaviour.safepoints_keep_pace (b : Behaviour κ) (depth : Nat) {e : EngineId}
    {w w' : World κ} {rs : List (Round κ)} (hw : w.Reachable)
    (hr : (b.machine depth).Rounds e w rs w') :
    ((w.engine e).options.gcThreshold = 0 → ∀ r ∈ rs, r.collected = false)
      ∧ ((w.engine e).heap.sinceCollection < (w.engine e).options.gcThreshold →
        rs.countP (·.collected)
            = ((w.engine e).heap.sinceCollection + rs.length) / (w.engine e).options.gcThreshold
          ∧ (w'.engine e).heap.sinceCollection
            = ((w.engine e).heap.sinceCollection + rs.length) % (w.engine e).options.gcThreshold)
      ∧ (w.engine e).stats.collections + rs.countP (·.collected) ≤ (w'.engine e).stats.collections
      ∧ ((∀ r ∈ rs, (r.after.engine e).stats.collections
            ≤ (r.allocated.engine e).stats.collections + 1) →
        (w'.engine e).stats.collections
          = (w.engine e).stats.collections + rs.countP (·.collected))
      ∧ ∀ bound, (w.engine e).heap.sinceCollection < (w.engine e).options.gcThreshold →
        (∀ r ∈ rs, (r.allocated.engine e).reached ≤ bound) → (∃ r ∈ rs, r.collected = true) →
        (w'.engine e).heap.live < bound + (w.engine e).options.gcThreshold
          ∧ ∀ a, (b.machine depth).Creation e w' a →
            (∀ v w₁, a.run w' = .ok (.ok v) w₁ →
              (w₁.engine e).heap.live ≤ bound + (w.engine e).options.gcThreshold)
            ∧ (∀ limit w₁, a.run w' = .ok (.error (.heapLimit limit)) w₁ →
              limit < bound + (w.engine e).options.gcThreshold)
            ∧ ((w.engine e).heap.limit = 0
                ∨ bound + (w.engine e).options.gcThreshold ≤ (w.engine e).heap.limit →
              bound + (w.engine e).options.gcThreshold ≤ Heap.indexBound →
              ∃ v w₁, a.run w' = .ok (.ok v) w₁) := by
  have hf := hw.isFaithful e
  obtain ⟨hle, heq⟩ := hr.collections hw.sound hf
  refine ⟨fun hzero r => hr.collected_eq_false hw.sound hf hzero, fun hlt => ?_, hle, heq,
    fun bound hlt hreached hcollected => ?_⟩
  · obtain ⟨hsum, hlt'⟩ := hr.count hw.sound hf hlt
    rw [Nat.add_comm, Nat.mul_comm] at hsum
    obtain ⟨hdiv, hmod⟩ := (Nat.div_mod_unique (Nat.zero_lt_of_lt hlt)).2 ⟨hsum, hlt'⟩
    exact ⟨hdiv.symm, hmod.symm⟩
  · obtain ⟨-, ⟨_, _, hfaithful⟩, -, hlimit⟩ := hr.kept hw.sound hf
    obtain ⟨-, hlt'⟩ := hr.count hw.sound hf hlt
    have hbound := hr.live hw.sound hf hreached hcollected
    have hlive : (w'.engine e).heap.live < bound + (w.engine e).options.gcThreshold := by omega
    have hl : (w'.engine e).loan = .none :=
      hr.loan hw.sound hf fun hnil => by simp [hnil] at hcollected
    refine ⟨hlive, fun a ha => ⟨fun v w₁ h => ?_, fun limit w₁ h => ?_, fun hroom hindex => ?_⟩⟩
    · obtain ⟨-, o, -, hengine⟩ := ha.placed h
      rw [hengine, World.engine_modifyEngine_self, Engine.live_placing]
      exact hlive
    · exact hfaithful.lt_of_refusal (ha.refusal?_eq h) hlive
    · exact ha.exists_of_room hl (hfaithful.refusal?_eq_none hlive (hlimit ▸ hroom) hindex)

/-- Natives that collect an engine when they are finalised. -/
def Behaviour.tidy : Behaviour Unit :=
  ⟨fun _ _ _ => .panic .noAnswer, fun _ => (Program.op (.collect ⟨1⟩)).bind fun _ => .done ()⟩

/-- **The round of a creation**, as far as the safepoint comes to an answer. -/
def Machine.round (m : Machine κ) (e : EngineId) (a : Attempt κ Value) (w : World κ) : Round κ where
  allocated := a.run.after w
  collected := (m.safepoint e).finishes (a.run.after w) fun x _ => x
  after := (m.safepoint e).after (a.run.after w)

/-- The round is taken if it can be seen to be. -/
theorem Machine.takes_round {m : Machine κ} {e : EngineId} {a : Attempt κ Value} {w : World κ}
    (ha : m.Creation e w a) (hcreates : a.run.finishes w (fun r _ => r.isOk) = true)
    (hrests : (m.safepoint e).finishes (m.round e a w).allocated (fun _ w' =>
      (w'.engine e).heap.births = ((m.round e a w).allocated.engine e).heap.births) = true) :
    m.Takes e w (m.round e a w) := by
  obtain ⟨r, w₁, hrun, hok⟩ := Act.exists_of_finishes hcreates
  obtain ⟨x, w₂, hsafepoint, hbirths⟩ := Act.exists_of_finishes hrests
  have hallocated : (m.round e a w).allocated = w₁ := Act.after_of_ok hrun
  have hafter : (m.round e a w).after = w₂ := Act.after_of_ok hsafepoint
  have hcollected : (m.round e a w).collected = x := by
    show (m.safepoint e).finishes (m.round e a w).allocated _ = x
    rw [Act.finishes, hsafepoint]
  refine ⟨?_, ?_, ?_⟩
  · cases r with
    | ok v => exact ⟨a, v, ha, hallocated ▸ hrun⟩
    | error err => cases hok
  · rw [hafter, hcollected]
    exact hsafepoint
  · rw [hafter]
    exact of_decide_eq_true hbirths

/-- An engine that collects after two allocations and takes three objects, with one that is
rooted and a native for a wrapper. -/
def World.ready : World Unit :=
  ((Behaviour.tidy.machine 1).run (do
    let e ← Program.op (.newEngine ⟨2, 3⟩)
    let _ ← Program.op (.createObject e)
    let _ ← Program.op (.root e (.object ⟨0, 0⟩))
    Program.op (.spawn (.custom ()))) []).after {}

/-- The native gets a wrapper, which is collected. -/
def Round.wrapped : Round Unit :=
  (Behaviour.tidy.machine 1).round ⟨1⟩ ((Behaviour.tidy.machine 1).createHost ⟨1⟩ ⟨0⟩) World.ready

/-- Then there is an object, which is not. -/
def Round.plain : Round Unit :=
  (Behaviour.tidy.machine 1).round ⟨1⟩ ((Behaviour.tidy.machine 1).createObject ⟨1⟩)
    Round.wrapped.after

/-- It is with the array that comes next. -/
def Round.array : Round Unit :=
  (Behaviour.tidy.machine 1).round ⟨1⟩ ((Behaviour.tidy.machine 1).createArrayOf ⟨1⟩ [.null])
    Round.plain.after

/-- One allocation was counted, the threshold is two and the limit three. So three rounds collect
twice, and the wrapper's native collects once more when the first of them lets it go; the two
rounds after that collect once, and there is room for another object. -/
theorem Behaviour.safepoints_keep_pace_tidy :
    (tidy.machine 1).Rounds ⟨1⟩ World.ready [Round.wrapped, Round.plain, Round.array]
        Round.array.after
      ∧ [Round.wrapped, Round.plain, Round.array].countP (·.collected) = (1 + 3) / 2
      ∧ (Round.array.after.engine ⟨1⟩).heap.sinceCollection = (1 + 3) % 2
      ∧ (Round.wrapped.after.engine ⟨1⟩).stats.collections = 2
      ∧ (Round.array.after.engine ⟨1⟩).stats.collections = 2 + 1
      ∧ (Round.array.after.engine ⟨1⟩).heap.live < 1 + 2
      ∧ ∃ v w', ((tidy.machine 1).createObject ⟨1⟩).run Round.array.after = .ok (.ok v) w'
        ∧ (w'.engine ⟨1⟩).heap.live ≤ 1 + 2 := by
  have hready : World.ready.Reachable := (tidy.reachable_run 1 _ [] .refl).1
  have hwrapped : (tidy.machine 1).Takes ⟨1⟩ World.ready Round.wrapped :=
    Machine.takes_round (.one (Machine.canHold_of_ne nofun)) (by decide +kernel) (by decide +kernel)
  have hplain : (tidy.machine 1).Takes ⟨1⟩ Round.wrapped.after Round.plain :=
    Machine.takes_round (.one (Machine.canHold_of_ne nofun)) (by decide +kernel) (by decide +kernel)
  have harray : (tidy.machine 1).Takes ⟨1⟩ Round.plain.after Round.array :=
    Machine.takes_round (.arrayOf [.null]) (by decide +kernel) (by decide +kernel)
  have hrounds : (tidy.machine 1).Rounds ⟨1⟩ World.ready [Round.wrapped, Round.plain, Round.array]
      Round.array.after := ((Machine.Rounds.nil.snoc hwrapped).snoc hplain).snoc harray
  have hf : (World.ready.engine ⟨1⟩).IsFaithful := hready.isFaithful ⟨1⟩
  have hsince : (World.ready.engine ⟨1⟩).heap.sinceCollection = 1 := by decide +kernel
  have hthreshold : (World.ready.engine ⟨1⟩).options.gcThreshold = 2 := by decide +kernel
  have hlimit : (World.ready.engine ⟨1⟩).heap.limit = 3 := by decide +kernel
  obtain ⟨-, hcount, -, -, hlive⟩ := tidy.safepoints_keep_pace 1 hready hrounds
  rw [hsince, hthreshold] at hcount hlive
  rw [hlimit] at hlive
  obtain ⟨hpace, hrest⟩ := hcount (by decide)
  obtain ⟨hlt, hcreates⟩ := hlive 1 (by decide)
    (fun r hm => by
      rw [hrounds.reached_eq hready.sound hf hm]
      revert r
      decide +kernel)
    ⟨Round.wrapped, List.mem_cons_self, by decide +kernel⟩
  obtain ⟨hle, -, hroom⟩ := hcreates ((tidy.machine 1).createObject ⟨1⟩)
    (.one (Machine.canHold_of_ne nofun))
  obtain ⟨v, w', hrun⟩ := hroom (.inr (by decide)) (by decide)
  have htwice : (Round.wrapped.after.engine ⟨1⟩).stats.collections = 2 := by decide +kernel
  refine ⟨hrounds, hpace, hrest, htwice, ?_, hlt, v, w', hrun, hle v w' hrun⟩
  have hcreation := (tidy.roams 1).perform (.createHost ⟨1⟩ ⟨0⟩) hready.sound
  have hsafepoint := (tidy.roams 1).perform (.safepoint ⟨1⟩) (hready.sound.excursion hcreation)
  have hafter : Round.wrapped.after.Reachable :=
    (hready.trans hcreation.reaches).trans hsafepoint.reaches
  obtain ⟨-, -, -, honce, -⟩ := tidy.safepoints_keep_pace 1 hafter
    ((Machine.Rounds.nil.snoc hplain).snoc harray)
  exact (honce (by decide +kernel)).trans (congrArg₂ _ htwice (by decide +kernel))

end EmbeddedScript
